/-
# FissionPlane.Sdk.Base64Url -- the token in the WebSocket subprotocol

A stream authenticates by a subprotocol that ends in its token, written in URL-safe base64 without
padding. The Rust client shifts the bits itself, three bytes at a time; the TypeScript client goes
through `btoa` and the Python client through its library, and both rewrite two characters and strip
the padding afterwards.

The Rust loop is compared chunk by chunk with the digits of the group the chunk makes. An index into
the alphabet that is out of range would be a panic, so it is an option here.
-/
import FissionPlane.Lib.Base64
import FissionPlane.Lib.PercentEncoding

namespace FissionPlane.Sdk.Base64Url

open FissionPlane.Lib FissionPlane.Lib.Base64
open Text (bytes)

/-! ## Rust -/

namespace Rust

def alphabet : List Char :=
  "ABCDEFGHIJKLMNOPQRSTUVWXYZabcdefghijklmnopqrstuvwxyz0123456789-_".toList

/-- `input.chunks(3)`. -/
def chunks : List UInt8 → List (List UInt8)
  | [] => []
  | [a] => [[a]]
  | [a, b] => [[a, b]]
  | a :: b :: c :: rest => [a, b, c] :: chunks rest

/-- The body of the loop. -/
def pushChunk (encoded : List Char) (chunk : List UInt8) : Option (List Char) := do
  let first ← chunk[0]?
  let second := chunk[1]?
  let third := chunk[2]?
  let c0 ← alphabet[(first >>> 2).toNat]?
  let c1 ← alphabet[((first &&& 0x03) <<< 4 ||| second.getD 0 >>> 4).toNat]?
  let encoded := encoded ++ [c0] ++ [c1]
  let encoded ← match second with
    | none => some encoded
    | some second => do
        let c2 ← alphabet[((second &&& 0x0f) <<< 2 ||| third.getD 0 >>> 6).toNat]?
        some (encoded ++ [c2])
  match third with
    | none => some encoded
    | some third => do
        let c3 ← alphabet[(third &&& 0x3f).toNat]?
        some (encoded ++ [c3])

/-- `base64_url`; `none` is a panic. -/
def base64Url (input : List UInt8) : Option (List Char) := (chunks input).foldlM pushChunk []

/-- The protocols a connection offers. -/
def protocols (token : List Char) : Option (List Char) :=
  (base64Url (bytes token)).map ("fissionplane.v1, fissionplane.token.".toList ++ ·)

end Rust

/-! ## TypeScript -/

namespace TypeScript

/-- `btoa`; it throws on a character that is no byte. -/
def btoa (binary : List Char) : Option (List Char) :=
  if binary.all fun c => c.toNat < 256 then
    some (standard.encodePadded (binary.map fun c => UInt8.ofNat c.toNat))
  else none

/-- `replaceAll` of one character by another. -/
def replaceAll (old new : Char) (text : List Char) : List Char :=
  text.map fun c => if c = old then new else c

/-- `base64Url`; `none` is an exception. -/
def base64Url (value : List Char) : Option (List Char) :=
  let binary := (bytes value).map fun byte => Char.ofNat byte.toNat
  (btoa binary).map fun text =>
    (replaceAll '/' '_' (replaceAll '+' '-' text)).rdropWhile (· == '=')

/-- The protocols a connection offers. -/
def protocols (token : List Char) : Option (List (List Char)) :=
  (base64Url token).map fun encoded =>
    ["fissionplane.v1".toList, "fissionplane.token.".toList ++ encoded]

end TypeScript

/-! ## Python -/

namespace Python

/-- `bytes.translate` for the two characters of the URL-safe alphabet. -/
def translate (c : Char) : Char := if c = '+' then '-' else if c = '/' then '_' else c

/-- `base64.urlsafe_b64encode`, decoded as text. -/
def urlsafeB64encode (s : List UInt8) : List Char := (standard.encodePadded s).map translate

/-- The encoding in `websocket_subprotocols`. -/
def encoded (token : List Char) : List Char :=
  (urlsafeB64encode (bytes token)).rdropWhile (· == '=')

def websocketSubprotocols (token : List Char) : List (List Char) :=
  ["fissionplane.v1".toList, "fissionplane.token.".toList ++ encoded token]

end Python

/-! ## The Rust loop -/

namespace Rust

/-- Low bits moved up by `k` places, and `k` bits under them: neither overlap nor overflow. -/
theorem shiftLeft_or {x y k : Nat} (hx : x * 2 ^ k < 256) (hy : y < 2 ^ k) :
    x <<< k % 256 ||| y = x * 2 ^ k + y := by
  rw [Nat.shiftLeft_eq, Nat.mod_eq_of_lt hx, Nat.mul_comm, Nat.two_pow_add_eq_or_of_lt hy]

/-- The four indices of a chunk are the four digits of its group. -/
theorem toNat_indices (a b c : UInt8) :
    (a >>> 2).toNat = (digit (group a b c) 3).val ∧
    ((a &&& 0x03) <<< 4 ||| b >>> 4).toNat = (digit (group a b c) 2).val ∧
    ((b &&& 0x0f) <<< 2 ||| c >>> 6).toNat = (digit (group a b c) 1).val ∧
    (c &&& 0x3f).toNat = (digit (group a b c) 0).val := by
  have ha := a.toNat_lt
  have hb := b.toNat_lt
  have hc := c.toNat_lt
  have h3 : a.toNat &&& 3 = a.toNat % 4 := Nat.and_two_pow_sub_one_eq_mod a.toNat 2
  have h15 : b.toNat &&& 15 = b.toNat % 16 := Nat.and_two_pow_sub_one_eq_mod b.toNat 4
  have h63 : c.toNat &&& 63 = c.toNat % 64 := Nat.and_two_pow_sub_one_eq_mod c.toNat 6
  simp only [val_digit, group]
  refine ⟨?_, ?_, ?_, ?_⟩
  · rw [UInt8.toNat_shiftRight]
    show a.toNat >>> 2 = _
    rw [Nat.shiftRight_eq_div_pow]
    omega
  · rw [UInt8.toNat_or, UInt8.toNat_shiftLeft, UInt8.toNat_shiftRight, UInt8.toNat_and]
    show (a.toNat &&& 3) <<< 4 % 256 ||| b.toNat >>> 4 = _
    rw [h3, Nat.shiftRight_eq_div_pow, shiftLeft_or (by omega) (by omega)]
    omega
  · rw [UInt8.toNat_or, UInt8.toNat_shiftLeft, UInt8.toNat_shiftRight, UInt8.toNat_and]
    show (b.toNat &&& 15) <<< 2 % 256 ||| c.toNat >>> 6 = _
    rw [h15, Nat.shiftRight_eq_div_pow, shiftLeft_or (by omega) (by omega)]
    omega
  · rw [UInt8.toNat_and]
    show c.toNat &&& 63 = _
    rw [h63]
    omega

/-- The character of a digit, looked up as the loop does it. -/
theorem alphabet_getElem? {i : Nat} {d : Fin 64} (h : i = d.val) :
    alphabet[i]? = some (urlSafe.char d) := by
  subst h
  have hlength : alphabet.length = 64 := urlSafe.length_eq
  rw [List.getElem?_eq_getElem (by rw [hlength]; exact d.isLt)]
  rfl

theorem pushChunk_one (encoded : List Char) (a : UInt8) :
    pushChunk encoded [a] = some (encoded ++ urlSafe.encode [a]) := by
  obtain ⟨h0, h1, -⟩ := toNat_indices a 0 0
  simp only [pushChunk, List.getElem?_cons_zero, List.getElem?_cons_succ, List.getElem?_nil,
    Option.getD_none, alphabet_getElem? h0, alphabet_getElem? h1, Option.bind_eq_bind,
    Option.bind_some, List.append_assoc]
  rfl

theorem pushChunk_two (encoded : List Char) (a b : UInt8) :
    pushChunk encoded [a, b] = some (encoded ++ urlSafe.encode [a, b]) := by
  obtain ⟨h0, h1, h2, -⟩ := toNat_indices a b 0
  simp only [pushChunk, List.getElem?_cons_zero, List.getElem?_cons_succ, List.getElem?_nil,
    Option.getD_none, Option.getD_some, alphabet_getElem? h0, alphabet_getElem? h1,
    alphabet_getElem? h2, Option.bind_eq_bind, Option.bind_some, List.append_assoc]
  rfl

theorem pushChunk_three (encoded : List Char) (a b c : UInt8) :
    pushChunk encoded [a, b, c] = some (encoded ++ urlSafe.encode [a, b, c]) := by
  obtain ⟨h0, h1, h2, h3⟩ := toNat_indices a b c
  simp only [pushChunk, List.getElem?_cons_zero, List.getElem?_cons_succ, Option.getD_some,
    alphabet_getElem? h0, alphabet_getElem? h1, alphabet_getElem? h2, alphabet_getElem? h3,
    Option.bind_eq_bind, Option.bind_some, List.append_assoc]
  rfl

theorem foldlM_pushChunk : ∀ (input : List UInt8) (encoded : List Char),
    (chunks input).foldlM pushChunk encoded = some (encoded ++ urlSafe.encode input)
  | [], encoded => by
      show some encoded = some (encoded ++ [])
      rw [List.append_nil]
  | [a], encoded => by
      show (pushChunk encoded [a]).bind some = _
      rw [pushChunk_one]
      rfl
  | [a, b], encoded => by
      show (pushChunk encoded [a, b]).bind some = _
      rw [pushChunk_two]
      rfl
  | a :: b :: c :: rest, encoded => by
      show (pushChunk encoded [a, b, c]).bind ((chunks rest).foldlM pushChunk) = _
      rw [pushChunk_three, Option.bind_some, foldlM_pushChunk rest, List.append_assoc]
      rfl

/-- The loop computes the URL-safe encoding without padding. -/
theorem base64Url_eq (input : List UInt8) : base64Url input = some (urlSafe.encode input) :=
  foldlM_pushChunk input []

end Rust

/-! ## Substitution and stripping -/

namespace Python

theorem translate_char : ∀ d, translate (standard.char d) = urlSafe.char d := by decide +kernel

theorem pad_not_mem_urlSafe : Alphabet.pad ∉ urlSafe.chars := by decide

/-- Rewriting two characters and stripping the padding leaves the URL-safe digits. -/
theorem rdropWhile_translate (input : List UInt8) :
    ((standard.encodePadded input).map translate).rdropWhile (· == '=') = urlSafe.encode input := by
  rw [Alphabet.map_encodePadded translate_char rfl]
  exact urlSafe.rdropWhile_encodePadded pad_not_mem_urlSafe input

theorem encoded_eq (token : List Char) : encoded token = urlSafe.encode (bytes token) :=
  rdropWhile_translate (bytes token)

end Python

namespace TypeScript

/-- One substitution after the other is both at once: neither makes what the other looks for. -/
theorem replaceAll_replaceAll (text : List Char) :
    replaceAll '/' '_' (replaceAll '+' '-' text) = text.map Python.translate := by
  unfold replaceAll
  rw [List.map_map]
  apply List.map_congr_left
  intro c _
  show (if (if c = '+' then '-' else c) = '/' then '_' else if c = '+' then '-' else c) =
    if c = '+' then '-' else if c = '/' then '_' else c
  by_cases hplus : c = '+'
  · subst hplus
    rfl
  · rw [if_neg hplus, if_neg hplus]

theorem toNat_ofNat_byte (byte : UInt8) : (Char.ofNat byte.toNat).toNat = byte.toNat := by
  have hlt := byte.toNat_lt
  have hvalid : byte.toNat.isValidChar := Or.inl (by omega)
  unfold Char.ofNat
  rw [dif_pos hvalid]
  rfl

/-- `btoa` takes the characters made of bytes, and reads the same bytes off them. -/
theorem btoa_bytes (input : List UInt8) :
    btoa (input.map fun byte => Char.ofNat byte.toNat) = some (standard.encodePadded input) := by
  have hall : (input.map fun byte => Char.ofNat byte.toNat).all
      (fun c => decide (c.toNat < 256)) = true := by
    rw [List.all_map, List.all_eq_true]
    intro byte _
    apply decide_eq_true
    rw [toNat_ofNat_byte]
    exact byte.toNat_lt
  have hmap : (input.map fun byte => Char.ofNat byte.toNat).map
      (fun c => UInt8.ofNat c.toNat) = input := by
    rw [List.map_map]
    refine (List.map_congr_left fun byte _ => ?_).trans (List.map_id input)
    show UInt8.ofNat (Char.ofNat byte.toNat).toNat = byte
    rw [toNat_ofNat_byte, UInt8.ofNat_toNat]
  rw [btoa, if_pos hall, hmap]

theorem base64Url_eq (value : List Char) :
    base64Url value = some (urlSafe.encode (bytes value)) := by
  show (btoa _).map _ = _
  rw [btoa_bytes, Option.map_some, replaceAll_replaceAll, Python.rdropWhile_translate]

end TypeScript

/-! ## Agreement -/

/-- Tokens with the same encoding are the same. -/
theorem token_injective {token token' : List Char}
    (h : urlSafe.encode (bytes token) = urlSafe.encode (bytes token')) : token = token' :=
  PercentEncoding.bytes_injective (urlSafe.encode_injective h)

/-- The Rust encoder is the URL-safe unpadded encoding, and the three clients offer the same
encoding of the same token. -/
theorem base64Url_urlSafe :
    (∀ input : List UInt8, ∃ out, Rust.base64Url input = some out ∧
      (∀ c ∈ out, c ∈ urlSafe.chars) ∧ out.length = (4 * input.length + 2) / 3 ∧
      urlSafe.decode out = some input) ∧
    (∀ token : List Char, TypeScript.base64Url token = Rust.base64Url (bytes token) ∧
      some (Python.encoded token) = Rust.base64Url (bytes token)) ∧
    (∀ token token' : List Char, Rust.protocols token = Rust.protocols token' → token = token') ∧
    (∀ token token' : List Char,
      TypeScript.protocols token = TypeScript.protocols token' → token = token') ∧
    (∀ token token' : List Char,
      Python.websocketSubprotocols token = Python.websocketSubprotocols token' →
        token = token') := by
  refine ⟨fun input => ⟨_, Rust.base64Url_eq input, fun c => urlSafe.mem_of_mem_encode,
    urlSafe.length_encode input, urlSafe.decode_encode input⟩, fun token => ⟨?_, ?_⟩,
    fun token token' h => ?_, fun token token' h => ?_, fun token token' h => ?_⟩
  · rw [TypeScript.base64Url_eq, Rust.base64Url_eq]
  · rw [Python.encoded_eq, Rust.base64Url_eq]
  · unfold Rust.protocols at h
    rw [Rust.base64Url_eq, Rust.base64Url_eq] at h
    exact token_injective (List.append_cancel_left (Option.some.inj h))
  · unfold TypeScript.protocols at h
    rw [TypeScript.base64Url_eq, TypeScript.base64Url_eq] at h
    have htail := (List.cons.inj (Option.some.inj h)).2
    exact token_injective (List.append_cancel_left (List.cons.inj htail).1)
  · unfold Python.websocketSubprotocols at h
    rw [Python.encoded_eq, Python.encoded_eq] at h
    have htail := (List.cons.inj h).2
    exact token_injective (List.append_cancel_left (List.cons.inj htail).1)

/-- The two examples of the Rust tests. -/
example : Rust.base64Url "tok1".toUTF8.toList = some "dG9rMQ".toList := by decide +kernel

example : Rust.base64Url [0xfb, 0xff] = some "-_8".toList := by decide

end FissionPlane.Sdk.Base64Url
