/-
# FissionPlane.Lib.PercentEncoding -- the URL standard's percent-encoding

A percent-encode set says which code points a part of a URL may not hold as they are: their UTF-8
bytes are written as `%XX` triplets, and the other code points are kept. Decoding reads every
triplet as a byte and everything else as UTF-8.

The per cent sign itself is in none of the sets of a URL parser, so that encoding is not injective:
decoding gives the text back exactly when the text holds no triplet of its own
(`decode_encode_iff`).
-/
import FissionPlane.Lib.Json
import FissionPlane.Lib.Text

namespace FissionPlane.Lib.PercentEncoding

open Json (hexDigit?)
open Text (bytes)

/-! ## UTF-8 -/

theorem bytes_cons (c : Char) (s : List Char) :
    bytes (c :: s) = String.utf8EncodeChar c ++ bytes s :=
  List.flatMap_cons

/-- A text is determined by its UTF-8. -/
theorem bytes_injective : Function.Injective bytes := by
  intro s t h
  have henc : s.utf8Encode = t.utf8Encode := congrArg List.toByteArray h
  have hdec := congrArg ByteArray.utf8Decode? henc
  rw [List.utf8Decode?_utf8Encode, List.utf8Decode?_utf8Encode] at hdec
  exact List.toArray_inj (Option.some.inj hdec)

theorem utf8EncodeChar_length_pos (c : Char) : 0 < (String.utf8EncodeChar c).length :=
  List.length_pos_iff.mpr String.utf8EncodeChar_ne_nil

/-- Dropping characters never makes the encoding longer, and leaves its length alone only when
nothing was dropped. -/
theorem eq_of_sublist {s t : List Char} (h : s.Sublist t)
    (hlen : (bytes t).length ≤ (bytes s).length) : s = t := by
  have hle : ∀ {s t : List Char}, s.Sublist t → (bytes s).length ≤ (bytes t).length := by
    intro s t h
    induction h with
    | slnil => exact Nat.le_refl _
    | cons c _ ih => rw [bytes_cons, List.length_append]; omega
    | cons_cons c _ ih => rw [bytes_cons, bytes_cons, List.length_append, List.length_append]; omega
  induction h with
  | slnil => rfl
  | cons c h _ =>
      have hc := utf8EncodeChar_length_pos c
      rw [bytes_cons, List.length_append] at hlen
      have := hle h
      omega
  | cons_cons c _ ih =>
      rw [bytes_cons, bytes_cons, List.length_append, List.length_append] at hlen
      rw [ih (by omega)]

/-! ## Sets -/

/-- A percent-encode set. The sets of the standard hold the C0 controls, DEL and everything beyond
ASCII, and none holds what a triplet is made of. -/
structure EncodeSet where
  contains : Char → Bool
  controls : ∀ c : Char, c.toNat ≤ 0x1F ∨ 0x7E < c.toNat → contains c = true
  keeps : ∀ c : Char, c = '%' ∨ (hexDigit? c).isSome → contains c = false

/-- The C0 control percent-encode set with the given characters added to it. -/
def EncodeSet.adding (added : List Char)
    (h : added.all (fun c => decide (c ≠ '%') && (hexDigit? c).isNone) = true) : EncodeSet where
  contains c := decide (c.toNat ≤ 0x1F) || decide (0x7E < c.toNat) || added.contains c
  controls c hc := by
    rcases hc with hc | hc
    · rw [decide_eq_true hc, Bool.true_or, Bool.true_or]
    · rw [decide_eq_true hc, Bool.or_true, Bool.true_or]
  keeps c hc := by
    have hnot : added.contains c = false := by
      rw [← Bool.not_eq_true, List.contains_iff_mem]
      intro hmem
      have hadd := List.all_eq_true.mp h c hmem
      rw [Bool.and_eq_true, decide_eq_true_eq, Option.isNone_iff_eq_none] at hadd
      rcases hc with hc | hc
      · exact hadd.1 hc
      · rw [hadd.2] at hc
        exact absurd hc (by decide)
    have hrange : 0x20 ≤ c.toNat ∧ c.toNat ≤ 0x7E := by
      rcases hc with rfl | hc
      · decide
      · rw [hexDigit?] at hc
        split at hc
        · omega
        · split at hc
          · omega
          · split at hc
            · omega
            · exact absurd hc (by decide)
    rw [hnot, Bool.or_false, Bool.or_eq_false_iff, decide_eq_false_iff_not, decide_eq_false_iff_not]
    omega

variable {set : EncodeSet}

namespace EncodeSet

/-- What a set does not hold is printable ASCII. -/
theorem printable {c : Char} (h : set.contains c = false) : 0x20 ≤ c.toNat ∧ c.toNat ≤ 0x7E := by
  by_contra hout
  have hc := set.controls c (by omega)
  rw [h] at hc
  exact absurd hc (by decide)

theorem not_mem_of_adding {added : List Char} {h} {c : Char}
    (hc : (adding added h).contains c = false) : c ∉ added := by
  intro hmem
  have hc' : (decide (c.toNat ≤ 0x1F) || decide (0x7E < c.toNat) || added.contains c) = false := hc
  rw [List.contains_iff_mem.mpr hmem, Bool.or_true] at hc'
  exact absurd hc' (by decide)

/-- Nor is it a space, when the space was added. -/
theorem visible_of_adding {added : List Char} {h} {c : Char} (hspace : ' ' ∈ added)
    (hc : (adding added h).contains c = false) : 0x20 < c.toNat := by
  refine Nat.lt_of_le_of_ne (printable hc).1 fun heq => not_mem_of_adding hc ?_
  have hc' : ' ' = c := Char.toNat_inj.mp heq
  rwa [← hc']

end EncodeSet

/-- A text that holds nothing of the set. -/
def Clean (set : EncodeSet) (s : List Char) : Prop := ∀ c ∈ s, set.contains c = false

/-- The texts that a part of a URL with this set can hold. -/
abbrev Encoded (set : EncodeSet) := { s : List Char // Clean set s }

/-! ## Encoding -/

/-- An upper-case hexadecimal digit. -/
def hexDigit (n : Nat) : Char := Char.ofNat (if n < 10 then 48 + n else 55 + n)

theorem hexDigit?_hexDigit {n : Nat} (h : n < 16) : hexDigit? (hexDigit n) = some n := by
  have hall : ∀ m ∈ List.range 16, hexDigit? (hexDigit m) = some m := by decide
  exact hall n (List.mem_range.mpr h)

def encodeByte (b : UInt8) : List Char := ['%', hexDigit (b.toNat / 16), hexDigit (b.toNat % 16)]

variable (set)

/-- UTF-8 percent-encode a code point. -/
def encodeChar (c : Char) : List Char :=
  if set.contains c then (String.utf8EncodeChar c).flatMap encodeByte else [c]

/-- UTF-8 percent-encode a text. -/
def encode (s : List Char) : List Char := s.flatMap (encodeChar set)

variable {set}

theorem encode_cons (c : Char) (s : List Char) :
    encode set (c :: s) = encodeChar set c ++ encode set s :=
  List.flatMap_cons

theorem encodeByte_clean (b : UInt8) : Clean set (encodeByte b) := by
  have hb := b.toNat_lt
  intro c hc
  apply set.keeps
  simp only [encodeByte, List.mem_cons, List.not_mem_nil, or_false] at hc
  rcases hc with hc | hc | hc
  · exact Or.inl hc
  · exact Or.inr (by rw [hc, hexDigit?_hexDigit (by omega)]; rfl)
  · exact Or.inr (by rw [hc, hexDigit?_hexDigit (by omega)]; rfl)

theorem encodeChar_clean (c : Char) : Clean set (encodeChar set c) := by
  intro d hd
  rw [encodeChar] at hd
  split at hd
  · obtain ⟨b, _, hb⟩ := List.mem_flatMap.mp hd
    exact encodeByte_clean b d hb
  · rename_i hc
    rw [List.mem_singleton.mp hd]
    exact Bool.eq_false_iff.mpr hc

/-- What is encoded holds nothing of the set. -/
theorem encode_clean (s : List Char) : Clean set (encode set s) := by
  intro c hc
  obtain ⟨d, _, hd⟩ := List.mem_flatMap.mp hc
  exact encodeChar_clean d c hd

/-- What holds nothing of the set is its own encoding. -/
theorem encode_eq_self {s : List Char} (h : Clean set s) : encode set s = s := by
  induction s with
  | nil => rfl
  | cons c s ih =>
      rw [encode_cons, encodeChar, h c List.mem_cons_self, if_neg (by decide),
        ih fun d hd => h d (List.mem_cons_of_mem c hd), List.singleton_append]

/-- The encoding of a text as a part of a URL. -/
def encoded (set : EncodeSet) (s : List Char) : Encoded set := ⟨encode set s, encode_clean s⟩

/-! ## Decoding -/

/-- The byte of two hexadecimal digits. -/
def byte? (b c : Char) : Option UInt8 :=
  match hexDigit? b, hexDigit? c with
  | some high, some low => some (UInt8.ofNat (16 * high + low))
  | _, _ => none

/-- The byte of a triplet. -/
def triplet? (a b c : Char) : Option UInt8 := if a = '%' then byte? b c else none

/-- Percent-decode a text. -/
def decode : List Char → List UInt8
  | [] => []
  | [a] => bytes [a]
  | [a, b] => bytes [a, b]
  | a :: b :: c :: rest =>
      match triplet? a b c with
      | some byte => byte :: decode rest
      | none => String.utf8EncodeChar a ++ decode (b :: c :: rest)

/-- Whether the text holds a per cent sign followed by two hexadecimal digits. -/
def hasTriplet : List Char → Bool
  | a :: b :: c :: rest => (triplet? a b c).isSome || hasTriplet (b :: c :: rest)
  | _ => false

theorem decode_cons_of_none {a b c : Char} (h : triplet? a b c = none) (rest : List Char) :
    decode (a :: b :: c :: rest) = String.utf8EncodeChar a ++ decode (b :: c :: rest) := by
  rw [decode, h]

theorem decode_cons_of_some {a b c : Char} {byte : UInt8} (h : triplet? a b c = some byte)
    (rest : List Char) : decode (a :: b :: c :: rest) = byte :: decode rest := by
  rw [decode, h]

theorem decode_cons_of_ne {a : Char} (h : a ≠ '%') (rest : List Char) :
    decode (a :: rest) = String.utf8EncodeChar a ++ decode rest := by
  match rest with
  | [] => rfl
  | [b] => rfl
  | b :: c :: rest => exact decode_cons_of_none (if_neg h) rest

theorem decode_encodeByte (b : UInt8) (rest : List Char) :
    decode (encodeByte b ++ rest) = b :: decode rest := by
  have hb := b.toNat_lt
  have htriplet : triplet? '%' (hexDigit (b.toNat / 16)) (hexDigit (b.toNat % 16)) = some b := by
    rw [triplet?, if_pos rfl, byte?, hexDigit?_hexDigit (by omega), hexDigit?_hexDigit (by omega)]
    show some (UInt8.ofNat (16 * (b.toNat / 16) + b.toNat % 16)) = some b
    rw [Nat.div_add_mod, UInt8.ofNat_toNat]
  exact decode_cons_of_some htriplet rest

theorem decode_encodeBytes (bs : List UInt8) (rest : List Char) :
    decode (bs.flatMap encodeByte ++ rest) = bs ++ decode rest := by
  induction bs with
  | nil => rfl
  | cons b bs ih =>
      rw [List.flatMap_cons, List.append_assoc, decode_encodeByte, ih, List.cons_append]

/-- The first character of an encoded code point is a digit only when the code point is. -/
theorem encodeChar_head (c : Char) :
    ∃ d ds, encodeChar set c = d :: ds ∧ hexDigit? d = hexDigit? c ∧
      ((hexDigit? c).isSome → ds = []) := by
  by_cases hc : set.contains c = true
  · have hnone : hexDigit? c = none := by
      by_contra hsome
      have := set.keeps c (Or.inr (Option.isSome_iff_ne_none.mpr hsome))
      rw [hc] at this
      exact absurd this (by decide)
    obtain ⟨b, bs, hbytes⟩ := List.exists_cons_of_ne_nil (String.utf8EncodeChar_ne_nil (c := c))
    refine ⟨'%', hexDigit (b.toNat / 16) :: hexDigit (b.toNat % 16) :: bs.flatMap encodeByte,
      ?_, ?_, ?_⟩
    · rw [encodeChar, if_pos hc, hbytes]
      rfl
    · rw [hnone]
      rfl
    · intro hsome
      rw [hnone] at hsome
      exact absurd hsome (by decide)
  · exact ⟨c, [], if_neg hc, rfl, fun _ => rfl⟩

theorem byte?_isSome {b c : Char} :
    (byte? b c).isSome ↔ (hexDigit? b).isSome ∧ (hexDigit? c).isSome := by
  rw [byte?]
  cases hexDigit? b with
  | none => simp
  | some _ => cases hexDigit? c <;> simp

/-- The byte that a per cent sign before this text stands for. -/
def escape? : List Char → Option UInt8
  | b :: c :: _ => byte? b c
  | _ => none

theorem decode_percent (rest : List Char) : decode ('%' :: rest) =
    match escape? rest with
    | some byte => byte :: decode (rest.drop 2)
    | none => String.utf8EncodeChar '%' ++ decode rest := by
  match rest with
  | [] => rfl
  | [b] => rfl
  | b :: c :: rest =>
      show _ = match byte? b c with
        | some byte => byte :: decode rest
        | none => String.utf8EncodeChar '%' ++ decode (b :: c :: rest)
      cases h : byte? b c with
      | some byte => exact decode_cons_of_some (by rw [triplet?, if_pos rfl, h]) rest
      | none => exact decode_cons_of_none (by rw [triplet?, if_pos rfl, h]) rest

theorem escape?_of_none {b : Char} (h : hexDigit? b = none) (rest : List Char) :
    escape? (b :: rest) = none := by
  match rest with
  | [] => rfl
  | c :: rest => rw [escape?, byte?, h]

/-- Encoding neither makes a triplet nor breaks one. -/
theorem escape?_encode (s : List Char) : escape? (encode set s) = escape? s := by
  match s with
  | [] => rfl
  | b :: s =>
      obtain ⟨d, ds, hd, hhex, hds⟩ := @encodeChar_head set b
      rw [encode_cons, hd]
      cases hb : hexDigit? b with
      | none => rw [escape?_of_none hb, List.cons_append, escape?_of_none (hhex.trans hb)]
      | some _ =>
          rw [hds (by rw [hb]; rfl), List.singleton_append]
          match s with
          | [] => rfl
          | c :: s =>
              obtain ⟨e, es, he, hhex', _⟩ := @encodeChar_head set c
              rw [encode_cons, he, List.cons_append, escape?, escape?, byte?, byte?, hhex, hhex']

theorem drop_encode {s : List Char} (h : (escape? s).isSome) :
    (encode set s).drop 2 = encode set (s.drop 2) := by
  match s, h with
  | b :: c :: s, h =>
      obtain ⟨hb, hc⟩ := byte?_isSome.mp h
      obtain ⟨d, ds, hd, _, hds⟩ := @encodeChar_head set b
      obtain ⟨e, es, he, _, hes⟩ := @encodeChar_head set c
      rw [encode_cons, encode_cons, hd, he, hds hb, hes hc]
      rfl

/-- **Decoding does not see encoding.** What the set adds as triplets decodes to the text's own
UTF-8, and the triplets the text had are still there. -/
theorem decode_encode (s : List Char) : decode (encode set s) = decode s := by
  induction hn : s.length using Nat.strong_induction_on generalizing s with
  | _ n ih =>
    match s, hn with
    | [], _ => rfl
    | a :: rest, hn =>
        rw [List.length_cons] at hn
        have hrest : decode (encode set rest) = decode rest := ih rest.length (by omega) rest rfl
        have hdrop : decode (encode set (rest.drop 2)) = decode (rest.drop 2) :=
          ih (rest.drop 2).length (by rw [List.length_drop]; omega) (rest.drop 2) rfl
        rw [encode_cons]
        by_cases ha : a = '%'
        · rw [ha, encodeChar, set.keeps '%' (Or.inl rfl), if_neg (by decide), List.singleton_append,
            decode_percent, decode_percent, escape?_encode]
          cases hb : escape? rest with
          | some byte =>
              show byte :: decode ((encode set rest).drop 2) = byte :: decode (rest.drop 2)
              rw [drop_encode (by rw [hb]; rfl), hdrop]
          | none =>
              show _ ++ decode (encode set rest) = _ ++ decode rest
              rw [hrest]
        · rw [decode_cons_of_ne ha, ← hrest]
          by_cases hc : set.contains a = true
          · rw [encodeChar, if_pos hc, decode_encodeBytes]
          · rw [encodeChar, if_neg hc, List.singleton_append, decode_cons_of_ne ha]

/-- Decoding never gives more bytes than the text has. -/
theorem decode_length_le (s : List Char) : (decode s).length ≤ (bytes s).length := by
  induction s using decode.induct with
  | case1 => exact Nat.le_refl _
  | case2 a => exact Nat.le_refl _
  | case3 a b => exact Nat.le_refl _
  | case4 a b c rest byte h ih =>
      have ha := utf8EncodeChar_length_pos a
      rw [decode_cons_of_some h, List.length_cons, bytes_cons, bytes_cons, bytes_cons]
      simp only [List.length_append]
      omega
  | case5 a b c rest h ih =>
      rw [decode_cons_of_none h, bytes_cons, List.length_append, List.length_append]
      omega

/-- A text without triplets decodes to its own UTF-8, and no other text does. -/
theorem decode_eq_bytes_iff (s : List Char) : decode s = bytes s ↔ hasTriplet s = false := by
  induction s using decode.induct with
  | case1 => exact iff_of_true rfl rfl
  | case2 a => exact iff_of_true rfl rfl
  | case3 a b => exact iff_of_true rfl rfl
  | case4 a b c rest byte h _ =>
      refine iff_of_false ?_ ?_
      · intro heq
        -- three characters have become one byte
        have hlen := congrArg List.length heq
        have hrest := decode_length_le rest
        have ha := utf8EncodeChar_length_pos a
        have hb := utf8EncodeChar_length_pos b
        rw [decode_cons_of_some h, List.length_cons, bytes_cons, bytes_cons, bytes_cons] at hlen
        simp only [List.length_append] at hlen
        omega
      · rw [hasTriplet, h]
        exact Bool.false_ne_true ∘ Eq.symm
  | case5 a b c rest h ih =>
      rw [decode_cons_of_none h, bytes_cons, List.append_cancel_left_eq, ih, hasTriplet, h]
      rfl

/-- **A text survives encoding and decoding exactly when it has no triplet of its own.** -/
theorem decode_encode_iff (s : List Char) :
    decode (encode set s) = bytes s ↔ hasTriplet s = false := by
  rw [decode_encode, decode_eq_bytes_iff]

end FissionPlane.Lib.PercentEncoding
