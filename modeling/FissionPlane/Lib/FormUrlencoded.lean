/-
# FissionPlane.Lib.FormUrlencoded -- `application/x-www-form-urlencoded`

A form is a list of names with values. Writers differ in the characters they keep and in how they
write a space; an `Encoder` is what they have in common, namely that they keep nothing the parser
looks for. The parser of the URL standard reads a form back from what any of them wrote
(`parse_serialize`), also when the text has been percent-encoded once more as a part of a URL
(`encode_serialize`).

Names and values are read as bytes: a form that was written holds the UTF-8 of its texts.
-/
import FissionPlane.Lib.PercentEncoding
import Mathlib

namespace FissionPlane.Lib.FormUrlencoded

open PercentEncoding
open Json (hexDigit?)
open Text (bytes)

/-! ## Encoders -/

/-- What the parser looks for. -/
def delimiters : List Char := ['%', '&', '+', '=']

/-- The characters a writer leaves as they are, and whether it writes a space as `+`. -/
structure Encoder where
  keeps : Char → Bool
  keeps_visible : ∀ c, keeps c = true → 0x20 < c.toNat ∧ c.toNat ≤ 0x7E
  keeps_plain : ∀ c, keeps c = true → c ∉ delimiters
  plus : Bool

/-- Letters, digits and the given punctuation. -/
def Encoder.alphanumericAnd (punctuation : List Char) (plus : Bool)
    (h : punctuation.all (fun c =>
      decide (0x20 < c.toNat) && decide (c.toNat ≤ 0x7E) && !delimiters.contains c) = true) :
    Encoder where
  keeps c := c.isAlphanum || punctuation.contains c
  plus := plus
  keeps_visible c hc := by
    rcases (Bool.or_eq_true ..).mp hc with hc | hc
    · simp only [Char.isAlphanum, Char.isAlpha, Char.isUpper, Char.isLower, Char.isDigit,
        Bool.or_eq_true, Bool.and_eq_true, decide_eq_true_eq, UInt32.le_iff_toNat_le,
        ge_iff_le] at hc
      change ((65 ≤ c.toNat ∧ c.toNat ≤ 90) ∨ (97 ≤ c.toNat ∧ c.toNat ≤ 122)) ∨
        (48 ≤ c.toNat ∧ c.toNat ≤ 57) at hc
      omega
    · have hall := List.all_eq_true.mp h c (List.contains_iff_mem.mp hc)
      simp only [Bool.and_eq_true, decide_eq_true_eq] at hall
      exact hall.1
  keeps_plain c hc := by
    rcases (Bool.or_eq_true ..).mp hc with hc | hc
    · intro hmem
      have hnone : delimiters.all (fun d => !d.isAlphanum) = true := by decide
      have hfalse := List.all_eq_true.mp hnone c hmem
      rw [hc] at hfalse
      exact Bool.false_ne_true hfalse
    · have hall := List.all_eq_true.mp h c (List.contains_iff_mem.mp hc)
      simp only [Bool.and_eq_true, Bool.not_eq_true', List.contains_eq_mem,
        decide_eq_false_iff_not] at hall
      exact hall.2

/-- The serializer of the URL standard. -/
def urlStandard : Encoder := .alphanumericAnd ['*', '-', '.', '_'] true (by decide)

/-- Python's `quote_plus`, which `urlencode` applies to names and values. -/
def quotePlus : Encoder := .alphanumericAnd ['_', '.', '-', '~'] true (by decide)

/-- JavaScript's `encodeURIComponent`. -/
def encodeURIComponent : Encoder :=
  .alphanumericAnd ['-', '_', '.', '!', '~', '*', Char.ofNat 0x27, '(', ')'] false (by decide)

variable (e : Encoder)

def encodeChar (c : Char) : List Char :=
  if e.keeps c then [c]
  else if e.plus = true ∧ c = ' ' then ['+']
  else (String.utf8EncodeChar c).flatMap encodeByte

def encode (s : List Char) : List Char := s.flatMap (encodeChar e)

/-- A name and its value. -/
def writePair (p : List Char × List Char) : List Char := encode e p.1 ++ '=' :: encode e p.2

def serialize (pairs : List (List Char × List Char)) : List Char :=
  ['&'].intercalate (pairs.map (writePair e))

/-! ## The parser -/

/-- Pluses are spaces, and then triplets are bytes. -/
def decodeComponent (s : List Char) : List UInt8 :=
  decode (s.map fun c => if c = '+' then ' ' else c)

/-- A sequence between two ampersands: its name ends at its first `=`. -/
def readPair (s : List Char) : List UInt8 × List UInt8 :=
  (decodeComponent (s.takeWhile (· != '=')), decodeComponent ((s.dropWhile (· != '=')).drop 1))

/-- The parser of the URL standard; empty sequences are skipped. -/
def parse (s : List Char) : List (List UInt8 × List UInt8) :=
  ((s.splitOn '&').filter (!·.isEmpty)).map readPair

/-! ## What an encoder writes -/

variable {e}

theorem encode_cons (c : Char) (s : List Char) :
    encode e (c :: s) = encodeChar e c ++ encode e s :=
  List.flatMap_cons

/-- A triplet holds a per cent sign and hexadecimal digits. -/
theorem mem_encodeByte {b : UInt8} {c : Char} (h : c ∈ encodeByte b) :
    c = '%' ∨ (hexDigit? c).isSome := by
  have hb := b.toNat_lt
  simp only [encodeByte, List.mem_cons, List.not_mem_nil, or_false] at h
  rcases h with rfl | rfl | rfl
  · exact .inl rfl
  · exact .inr (by rw [hexDigit?_hexDigit (by omega)]; rfl)
  · exact .inr (by rw [hexDigit?_hexDigit (by omega)]; rfl)

theorem mem_encodeBytes {bs : List UInt8} {c : Char} (h : c ∈ bs.flatMap encodeByte) :
    c = '%' ∨ (hexDigit? c).isSome := by
  obtain ⟨b, -, hb⟩ := List.mem_flatMap.mp h
  exact mem_encodeByte hb

/-- What is written is kept, a plus, or a part of a triplet. -/
theorem mem_encode {s : List Char} {c : Char} (h : c ∈ encode e s) :
    e.keeps c = true ∨ c = '+' ∨ c = '%' ∨ (hexDigit? c).isSome := by
  obtain ⟨d, -, hd⟩ := List.mem_flatMap.mp h
  rw [encodeChar] at hd
  split_ifs at hd with hkeeps
  · rw [List.mem_singleton.mp hd]
    exact .inl hkeeps
  · exact .inr (.inl (List.mem_singleton.mp hd))
  · exact .inr (.inr (mem_encodeBytes hd))

/-- No `&` and no `=` is written. -/
theorem not_mem_encode {s : List Char} {d : Char} (hd : d = '&' ∨ d = '=') : d ∉ encode e s := by
  have hdelimiter : d ∈ delimiters := by rcases hd with rfl | rfl <;> decide
  have hplus : d ≠ '+' ∧ d ≠ '%' ∧ hexDigit? d = none := by
    rcases hd with rfl | rfl <;> decide
  intro hmem
  rcases mem_encode hmem with h | h | h | h
  · exact e.keeps_plain d h hdelimiter
  · exact hplus.1 h
  · exact hplus.2.1 h
  · rw [hplus.2.2] at h
    exact Bool.false_ne_true h

/-- A text is read back from what was written for it, whatever follows. -/
theorem decodeComponent_encode (s rest : List Char) :
    decodeComponent (encode e s ++ rest) = bytes s ++ decodeComponent rest := by
  induction s with
  | nil => rfl
  | cons c s ih =>
      rw [decodeComponent] at ih ⊢
      rw [encode_cons, List.append_assoc, List.map_append, bytes_cons, List.append_assoc, ← ih,
        encodeChar]
      split_ifs with hkeeps hplus
      · have hplain := e.keeps_plain c hkeeps
        have hne : c ≠ '+' ∧ c ≠ '%' :=
          ⟨fun h => hplain (h ▸ by decide), fun h => hplain (h ▸ by decide)⟩
        rw [List.map_singleton, if_neg hne.1, List.singleton_append, decode_cons_of_ne hne.2]
      · rw [List.map_singleton, if_pos rfl, List.singleton_append,
          decode_cons_of_ne (by decide), hplus.2]
      · -- a triplet has no plus in it
        have hmap : ((String.utf8EncodeChar c).flatMap encodeByte).map
            (fun d => if d = '+' then ' ' else d) =
            (String.utf8EncodeChar c).flatMap encodeByte := by
          conv => rhs; rw [← List.map_id ((String.utf8EncodeChar c).flatMap encodeByte)]
          refine List.map_congr_left fun d hd => if_neg ?_
          rintro rfl
          rcases mem_encodeBytes hd with h | h
          · exact absurd h (by decide)
          · exact absurd h (by decide)
        rw [hmap, decode_encodeBytes]

theorem readPair_writePair (p : List Char × List Char) :
    readPair (writePair e p) = (bytes p.1, bytes p.2) := by
  have hname : ∀ c ∈ encode e p.1, (c != '=') = true := fun c hc =>
    bne_iff_ne.mpr fun h => not_mem_encode (.inr rfl) (h ▸ hc)
  have hdecode : ∀ s : List Char, decodeComponent (encode e s) = bytes s := by
    intro s
    have hnil : decodeComponent [] = [] := rfl
    have h := @decodeComponent_encode e s []
    rwa [List.append_nil, hnil, List.append_nil] at h
  rw [readPair, writePair, List.takeWhile_append_of_pos hname, List.dropWhile_append_of_pos hname,
    List.takeWhile_cons_of_neg (by decide), List.dropWhile_cons_of_neg (by decide),
    List.append_nil, List.drop_one, List.tail_cons, hdecode, hdecode]

theorem writePair_ne_nil (p : List Char × List Char) : writePair e p ≠ [] :=
  List.append_ne_nil_of_right_ne_nil _ (List.cons_ne_nil _ _)

theorem ampersand_not_mem_writePair (p : List Char × List Char) : '&' ∉ writePair e p := by
  rw [writePair, List.mem_append, List.mem_cons, not_or, not_or]
  exact ⟨not_mem_encode (.inl rfl), by decide, not_mem_encode (.inl rfl)⟩

/-- **A form is read back from what any encoder wrote.** -/
theorem parse_serialize (pairs : List (List Char × List Char)) :
    parse (serialize e pairs) = pairs.map fun p => (bytes p.1, bytes p.2) := by
  cases pairs with
  | nil => rfl
  | cons p pairs =>
      have hfree : ∀ s ∈ (p :: pairs).map (writePair e), '&' ∉ s := by
        intro s hs
        obtain ⟨q, -, rfl⟩ := List.mem_map.mp hs
        exact ampersand_not_mem_writePair q
      have hne : ∀ s ∈ (p :: pairs).map (writePair e), (!s.isEmpty) = true := by
        intro s hs
        obtain ⟨q, -, rfl⟩ := List.mem_map.mp hs
        rw [Bool.not_eq_true', Bool.eq_false_iff, ne_eq, List.isEmpty_iff]
        exact writePair_ne_nil q
      rw [parse, serialize, List.splitOn_intercalate '&' hfree (List.cons_ne_nil _ _),
        List.filter_eq_self.mpr hne, List.map_map]
      exact List.map_congr_left fun q _ => readPair_writePair q

/-- What is written has no space and no control in it, and no `#`. -/
theorem serialize_visible (hhash : e.keeps '#' = false) (pairs : List (List Char × List Char)) :
    ∀ c ∈ serialize e pairs, 0x20 < c.toNat ∧ c ≠ '#' := by
  have hchar : ∀ c, (e.keeps c = true ∨ c = '+' ∨ c = '%' ∨ (hexDigit? c).isSome) →
      0x20 < c.toNat ∧ c ≠ '#' := by
    rintro c (h | rfl | rfl | h)
    · refine ⟨(e.keeps_visible c h).1, ?_⟩
      rintro rfl
      rw [hhash] at h
      exact Bool.false_ne_true h
    · decide
    · decide
    · constructor
      · by_contra hlow
        have hnone : hexDigit? c = none := by
          rw [hexDigit?]
          split_ifs <;> first | rfl | omega
        rw [hnone] at h
        exact Bool.false_ne_true h
      · rintro rfl
        exact absurd h (by decide)
  have hencode : ∀ (s : List Char), ∀ c ∈ encode e s, 0x20 < c.toNat ∧ c ≠ '#' :=
    fun s c hc => hchar c (mem_encode hc)
  have hpair : ∀ (p : List Char × List Char), ∀ c ∈ writePair e p, 0x20 < c.toNat ∧ c ≠ '#' := by
    intro p c hc
    rcases List.mem_append.mp hc with hc | hc
    · exact hencode _ c hc
    · rcases List.mem_cons.mp hc with rfl | hc
      · decide
      · exact hencode _ c hc
  induction pairs with
  | nil => exact fun c hc => absurd hc List.not_mem_nil
  | cons p pairs ih =>
      cases pairs with
      | nil =>
          rw [serialize, List.map_singleton, List.intercalate_singleton]
          exact hpair p
      | cons q pairs =>
          rw [serialize, List.map_cons, List.map_cons, List.intercalate_cons_cons]
          intro c hc
          rcases List.mem_append.mp hc with hc | hc
          · rcases List.mem_append.mp hc with hc | hc
            · exact hpair p c hc
            · rw [List.mem_singleton.mp hc]
              decide
          · exact ih c hc

/-! ## Inside a URL -/

/-- A percent-encode set that leaves the delimiters of a form alone. -/
def SparesForms (set : EncodeSet) : Prop :=
  set.contains '&' = false ∧ set.contains '+' = false ∧ set.contains '=' = false

/-- An encoder whose text is percent-encoded once more keeps what the set leaves to it. -/
def Encoder.within (e : Encoder) (set : EncodeSet) : Encoder where
  keeps c := e.keeps c && !set.contains c
  keeps_visible c hc := e.keeps_visible c ((Bool.and_eq_true ..).mp hc).1
  keeps_plain c hc := e.keeps_plain c ((Bool.and_eq_true ..).mp hc).1
  plus := e.plus

theorem percentEncode_append {set : EncodeSet} (s t : List Char) :
    PercentEncoding.encode set (s ++ t) =
      PercentEncoding.encode set s ++ PercentEncoding.encode set t :=
  List.flatMap_append

theorem percentEncode_encode {set : EncodeSet} (hset : SparesForms set) (s : List Char) :
    PercentEncoding.encode set (encode e s) = encode (e.within set) s := by
  induction s with
  | nil => rfl
  | cons c s ih =>
      rw [encode_cons, encode_cons, percentEncode_append, ih]
      congr 1
      rw [encodeChar, encodeChar]
      by_cases hkeeps : e.keeps c = true
      · rw [if_pos hkeeps]
        have hne : ¬(e.plus = true ∧ c = ' ') := by
          rintro ⟨-, rfl⟩
          exact absurd (e.keeps_visible ' ' hkeeps).1 (by decide)
        by_cases hset' : set.contains c = true
        · -- a character the set takes away becomes a triplet, as if it had not been kept
          have hwithin : (e.within set).keeps c ≠ true := by
            simp [Encoder.within, hset']
          rw [if_neg hwithin]
          rw [if_neg (show ¬((e.within set).plus = true ∧ c = ' ') from hne),
            PercentEncoding.encode, List.flatMap_singleton, PercentEncoding.encodeChar,
            if_pos hset']
        · have hwithin : (e.within set).keeps c = true := by
            simp [Encoder.within, hset', hkeeps]
          rw [if_pos hwithin]
          refine encode_eq_self fun d hd => ?_
          rw [List.mem_singleton.mp hd]
          exact Bool.eq_false_iff.mpr hset'
      · have hwithin : (e.within set).keeps c ≠ true := by
          simp [Encoder.within, hkeeps]
        rw [if_neg hkeeps, if_neg hwithin]
        by_cases hplus : e.plus = true ∧ c = ' '
        · rw [if_pos hplus, if_pos (show (e.within set).plus = true ∧ c = ' ' from hplus)]
          refine encode_eq_self fun d hd => ?_
          rw [List.mem_singleton.mp hd]
          exact hset.2.1
        · rw [if_neg hplus, if_neg (show ¬((e.within set).plus = true ∧ c = ' ') from hplus)]
          exact encode_eq_self fun d hd => set.keeps d (mem_encodeBytes hd)

/-- **A form inside a URL is the form of another encoder.** -/
theorem encode_serialize {set : EncodeSet} (hset : SparesForms set)
    (pairs : List (List Char × List Char)) :
    PercentEncoding.encode set (serialize e pairs) = serialize (e.within set) pairs := by
  have hpair : ∀ p, PercentEncoding.encode set (writePair e p) = writePair (e.within set) p := by
    intro p
    have hequals : PercentEncoding.encodeChar set '=' = ['='] :=
      if_neg (by rw [hset.2.2]; decide)
    rw [writePair, writePair, percentEncode_append, PercentEncoding.encode_cons, hequals,
      percentEncode_encode hset, percentEncode_encode hset, List.singleton_append]
  have hampersand : PercentEncoding.encode set ['&'] = ['&'] := by
    refine encode_eq_self fun d hd => ?_
    rw [List.mem_singleton.mp hd]
    exact hset.1
  induction pairs with
  | nil => rfl
  | cons p pairs ih =>
      cases pairs with
      | nil =>
          rw [serialize, serialize, List.map_singleton, List.map_singleton,
            List.intercalate_singleton, List.intercalate_singleton, hpair]
      | cons q pairs =>
          rw [serialize, serialize] at ih ⊢
          rw [List.map_cons, List.map_cons, List.map_cons, List.map_cons,
            List.intercalate_cons_cons, List.intercalate_cons_cons, percentEncode_append,
            percentEncode_append, hpair, hampersand]
          rw [List.map_cons, List.map_cons] at ih
          rw [ih]

/-! ## Reading a form by name -/

/-- `URLSearchParams.prototype.getAll`. -/
def getAll (pairs : List (List UInt8 × List UInt8)) (name : List UInt8) : List (List UInt8) :=
  (pairs.filter (·.1 == name)).map Prod.snd

theorem getAll_append (ps qs : List (List UInt8 × List UInt8)) (name : List UInt8) :
    getAll (ps ++ qs) name = getAll ps name ++ getAll qs name := by
  rw [getAll, List.filter_append, List.map_append]
  rfl

end FissionPlane.Lib.FormUrlencoded
