/-
# FissionPlane.Lib.Text -- one text, two encodings

Rust reads a string as UTF-8 bytes, JavaScript as UTF-16 code units. Both leave ASCII alone and
keep every other code point out of the ASCII range, and that is all a check whose alphabet is ASCII
ever sees of them: it gives the same answer over the bytes, over the units and over the code
points. `AsciiCompatible` is that property of an encoding.

The module also fixes the character classes the two languages call white space, and Rust's `trim`.
-/
import FissionPlane.Lib.Utf16
import Mathlib.Data.List.DropRight
import Mathlib.Data.List.TakeWhile

namespace FissionPlane.Lib.Text

/-! ## Encodings that agree with ASCII -/

/-- What every encoding below has in common: it is the identity on ASCII, and no part of another
code point is an ASCII value. -/
structure AsciiCompatible (encode : Char → List Nat) : Prop where
  ascii : ∀ c, c.toNat < 0x80 → encode c = [c.toNat]
  high : ∀ c, 0x80 ≤ c.toNat → encode c ≠ [] ∧ ∀ v ∈ encode c, 0x80 ≤ v

namespace AsciiCompatible

variable {encode : Char → List Nat}

/-- An ASCII text is its own encoding. -/
theorem flatMap_eq (h : AsciiCompatible encode) {s : List Char} (hs : ∀ c ∈ s, c.toNat < 0x80) :
    s.flatMap encode = s.map Char.toNat := by
  induction s with
  | nil => rfl
  | cons c s ih =>
      rw [List.flatMap_cons, h.ascii c (hs c List.mem_cons_self),
        ih fun d hd => hs d (List.mem_cons_of_mem c hd), List.map_cons, List.singleton_append]

/-- The encoding is ASCII only when the text is. -/
theorem ascii_of_flatMap (h : AsciiCompatible encode) {s : List Char}
    (hs : ∀ v ∈ s.flatMap encode, v < 0x80) : ∀ c ∈ s, c.toNat < 0x80 := by
  intro c hc
  by_contra hhigh
  obtain ⟨hne, hvals⟩ := h.high c (by omega)
  obtain ⟨v, hv⟩ := List.exists_mem_of_ne_nil _ hne
  have hlow := hs v (List.mem_flatMap.mpr ⟨c, hc, hv⟩)
  have hge := hvals v hv
  omega

/-- A property that only ASCII sequences have holds of the encoding exactly when it holds of the
code points. -/
theorem holds_iff (h : AsciiCompatible encode) (P : List Nat → Prop)
    (hP : ∀ l, P l → ∀ v ∈ l, v < 0x80) (s : List Char) :
    P (s.flatMap encode) ↔ P (s.map Char.toNat) := by
  constructor
  · intro hp
    rwa [← h.flatMap_eq (h.ascii_of_flatMap (hP _ hp))]
  · intro hp
    have hs : ∀ c ∈ s, c.toNat < 0x80 := fun c hc => hP _ hp _ (List.mem_map_of_mem hc)
    rwa [h.flatMap_eq hs]

end AsciiCompatible

/-! ## UTF-8 and UTF-16 -/

/-- The bytes of a Rust string. -/
def bytes (s : List Char) : List UInt8 := s.flatMap String.utf8EncodeChar

/-- The code units of a JavaScript string. -/
def codeUnits (s : List Char) : List Nat := s.flatMap Utf16.encode

theorem codeUnits_length (s : List Char) : (codeUnits s).length = Utf16.length s := by
  induction s with
  | nil => rfl
  | cons c s ih =>
      rw [codeUnits, List.flatMap_cons, List.length_append, Utf16.encode_length]
      exact congrArg (Utf16.units c + ·) ih

theorem utf16_ascii : AsciiCompatible Utf16.encode where
  ascii c hc := if_pos (Nat.lt_trans hc (by decide))
  high c hc := by
    rw [Utf16.encode]
    split
    · exact ⟨List.cons_ne_nil _ _, fun v hv => by rwa [List.mem_singleton.mp hv]⟩
    · refine ⟨List.cons_ne_nil _ _, fun v hv => ?_⟩
      rcases List.mem_cons.mp hv with rfl | hv
      · omega
      · rw [List.mem_singleton.mp hv]
        omega

/-- The bytes of a code point as numbers. -/
def utf8 (c : Char) : List Nat := (String.utf8EncodeChar c).map UInt8.toNat

theorem bytes_map_toNat (s : List Char) : (bytes s).map UInt8.toNat = s.flatMap utf8 := by
  rw [bytes, List.map_flatMap]
  rfl

theorem utf8_ascii : AsciiCompatible utf8 where
  ascii c hc := by
    have hv : c.val.toNat = c.toNat := rfl
    rw [utf8, String.utf8EncodeChar]
    simp only [hv]
    rw [if_pos (by omega), List.map_cons, List.map_nil, UInt8.toNat_ofNat',
      Nat.mod_eq_of_lt (by omega)]
  high c hc := by
    have hv : c.val.toNat = c.toNat := rfl
    refine ⟨List.map_eq_nil_iff.not.mpr String.utf8EncodeChar_ne_nil, fun v hmem => ?_⟩
    rw [utf8, String.utf8EncodeChar] at hmem
    simp only [hv] at hmem
    rw [if_neg (by omega)] at hmem
    -- every byte of a longer sequence is a lead or continuation byte
    split at hmem
    · simp only [List.map_cons, List.map_nil, List.mem_cons, List.not_mem_nil, or_false,
        UInt8.toNat_ofNat'] at hmem
      omega
    · split at hmem
      · simp only [List.map_cons, List.map_nil, List.mem_cons, List.not_mem_nil, or_false,
          UInt8.toNat_ofNat'] at hmem
        omega
      · simp only [List.map_cons, List.map_nil, List.mem_cons, List.not_mem_nil, or_false,
          UInt8.toNat_ofNat'] at hmem
        omega

/-! ## Character classes -/

/-- The code points of general category `Zs`. -/
def isSpaceSeparator (c : Char) : Bool :=
  c.toNat == 0x20 || c.toNat == 0xA0 || c.toNat == 0x1680 ||
    (decide (0x2000 ≤ c.toNat) && decide (c.toNat ≤ 0x200A)) ||
    c.toNat == 0x202F || c.toNat == 0x205F || c.toNat == 0x3000

/-- LINE SEPARATOR and PARAGRAPH SEPARATOR. -/
def isLineOrParagraphSeparator (c : Char) : Bool := c.toNat == 0x2028 || c.toNat == 0x2029

/-- The Unicode property `White_Space`, which is Rust's `char::is_whitespace`. -/
def isWhitespace (c : Char) : Bool :=
  isSpaceSeparator c || isLineOrParagraphSeparator c ||
    (decide (0x09 ≤ c.toNat) && decide (c.toNat ≤ 0x0D)) || c.toNat == 0x85

/-- ZERO WIDTH NO-BREAK SPACE, the byte order mark. -/
def isByteOrderMark (c : Char) : Bool := c.toNat == 0xFEFF

/-- ECMAScript `LineTerminator`: what `.` does not match. -/
def isLineTerminator (c : Char) : Bool :=
  c.toNat == 0x0A || c.toNat == 0x0D || isLineOrParagraphSeparator c

/-- ECMAScript `WhiteSpace` or `LineTerminator`: what `\s` matches. -/
def isJsSpace (c : Char) : Bool :=
  isSpaceSeparator c || isLineTerminator c || isByteOrderMark c ||
    c.toNat == 0x09 || c.toNat == 0x0B || c.toNat == 0x0C

/-- What Python's `str.isspace` accepts: the separators of ASCII besides `White_Space`. -/
def isPySpace (c : Char) : Bool :=
  isWhitespace c || (decide (0x1C ≤ c.toNat) && decide (c.toNat ≤ 0x1F))

/-- General category `Cc`, which is Rust's `char::is_control`. -/
def isControl (c : Char) : Bool :=
  decide (c.toNat ≤ 0x1F) || (decide (0x7F ≤ c.toNat) && decide (c.toNat ≤ 0x9F))

/-- Away from the control characters the two notions of white space differ in the byte order mark
alone. -/
theorem isJsSpace_iff {c : Char} (h : isControl c = false) :
    isJsSpace c = true ↔ isWhitespace c = true ∨ isByteOrderMark c = true := by
  simp only [isControl, Bool.or_eq_false_iff, Bool.and_eq_false_iff, decide_eq_false_iff_not] at h
  simp only [isJsSpace, isWhitespace, isLineTerminator, Bool.or_eq_true, Bool.and_eq_true,
    decide_eq_true_eq, beq_iff_eq]
  constructor
  · rintro (((((h1 | h1) | h1) | h1) | h1) | h1)
    · exact Or.inl (Or.inl (Or.inl (Or.inl h1)))
    · rcases h1 with (h1 | h1) | h1
      · omega
      · omega
      · exact Or.inl (Or.inl (Or.inl (Or.inr h1)))
    · exact Or.inr h1
    · omega
    · omega
    · omega
  · rintro ((((h1 | h1) | h1) | h1) | h1)
    · exact Or.inl (Or.inl (Or.inl (Or.inl (Or.inl h1))))
    · exact Or.inl (Or.inl (Or.inl (Or.inl (Or.inr (Or.inr h1)))))
    · omega
    · omega
    · exact Or.inl (Or.inl (Or.inl (Or.inr h1)))

/-- JavaScript's white space is Rust's, but for the byte order mark. -/
theorem isWhitespace_of_isJsSpace {c : Char} (h : isJsSpace c = true) :
    isWhitespace c = true ∨ isByteOrderMark c = true := by
  simp only [isJsSpace, isWhitespace, isLineTerminator, Bool.or_eq_true, Bool.and_eq_true,
    decide_eq_true_eq, beq_iff_eq] at h ⊢
  rcases h with ((((h | h) | h) | h) | h) | h
  · exact .inl (.inl (.inl (.inl h)))
  · rcases h with (h | h) | h
    · exact .inl (.inl (.inr (by omega)))
    · exact .inl (.inl (.inr (by omega)))
    · exact .inl (.inl (.inl (.inr h)))
  · exact .inr h
  · exact .inl (.inl (.inr (by omega)))
  · exact .inl (.inl (.inr (by omega)))
  · exact .inl (.inl (.inr (by omega)))

/-- Visible ASCII is white space nowhere. -/
theorem isPySpace_of_visible {c : Char} (h : 0x21 ≤ c.toNat) (h' : c.toNat ≤ 0x7E) :
    isPySpace c = false := by
  refine eq_false_of_ne_true fun hspace => ?_
  simp only [isPySpace, isWhitespace, isSpaceSeparator, isLineOrParagraphSeparator,
    Bool.or_eq_true, Bool.and_eq_true, decide_eq_true_eq, beq_iff_eq] at hspace
  omega

/-- The byte order mark is not white space. -/
theorem isWhitespace_of_isByteOrderMark {c : Char} (h : isByteOrderMark c = true) :
    isWhitespace c = false := by
  simp only [isByteOrderMark, beq_iff_eq] at h
  simp [isWhitespace, isSpaceSeparator, isLineOrParagraphSeparator, h]

/-! ## Trimming -/

/-- Rust's `str::trim`. -/
def trim (s : List Char) : List Char := (s.dropWhile isWhitespace).rdropWhile isWhitespace

/-- A text is its own `trim` exactly when neither end is white space. -/
theorem trim_eq_self_iff {s : List Char} (hs : s ≠ []) :
    trim s = s ↔ isWhitespace (s.head hs) = false ∧ isWhitespace (s.getLast hs) = false := by
  have hpos : 0 < s.length := List.length_pos_iff.mpr hs
  have hhead : s[0] = s.head hs := (List.head_eq_getElem hs).symm
  constructor
  · intro h
    have hle : (s.dropWhile isWhitespace).length ≤ s.length := (List.dropWhile_suffix _).length_le
    have hle' : (trim s).length ≤ (s.dropWhile isWhitespace).length :=
      (List.rdropWhile_prefix isWhitespace _).length_le
    have hdrop : s.dropWhile isWhitespace = s :=
      (List.dropWhile_suffix isWhitespace).eq_of_length (by rw [h] at hle'; omega)
    rw [trim, hdrop] at h
    have h1 := List.dropWhile_eq_self_iff.mp hdrop hpos
    have h2 := List.rdropWhile_eq_self_iff.mp h hs
    rw [hhead] at h1
    exact ⟨Bool.eq_false_iff.mpr h1, Bool.eq_false_iff.mpr h2⟩
  · rintro ⟨h1, h2⟩
    have hdrop : s.dropWhile isWhitespace = s :=
      List.dropWhile_eq_self_iff.mpr fun _ => by rw [hhead, h1]; decide
    rw [trim, hdrop]
    exact List.rdropWhile_eq_self_iff.mpr fun _ => by rw [h2]; decide

end FissionPlane.Lib.Text
