/-
# FissionPlane.Domain.DisplayName -- the display-name pattern on every JavaScript string

A JavaScript string is any sequence of 16-bit code units. With the `u` flag a pattern reads it by
code points, and a surrogate that is not part of a pair is a code point of its own: no character,
and in none of the classes.

The pattern is to refuse an empty name, a control character, and white space at either end. It does
so but for one kind of string: after a line or paragraph separator it no longer sees what the name
ends in.
-/
import FissionPlane.Domain.Schemas

namespace FissionPlane.Domain

open FissionPlane.Lib

/-! ## Classes of code points -/

/-- A class of characters, as a class of code points. -/
def onCodePoints (p : Char → Bool) (n : Nat) : Bool :=
  if h : n.isValidChar then p (Char.ofNatAux n h) else false

theorem onCodePoints_toNat (p : Char → Bool) (c : Char) : onCodePoints p c.toNat = p c := by
  have hvalid : c.toNat.isValidChar := c.valid
  unfold onCodePoints
  rw [dif_pos hvalid]
  rfl

/-- A code point is in no class, or it is that of a character of the class. -/
theorem onCodePoints_iff {p : Char → Bool} {n : Nat} :
    onCodePoints p n = true ↔ ∃ c : Char, c.toNat = n ∧ p c = true := by
  constructor
  · intro h
    unfold onCodePoints at h
    by_cases hvalid : n.isValidChar
    · rw [dif_pos hvalid] at h
      exact ⟨Char.ofNatAux n hvalid, rfl, h⟩
    · rw [dif_neg hvalid] at h
      cases h
  · rintro ⟨c, rfl, hc⟩
    rw [onCodePoints_toNat, hc]

/-- `\s` -/
def isSpacePoint : Nat → Bool := onCodePoints Text.isJsSpace

/-- `\p{Cc}` -/
def isControlPoint : Nat → Bool := onCodePoints Text.isControl

/-- What `.` does not match. -/
def isTerminatorPoint : Nat → Bool := onCodePoints Text.isLineTerminator

/-! ## The pattern -/

/-- `DISPLAY_NAME_PATTERN.test(value)`. -/
def displayNameTest (value : List UInt16) : Bool :=
  (displayNameRegex isSpacePoint isTerminatorPoint isControlPoint).test (Utf16.codePoints value)

/-- On a text, the pattern over code points is the one over characters. -/
theorem displayNameTest_encode (s : List Char) :
    displayNameTest ((s.flatMap Utf16.encode).map UInt16.ofNat) = DISPLAY_NAME_PATTERN.test s := by
  have hany : ∀ (p : Char → Bool) (t : List Char),
      (t.map Char.toNat).any (onCodePoints p) = t.any p := by
    intro p t
    rw [List.any_map]
    exact congrArg t.any (funext (onCodePoints_toNat p))
  rw [displayNameTest, Utf16.codePoints_encode, Bool.eq_iff_iff, displayNameRegex_iff,
    displayNamePattern_iff, isControlPoint, isSpacePoint, isTerminatorPoint, hany,
    ← List.map_dropLast, hany, hidesEnd]
  constructor
  · rintro ⟨hne, hrest⟩
    rw [List.head_map, List.getLast_map, onCodePoints_toNat, onCodePoints_toNat] at hrest
    exact ⟨fun h => hne (by rw [h]; rfl), hrest⟩
  · rintro ⟨hne, hrest⟩
    refine ⟨fun h => hne (List.map_eq_nil_iff.mp h), ?_⟩
    rw [List.head_map, List.getLast_map, onCodePoints_toNat, onCodePoints_toNat]
    exact hrest

/-! ## What it is to refuse, and what it does -/

/-- A display name as the pattern states it: not empty, no control character, and no white space at
either end. -/
def StatedDisplayName (s : List Nat) : Prop :=
  ∃ h : s ≠ [], (∀ c ∈ s, isControlPoint c = false) ∧ isSpacePoint (s.head h) = false ∧
    isSpacePoint (s.getLast h) = false

/-- A line or a paragraph separator. -/
def isSeparatorPoint (n : Nat) : Bool := n == 0x2028 || n == 0x2029

/-- White space at the end behind a separator, in a text without any other fault. -/
def HidesTrailingSpace (s : List Nat) : Prop :=
  ∃ h : s ≠ [], (∀ c ∈ s, isControlPoint c = false) ∧ isSpacePoint (s.head h) = false ∧
    isSpacePoint (s.getLast h) = true ∧ ∃ c ∈ s.dropLast, isSeparatorPoint c = true

/-- The other line terminators are control characters. -/
theorem isTerminatorPoint_iff {n : Nat} (h : isControlPoint n = false) :
    isTerminatorPoint n = true ↔ isSeparatorPoint n = true := by
  have hterminator : ∀ c : Char, Text.isLineTerminator c = true →
      Text.isControl c = true ∨ isSeparatorPoint c.toNat = true := by
    intro c hc
    simp only [Text.isLineTerminator, Text.isLineOrParagraphSeparator, Bool.or_eq_true,
      beq_iff_eq] at hc
    simp only [Text.isControl, isSeparatorPoint, Bool.or_eq_true, Bool.and_eq_true,
      decide_eq_true_eq, beq_iff_eq]
    omega
  constructor
  · intro hn
    obtain ⟨c, rfl, hc⟩ := onCodePoints_iff.mp hn
    refine (hterminator c hc).resolve_left fun hcontrol => ?_
    rw [isControlPoint, onCodePoints_toNat, hcontrol] at h
    cases h
  · intro hn
    simp only [isSeparatorPoint, Bool.or_eq_true, beq_iff_eq] at hn
    rcases hn with rfl | rfl
    · rfl
    · rfl

/-- The pattern accepts what it states, and what hides its trailing space. -/
theorem displayNameTest_iff {value : List UInt16} :
    displayNameTest value = true ↔
      StatedDisplayName (Utf16.codePoints value) ∨
        HidesTrailingSpace (Utf16.codePoints value) := by
  rw [displayNameTest, displayNameRegex_iff]
  generalize Utf16.codePoints value = s
  have hcontrols : s.any isControlPoint = false ↔ ∀ c ∈ s, isControlPoint c = false := by
    simp only [List.any_eq_false, Bool.not_eq_true]
  constructor
  · rintro ⟨hne, hcontrol, hhead, hend⟩
    rw [hcontrols] at hcontrol
    by_cases hlast : isSpacePoint (s.getLast hne) = false
    · exact Or.inl ⟨hne, hcontrol, hhead, hlast⟩
    · obtain ⟨c, hc, hterminator⟩ := List.any_eq_true.mp (hend.resolve_right hlast)
      have hfree := hcontrol c (List.mem_of_mem_dropLast hc)
      refine Or.inr ⟨hne, hcontrol, hhead, Bool.not_eq_false _ ▸ hlast, c, hc, ?_⟩
      exact (isTerminatorPoint_iff hfree).mp hterminator
  · rintro (⟨hne, hcontrol, hhead, hlast⟩ | ⟨hne, hcontrol, hhead, -, c, hc, hseparator⟩)
    · exact ⟨hne, hcontrols.mpr hcontrol, hhead, Or.inr hlast⟩
    · have hfree := hcontrol c (List.mem_of_mem_dropLast hc)
      refine ⟨hne, hcontrols.mpr hcontrol, hhead, Or.inl (List.any_eq_true.mpr ⟨c, hc, ?_⟩)⟩
      exact (isTerminatorPoint_iff hfree).mpr hseparator

/-- White space at the end is what the pattern states it refuses. -/
theorem not_stated_of_hides {s : List Nat} (h : HidesTrailingSpace s) : ¬ StatedDisplayName s := by
  obtain ⟨_, _, _, hspace, _⟩ := h
  rintro ⟨_, _, _, hlast⟩
  rw [hspace] at hlast
  cases hlast

/-- **The pattern accepts what it states exactly where no separator hides white space at the
end.** -/
theorem displayNameTest_states_iff (value : List UInt16) :
    (displayNameTest value = true ↔ StatedDisplayName (Utf16.codePoints value)) ↔
      ¬ HidesTrailingSpace (Utf16.codePoints value) := by
  rw [displayNameTest_iff]
  constructor
  · intro h hhides
    exact not_stated_of_hides hhides (h.mp (Or.inr hhides))
  · intro hhides
    rw [or_iff_left hhides]

/-- `"a\u2028b "` ends in a space and is accepted. -/
theorem not_displayNameTest_states :
    ¬ ∀ value : List UInt16,
      displayNameTest value = true ↔ StatedDisplayName (Utf16.codePoints value) := by
  intro h
  have haccepted : displayNameTest [0x61, 0x2028, 0x62, 0x20] = true := by decide +kernel
  obtain ⟨_, _, _, hlast⟩ := (h _).mp haccepted
  have hspace : isSpacePoint ((Utf16.codePoints [0x61, 0x2028, 0x62, 0x20]).getLast
      (by decide)) = true := by decide +kernel
  cases hspace.symm.trans hlast

end FissionPlane.Domain
