/-
# FissionPlane.Lib.Utf16 -- the code units of a string in UTF-16

A JavaScript string is a sequence of UTF-16 code units, and its `length` counts them: a code point
below U+10000 is one unit, any other is a surrogate pair. No code point is a surrogate, so the units
of a text determine it.
-/
import Mathlib.Tactic.Common

namespace FissionPlane.Lib.Utf16

/-- The number of code units of a code point. -/
def units (c : Char) : Nat := if c.toNat < 0x10000 then 1 else 2

/-- The code units of a code point: itself, or its surrogate pair. -/
def encode (c : Char) : List Nat :=
  if c.toNat < 0x10000 then [c.toNat]
  else [0xD800 + (c.toNat - 0x10000) / 0x400, 0xDC00 + (c.toNat - 0x10000) % 0x400]

theorem encode_length (c : Char) : (encode c).length = units c := by
  rw [encode, units]
  split <;> rfl

/-- A code point is below the surrogates or above them. -/
theorem toNat_cases (c : Char) :
    c.toNat < 0xD800 ∨ (0xDFFF < c.toNat ∧ c.toNat < 0x110000) := c.valid

/-- The first code point can be read off the units. -/
theorem encode_append_inj {c d : Char} {us vs : List Nat} (h : encode c ++ us = encode d ++ vs) :
    c = d ∧ us = vs := by
  have hc := toNat_cases c
  have hd := toNat_cases d
  unfold encode at h
  split at h <;> split at h <;>
    simp only [List.cons_append, List.nil_append, List.cons.injEq] at h
  · exact ⟨Char.toNat_inj.mp h.1, h.2⟩
  · omega
  · omega
  · exact ⟨Char.toNat_inj.mp (by omega), h.2.2⟩

theorem encode_ne_nil (c : Char) : encode c ≠ [] := by
  unfold encode
  split <;> exact List.cons_ne_nil _ _

/-- Texts with the same code units are the same. -/
theorem flatMap_encode_inj {cs ds : List Char} :
    cs.flatMap encode = ds.flatMap encode ↔ cs = ds := by
  refine ⟨fun h => ?_, fun h => h ▸ rfl⟩
  induction cs generalizing ds with
  | nil =>
      cases ds with
      | nil => rfl
      | cons d ds => exact absurd (List.append_eq_nil_iff.mp h.symm).1 (encode_ne_nil d)
  | cons c cs ih =>
      cases ds with
      | nil => exact absurd (List.append_eq_nil_iff.mp h).1 (encode_ne_nil c)
      | cons d ds =>
          obtain ⟨rfl, hrest⟩ := encode_append_inj h
          rw [ih hrest]

/-- The `length` of a JavaScript string. -/
def length : List Char → Nat
  | [] => 0
  | c :: cs => units c + length cs

@[simp]
theorem length_nil : length [] = 0 := rfl

@[simp]
theorem length_cons (c : Char) (cs : List Char) : length (c :: cs) = units c + length cs := rfl

/-! ## Code points of a sequence of code units -/

def isLead (u : UInt16) : Bool := decide (0xD800 ≤ u.toNat) && decide (u.toNat ≤ 0xDBFF)

def isTrail (u : UInt16) : Bool := decide (0xDC00 ≤ u.toNat) && decide (u.toNat ≤ 0xDFFF)

/-- The code points a string is read as where it is read by code points: a surrogate pair is one,
and a surrogate without its partner is one of its own. -/
def codePoints : List UInt16 → List Nat
  | [] => []
  | [u] => [u.toNat]
  | u :: v :: rest =>
      if isLead u && isTrail v then
        (0x10000 + (u.toNat - 0xD800) * 0x400 + (v.toNat - 0xDC00)) :: codePoints rest
      else u.toNat :: codePoints (v :: rest)

theorem codePoints_cons_of_not_lead {u : UInt16} (h : isLead u = false) (rest : List UInt16) :
    codePoints (u :: rest) = u.toNat :: codePoints rest := by
  cases rest with
  | nil => rfl
  | cons v rest => rw [codePoints, h, Bool.false_and, if_neg Bool.false_ne_true]

theorem toNat_ofNat_unit {n : Nat} (h : n < 0x10000) : (UInt16.ofNat n).toNat = n :=
  UInt16.toNat_ofNat_of_lt' h

/-- A unit of an encoding fits into 16 bits. -/
theorem encode_lt {c : Char} {n : Nat} (h : n ∈ encode c) : n < 0x10000 := by
  have hc := toNat_cases c
  unfold encode at h
  split at h
  · next hlow =>
      rw [List.mem_singleton.mp h]
      exact hlow
  · rcases List.mem_cons.mp h with rfl | h
    · omega
    · rw [List.mem_singleton.mp h]
      omega

theorem map_toNat_encode (s : List Char) :
    ((s.flatMap encode).map UInt16.ofNat).map UInt16.toNat = s.flatMap encode := by
  rw [List.map_map]
  refine (List.map_congr_left fun n hn => ?_).trans (List.map_id _)
  obtain ⟨c, -, hc⟩ := List.mem_flatMap.mp hn
  exact toNat_ofNat_unit (encode_lt hc)

/-- A text has no surrogates of its own, so reading its code units gives its code points back. -/
theorem codePoints_encode (s : List Char) :
    codePoints ((s.flatMap encode).map UInt16.ofNat) = s.map Char.toNat := by
  induction s with
  | nil => rfl
  | cons c s ih =>
      have hc := toNat_cases c
      rw [List.flatMap_cons, List.map_append, List.map_cons, encode]
      split
      · next hlow =>
          have hunit := toNat_ofNat_unit hlow
          have hlead : isLead (UInt16.ofNat c.toNat) = false := by
            simp only [isLead, hunit, Bool.and_eq_false_iff, decide_eq_false_iff_not]
            omega
          rw [List.map_cons, List.map_nil, List.cons_append, List.nil_append,
            codePoints_cons_of_not_lead hlead, hunit, ih]
      · next hhigh =>
          have hu := toNat_ofNat_unit (n := 0xD800 + (c.toNat - 0x10000) / 0x400) (by omega)
          have hv := toNat_ofNat_unit (n := 0xDC00 + (c.toNat - 0x10000) % 0x400) (by omega)
          have hpair : (isLead (UInt16.ofNat (0xD800 + (c.toNat - 0x10000) / 0x400)) &&
              isTrail (UInt16.ofNat (0xDC00 + (c.toNat - 0x10000) % 0x400))) = true := by
            simp only [isLead, isTrail, hu, hv, Bool.and_eq_true, decide_eq_true_eq]
            omega
          have hpoint : 0x10000 + (0xD800 + (c.toNat - 0x10000) / 0x400 - 0xD800) * 0x400 +
              (0xDC00 + (c.toNat - 0x10000) % 0x400 - 0xDC00) = c.toNat := by omega
          rw [List.map_cons, List.map_cons, List.map_nil, List.cons_append, List.cons_append,
            List.nil_append, codePoints, if_pos hpair, hu, hv, ih, hpoint]

end FissionPlane.Lib.Utf16
