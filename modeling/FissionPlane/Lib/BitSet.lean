/-
# FissionPlane.Lib.BitSet -- a machine word as a set of bit positions

A word of width `w` denotes the set of its positions that hold a one. The bitwise operations are the
set operations on what the words denote, and a word is determined by its set.
-/
import Mathlib.Data.Set.Lattice

namespace FissionPlane.Lib.BitSet

/-- The positions of a word that hold a one. -/
def members {w : Nat} (x : BitVec w) : Set Nat := {i | x.getLsbD i = true}

variable {w : Nat} {x y : BitVec w}

theorem mem_members {i : Nat} : i ∈ members x ↔ x.getLsbD i = true := Iff.rfl

theorem lt_of_mem_members {i : Nat} (h : i ∈ members x) : i < w := by
  by_contra hge
  rw [mem_members, BitVec.getLsbD_of_ge x i (Nat.le_of_not_lt hge)] at h
  cases h

/-- A word is the set of its positions. -/
theorem members_injective : Function.Injective (members (w := w)) := by
  intro x y h
  apply BitVec.eq_of_getLsbD_eq
  intro i _
  exact Bool.eq_iff_iff.mpr (Set.ext_iff.mp h i)

@[simp]
theorem members_zero : members (0#w) = ∅ := by
  ext i
  simp [mem_members]

@[simp]
theorem members_or : members (x ||| y) = members x ∪ members y := by
  ext i
  simp [mem_members]

@[simp]
theorem members_and : members (x &&& y) = members x ∩ members y := by
  ext i
  simp [mem_members]

/-- Masking with a complement takes away. -/
@[simp]
theorem members_and_not : members (x &&& ~~~y) = members x \ members y := by
  ext i
  have hlt : x.getLsbD i = true → i < w := lt_of_mem_members
  simp only [mem_members, Set.mem_sdiff, BitVec.getLsbD_and, BitVec.getLsbD_not, Bool.and_eq_true,
    decide_eq_true_eq, Bool.not_eq_true', Bool.not_eq_true]
  constructor
  · rintro ⟨hx, -, hy⟩
    exact ⟨hx, hy⟩
  · rintro ⟨hx, hy⟩
    exact ⟨hx, hlt hx, hy⟩

/-- A word is zero when it has no position. -/
theorem eq_zero_iff : x = 0#w ↔ members x = ∅ := by
  rw [← members_zero (w := w)]
  exact members_injective.eq_iff.symm

/-- Two words share a bit when their sets meet. -/
theorem and_ne_zero_iff : x &&& y ≠ 0#w ↔ (members x ∩ members y).Nonempty := by
  rw [Ne, eq_zero_iff, members_and, Set.nonempty_iff_ne_empty]

end FissionPlane.Lib.BitSet
