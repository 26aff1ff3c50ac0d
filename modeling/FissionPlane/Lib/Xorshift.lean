/-
# FissionPlane.Lib.Xorshift -- adding a shifted copy of a word to itself

A xorshift generator adds (without carries) shifted copies of its word to it. Each of the two kinds
of stage can be undone: the lowest bits pass a left shift unchanged, and every other bit of the
result is its own bit plus one that is already known. A right shift is the same from the top. Words
of any width, any shift but zero.
-/
import Mathlib.Logic.Function.Basic
import Mathlib.Tactic.Common

namespace FissionPlane.Lib.Xorshift

variable {w : Nat}

/-! ## The two stages -/

/-- `x ^ (x << k)`. -/
def left (k : Nat) (x : BitVec w) : BitVec w := x ^^^ (x <<< k)

/-- `x ^ (x >> k)`. -/
def right (k : Nat) (x : BitVec w) : BitVec w := x ^^^ (x >>> k)

/-- What stands above position `i` plays no part in bit `i` of a left stage: induction on `i`. -/
theorem getLsbD_eq_of_left {k : Nat} (hk : 0 < k) {x y : BitVec w} (h : left k x = left k y) :
    ∀ i, x.getLsbD i = y.getLsbD i := by
  intro i
  induction i using Nat.strongRecOn with
  | ind i ih =>
      have hbit : (left k x).getLsbD i = (left k y).getLsbD i := by rw [h]
      unfold left at hbit
      rw [BitVec.getLsbD_xor, BitVec.getLsbD_xor, BitVec.getLsbD_shiftLeft,
        BitVec.getLsbD_shiftLeft] at hbit
      by_cases hi : i < k
      · simpa [hi] using hbit
      · have hlower : x.getLsbD (i - k) = y.getLsbD (i - k) := ih (i - k) (by omega)
        rw [hlower] at hbit
        exact Bool.xor_left_inj.mp hbit

theorem left_injective {k : Nat} (hk : 0 < k) : Function.Injective (left (w := w) k) := by
  intro x y h
  apply BitVec.eq_of_getLsbD_eq
  intro i _
  exact getLsbD_eq_of_left hk h i

/-- From the top down: induction on the distance from the width. -/
theorem getLsbD_eq_of_right {k : Nat} (hk : 0 < k) {x y : BitVec w} (h : right k x = right k y) :
    ∀ n i, w ≤ i + n → x.getLsbD i = y.getLsbD i := by
  intro n
  induction n with
  | zero =>
      intro i hi
      rw [BitVec.getLsbD_of_ge x i (by omega), BitVec.getLsbD_of_ge y i (by omega)]
  | succ n ih =>
      intro i hi
      have hbit : (right k x).getLsbD i = (right k y).getLsbD i := by rw [h]
      unfold right at hbit
      rw [BitVec.getLsbD_xor, BitVec.getLsbD_xor, BitVec.getLsbD_ushiftRight,
        BitVec.getLsbD_ushiftRight] at hbit
      have hupper : x.getLsbD (k + i) = y.getLsbD (k + i) := ih (k + i) (by omega)
      rw [hupper] at hbit
      exact Bool.xor_left_inj.mp hbit

theorem right_injective {k : Nat} (hk : 0 < k) : Function.Injective (right (w := w) k) := by
  intro x y h
  apply BitVec.eq_of_getLsbD_eq
  intro i _
  exact getLsbD_eq_of_right hk h w i (Nat.le_add_left w i)

/-! ## The three-stage generator -/

/-- One step of the generator with shifts `a`, `b`, `c`. -/
def next (a b c : Nat) (x : BitVec w) : BitVec w := left c (right b (left a x))

theorem next_injective {a b c : Nat} (ha : 0 < a) (hb : 0 < b) (hc : 0 < c) :
    Function.Injective (next (w := w) a b c) :=
  (left_injective hc).comp ((right_injective hb).comp (left_injective ha))

end FissionPlane.Lib.Xorshift
