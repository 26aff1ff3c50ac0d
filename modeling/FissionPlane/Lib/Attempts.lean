/-
# FissionPlane.Lib.Attempts -- how often a bounded retry loop tries

An attempt meets an outcome, and some outcomes justify another attempt. A loop with a budget of
`n` makes at most `n + 1` attempts and stops at the first outcome that justifies no further one.

`IsLast` says so of the last attempt, counted from zero; it determines that attempt, and puts the
number of attempts at the minimum of `n + 1` and the position of the first outcome that stops.
-/
import Mathlib.Data.ENat.Lattice
import Mathlib.Tactic.Common

namespace FissionPlane.Lib.Attempts

variable {ω : Type*} (again : ω → Bool) (outcome : ℕ → ω)

/-! ## The last attempt -/

/-- `n` is the last attempt of a loop with this budget. -/
structure IsLast (budget n : ℕ) : Prop where
  le : n ≤ budget
  again_of_lt : ∀ k < n, again (outcome k) = true
  stops : n = budget ∨ again (outcome n) = false

/-- The position, counted from one, of the first outcome that stops; `⊤` when all justify another
attempt. -/
noncomputable def position : ℕ∞ :=
  ⨅ (k : ℕ) (_ : again (outcome k) = false), ((k + 1 : ℕ) : ℕ∞)

variable {again outcome} {budget n m : ℕ}

theorem IsLast.unique (hn : IsLast again outcome budget n) (hm : IsLast again outcome budget m) :
    n = m := by
  rcases lt_trichotomy n m with h | h | h
  · have hagain := hm.again_of_lt n h
    have hle := hm.le
    rcases hn.stops with hstop | hstop
    · omega
    · simp [hagain] at hstop
  · exact h
  · have hagain := hn.again_of_lt m h
    have hle := hn.le
    rcases hm.stops with hstop | hstop
    · omega
    · simp [hagain] at hstop

/-- An attempt that justifies another one, followed by a loop with one attempt less to spare. -/
theorem IsLast.succ (h : again (outcome 0) = true)
    (hrest : IsLast again (fun k => outcome (k + 1)) budget n) :
    IsLast again outcome (budget + 1) (n + 1) where
  le := Nat.succ_le_succ hrest.le
  again_of_lt := by
    rintro (_ | k) hk
    · exact h
    · exact hrest.again_of_lt k (Nat.lt_of_succ_lt_succ hk)
  stops := hrest.stops.imp (congrArg (· + 1)) id

theorem isLast_zero (h : budget = 0 ∨ again (outcome 0) = false) :
    IsLast again outcome budget 0 where
  le := Nat.zero_le _
  again_of_lt := fun _ hk => absurd hk (Nat.not_lt_zero _)
  stops := h.imp Eq.symm id

theorem exists_isLast (again : ω → Bool) (outcome : ℕ → ω) (budget : ℕ) :
    ∃ n, IsLast again outcome budget n := by
  induction budget generalizing outcome with
  | zero => exact ⟨0, isLast_zero (.inl rfl)⟩
  | succ budget ih =>
      cases h : again (outcome 0) with
      | false => exact ⟨0, isLast_zero (.inr h)⟩
      | true =>
          obtain ⟨n, hn⟩ := ih fun k => outcome (k + 1)
          exact ⟨n + 1, hn.succ h⟩

/-- Among the attempts of a kind none but the last is made, exactly when each of them that could be
followed comes after an outcome that stops. -/
theorem IsLast.le_iff {p : ℕ → Prop} (h : IsLast again outcome budget n) :
    (∀ k, p k → n ≤ k) ↔
      ∀ k < budget, p k → again (outcome k) = true → ∃ j < k, again (outcome j) = false := by
  constructor
  · intro hle k hk hp hagain
    have hnk := hle k hp
    have hstop : again (outcome n) = false := h.stops.resolve_left (by omega)
    refine ⟨n, lt_of_le_of_ne hnk ?_, hstop⟩
    rintro rfl
    simp [hagain] at hstop
  · intro hcond k hp
    by_contra hlt
    have hbudget := h.le
    obtain ⟨j, hj, hstop⟩ := hcond k (by omega) hp (h.again_of_lt k (by omega))
    have hagain := h.again_of_lt j (by omega)
    simp [hagain] at hstop

/-! ## The number of attempts -/

theorem le_position (h : ∀ k < n, again (outcome k) = true) :
    ((n + 1 : ℕ) : ℕ∞) ≤ position again outcome := by
  refine le_iInf₂ fun k hk => ?_
  have hle : n ≤ k := by
    by_contra hlt
    have hagain := h k (by omega)
    simp [hagain] at hk
  exact_mod_cast Nat.succ_le_succ hle

theorem position_le (h : again (outcome n) = false) :
    position again outcome ≤ ((n + 1 : ℕ) : ℕ∞) :=
  iInf₂_le n h

/-- The last attempt is the one whose count is the smaller of the budget's and the position of the
first outcome that stops. -/
theorem isLast_iff_count :
    IsLast again outcome budget n ↔
      ((n + 1 : ℕ) : ℕ∞) = min ((budget + 1 : ℕ) : ℕ∞) (position again outcome) := by
  have hcount {n : ℕ} (h : IsLast again outcome budget n) :
      ((n + 1 : ℕ) : ℕ∞) = min ((budget + 1 : ℕ) : ℕ∞) (position again outcome) := by
    have hbudget : ((n + 1 : ℕ) : ℕ∞) ≤ ((budget + 1 : ℕ) : ℕ∞) := by
      exact_mod_cast Nat.succ_le_succ h.le
    refine le_antisymm (le_min hbudget (le_position h.again_of_lt)) ?_
    rcases h.stops with rfl | hstop
    · exact min_le_left _ _
    · exact (min_le_right _ _).trans (position_le hstop)
  constructor
  · exact hcount
  · intro heq
    obtain ⟨m, hm⟩ := exists_isLast again outcome budget
    have hnm : ((n + 1 : ℕ) : ℕ∞) = ((m + 1 : ℕ) : ℕ∞) := heq.trans (hcount hm).symm
    have hnm : n + 1 = m + 1 := by exact_mod_cast hnm
    obtain rfl := Nat.succ.inj hnm
    exact hm

end FissionPlane.Lib.Attempts
