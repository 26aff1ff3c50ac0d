/-
# FissionPlane.Lib.Polling -- rounds of a loop until the first verdict

A polling loop goes through rounds that are numbered from zero. Each round does something, which is
recorded, and may come to a verdict; the loop ends with the first one. How long a run is looked at
is given by a number of rounds, so that a loop without a verdict is covered as well.

What such a loop returns is the first verdict (`returns_iff`). What it does last in the round of
the verdict is the last thing it does (`nil_of_log`).
-/
import Mathlib.Data.List.Basic
import Mathlib.Tactic.Common

namespace FissionPlane.Lib.Polling

variable {ε ρ : Type*} (done : ℕ → List ε) (verdict : ℕ → Option ρ)

/-- The record and the verdict after at most `fuel` rounds from round `k` on. -/
def run : ℕ → ℕ → List ε × Option ρ
  | 0, _ => ([], none)
  | fuel + 1, k =>
      match verdict k with
      | some result => (done k, some result)
      | none => (done k ++ (run fuel (k + 1)).1, (run fuel (k + 1)).2)

/-- `n` is the round that comes to the first verdict. -/
def First (n : ℕ) (result : ρ) : Prop := (∀ k < n, verdict k = none) ∧ verdict n = some result

variable {done verdict} {k n fuel : ℕ} {result : ρ}

theorem run_of_some (h : verdict k = some result) :
    run done verdict (fuel + 1) k = (done k, some result) := by
  rw [run, h]

theorem run_of_none (h : verdict k = none) :
    run done verdict (fuel + 1) k =
      (done k ++ (run done verdict fuel (k + 1)).1, (run done verdict fuel (k + 1)).2) := by
  rw [run, h]

/-- The rounds before the first verdict are gone through one by one. -/
theorem run_add (hnone : ∀ j < n, verdict (k + j) = none) :
    (run done verdict (n + fuel) k).2 = (run done verdict fuel (k + n)).2 := by
  induction n generalizing k with
  | zero => rw [Nat.zero_add, Nat.add_zero]
  | succ n ih =>
      have hfuel : n + 1 + fuel = n + fuel + 1 := by omega
      have hround : k + (n + 1) = k + 1 + n := by omega
      have hrest : ∀ j < n, verdict (k + 1 + j) = none := by
        intro j hj
        have hstep : k + 1 + j = k + (j + 1) := by omega
        rw [hstep]
        exact hnone (j + 1) (by omega)
      have hfirst : verdict k = none := hnone 0 (by omega)
      rw [hfuel, run_of_none hfirst, hround]
      exact ih hrest

/-- A verdict that is returned is the first one from the starting round on. -/
theorem first_of_run : ∀ {fuel k : ℕ}, (run done verdict fuel k).2 = some result →
    ∃ n, (∀ j < n, verdict (k + j) = none) ∧ verdict (k + n) = some result
  | 0, _, h => by cases h
  | fuel + 1, k, h => by
      cases hverdict : verdict k with
      | some found =>
          rw [run_of_some hverdict] at h
          obtain rfl := Option.some.inj h
          exact ⟨0, fun j hj => absurd hj (Nat.not_lt_zero j), hverdict⟩
      | none =>
          rw [run_of_none hverdict] at h
          obtain ⟨n, hbefore, hn⟩ := first_of_run h
          refine ⟨n + 1, fun j hj => ?_, ?_⟩
          · cases j with
            | zero => exact hverdict
            | succ j =>
                have hstep : k + (j + 1) = k + 1 + j := by omega
                rw [hstep]
                exact hbefore j (by omega)
          · have hstep : k + (n + 1) = k + 1 + n := by omega
            rw [hstep]
            exact hn

/-- The loop returns the first verdict, and nothing if there is none. -/
theorem returns_iff :
    (∃ fuel, (run done verdict fuel 0).2 = some result) ↔ ∃ n, First verdict n result := by
  constructor
  · rintro ⟨fuel, h⟩
    obtain ⟨n, hbefore, hn⟩ := first_of_run h
    rw [Nat.zero_add] at hn
    refine ⟨n, fun k hk => ?_, hn⟩
    have hnone := hbefore k hk
    rwa [Nat.zero_add] at hnone
  · rintro ⟨n, hbefore, hn⟩
    refine ⟨n + 1, ?_⟩
    have hnone : ∀ j < n, verdict (0 + j) = none := by
      intro j hj
      rw [Nat.zero_add]
      exact hbefore j hj
    rw [run_add hnone, Nat.zero_add, run_of_some hn]

/-- If some event is the last thing a round does, and only a round with a verdict does it, then it
is the last thing a run does. -/
theorem nil_of_log {P : ε → Prop}
    (hlast : ∀ k pre e post, done k = pre ++ e :: post → P e → post = [] ∧ verdict k ≠ none) :
    ∀ {fuel k : ℕ} {pre : List ε} {e : ε} {post : List ε},
      (run done verdict fuel k).1 = pre ++ e :: post → P e → post = []
  | 0, _, pre, e, post, h, _ => by
      have hnil : pre ++ e :: post = [] := h.symm
      exact absurd (List.append_eq_nil_iff.mp hnil).2 (List.cons_ne_nil e post)
  | fuel + 1, k, pre, e, post, h, hP => by
      cases hverdict : verdict k with
      | some found =>
          rw [run_of_some hverdict] at h
          exact (hlast k pre e post h hP).1
      | none =>
          rw [run_of_none hverdict] at h
          rcases List.append_eq_append_iff.mp h with ⟨as, rfl, hrest⟩ | ⟨bs, hround, hrest⟩
          · exact nil_of_log hlast hrest hP
          · -- the event is not one of this round, which came to no verdict
            cases bs with
            | nil =>
                have hlater : (run done verdict fuel (k + 1)).1 = [] ++ e :: post := hrest.symm
                exact nil_of_log hlast hlater hP
            | cons b bs =>
                rw [List.cons_append] at hrest
                obtain ⟨rfl, -⟩ := List.cons.inj hrest
                exact absurd hverdict (hlast k pre e bs hround hP).2

end FissionPlane.Lib.Polling
