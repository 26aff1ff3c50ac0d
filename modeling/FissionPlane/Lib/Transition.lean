/-
# FissionPlane.Lib.Transition -- runs of a partial step function

A system is a partial step function `step : σ → α → Option σ`; `none` means that the action is not
enabled. A schedule is a list of actions. Two things are packaged here once, so that no model has
to repeat the induction over schedules: the run of a schedule, and the predicate that *every step
a schedule takes* satisfies a condition on (state before, action, state after).

The second predicate serves on both sides of a theorem. A guard on a schedule ("no reply overtakes
another") and a safety property ("the stored epoch never decreases") are both `EveryStep`
statements, and `EveryStep.imp_of_inv` turns one into the other from a single step lemma.
-/
import Mathlib.Data.Option.Basic
import Mathlib.Tactic.Common

namespace FissionPlane.Lib.Transition

variable {σ α : Type*}

/-! ## Runs -/

/-- Run a schedule; the whole run is undefined as soon as one action is not enabled. -/
def run (step : σ → α → Option σ) : σ → List α → Option σ
  | s, [] => some s
  | s, a :: as => (step s a).bind fun s' => run step s' as

variable {step : σ → α → Option σ}

@[simp]
theorem run_nil (s : σ) : run step s [] = some s := rfl

theorem run_cons (s : σ) (a : α) (as : List α) :
    run step s (a :: as) = (step s a).bind fun s' => run step s' as := rfl

theorem run_cons_eq_some {s t : σ} {a : α} {as : List α} :
    run step s (a :: as) = some t ↔ ∃ s', step s a = some s' ∧ run step s' as = some t := by
  rw [run_cons, Option.bind_eq_some_iff]

/-- An invariant of the step function is an invariant of its runs. -/
theorem run_inv {Inv : σ → Prop}
    (hstep : ∀ {s a s'}, Inv s → step s a = some s' → Inv s') :
    ∀ {as : List α} {s t : σ}, Inv s → run step s as = some t → Inv t
  | [], _, _, hs, h => by
      obtain rfl := Option.some.inj h
      exact hs
  | _ :: _, _, _, hs, h => by
      obtain ⟨s', hs', ht⟩ := run_cons_eq_some.mp h
      exact run_inv hstep (hstep hs hs') ht

/-! ## Conditions on every step of a schedule -/

/-- Every step the schedule takes from `s` satisfies `P before action after`. -/
def EveryStep (step : σ → α → Option σ) (P : σ → α → σ → Prop) : σ → List α → Prop
  | _, [] => True
  | s, a :: as => ∀ s', step s a = some s' → P s a s' ∧ EveryStep step P s' as

variable {P Q : σ → α → σ → Prop}

@[simp]
theorem everyStep_nil (s : σ) : EveryStep step P s [] := trivial

theorem everyStep_cons {s s' : σ} {a : α} {as : List α} (h : step s a = some s') :
    EveryStep step P s (a :: as) ↔ P s a s' ∧ EveryStep step P s' as := by
  constructor
  · intro hall
    exact hall s' h
  · intro hboth t ht
    obtain rfl := Option.some.inj (h.symm.trans ht)
    exact hboth

/-- What every step satisfies. -/
theorem EveryStep.of_step (hstep : ∀ {s a s'}, step s a = some s' → P s a s') :
    ∀ {as : List α} {s : σ}, EveryStep step P s as
  | [], _ => trivial
  | _ :: _, _ => fun _ h => ⟨hstep h, EveryStep.of_step hstep⟩

/-- A condition on the actions alone. -/
theorem EveryStep.of_forall_mem {Q : α → Prop} :
    ∀ {as : List α} {s : σ}, (∀ a ∈ as, Q a) → EveryStep step (fun _ a _ => Q a) s as
  | [], _, _ => trivial
  | a :: _, _, h => fun _ _ =>
      ⟨h a List.mem_cons_self, EveryStep.of_forall_mem fun b hb => h b (List.mem_cons_of_mem a hb)⟩

/-- A condition that can be decided of a step can be decided of a schedule. -/
instance decidableEveryStep [∀ s a s', Decidable (P s a s')] :
    ∀ (as : List α) (s : σ), Decidable (EveryStep step P s as)
  | [], _ => .isTrue trivial
  | a :: as, s =>
      match h : step s a with
      | none => .isTrue fun s' hs' => absurd (h.symm.trans hs') (by simp)
      | some s' =>
          have := decidableEveryStep as s'
          decidable_of_iff (P s a s' ∧ EveryStep step P s' as) (everyStep_cons h).symm

/-- The one induction over schedules: a step lemma that turns `P` into `Q` and keeps `Inv` turns a
schedule all of whose steps satisfy `P` into one all of whose steps satisfy `Q`. -/
theorem EveryStep.imp_of_inv {Inv : σ → Prop}
    (hstep : ∀ {s a s'}, Inv s → step s a = some s' → P s a s' → Q s a s' ∧ Inv s') :
    ∀ {as : List α} {s : σ}, Inv s → EveryStep step P s as → EveryStep step Q s as
  | [], _, _, _ => trivial
  | _ :: _, _, hs, h => by
      intro s' hs'
      obtain ⟨hP, hrest⟩ := h s' hs'
      obtain ⟨hQ, hInv⟩ := hstep hs hs' hP
      exact ⟨hQ, EveryStep.imp_of_inv hstep hInv hrest⟩

/-- Two conditions that agree on every step from a state of the invariant agree on schedules. -/
theorem everyStep_congr_of_inv {Inv : σ → Prop}
    (hstep : ∀ {s a s'}, Inv s → step s a = some s' → Inv s')
    (hiff : ∀ {s a s'}, Inv s → step s a = some s' → (P s a s' ↔ Q s a s')) {s : σ}
    {as : List α} (hs : Inv s) : EveryStep step P s as ↔ EveryStep step Q s as :=
  ⟨EveryStep.imp_of_inv (fun hi h hP => ⟨(hiff hi h).mp hP, hstep hi h⟩) hs,
    EveryStep.imp_of_inv (fun hi h hQ => ⟨(hiff hi h).mpr hQ, hstep hi h⟩) hs⟩

/-- The state a schedule reaches satisfies an invariant that every step satisfying `P` keeps. -/
theorem EveryStep.run_inv {Inv : σ → Prop}
    (hstep : ∀ {s a s'}, Inv s → step s a = some s' → P s a s' → Inv s') :
    ∀ {as : List α} {s t : σ}, Inv s → EveryStep step P s as → run step s as = some t → Inv t
  | [], _, _, hs, _, h => by
      obtain rfl := Option.some.inj h
      exact hs
  | _ :: _, _, _, hs, hP, h => by
      obtain ⟨s', hs', ht⟩ := run_cons_eq_some.mp h
      obtain ⟨hhead, hrest⟩ := hP s' hs'
      exact EveryStep.run_inv hstep (hstep hs hs' hhead) hrest ht

end FissionPlane.Lib.Transition
