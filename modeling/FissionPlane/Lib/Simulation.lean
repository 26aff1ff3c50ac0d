/-
# FissionPlane.Lib.Simulation -- one partial step function simulates another

A step of the simulated system is matched by a run, possibly an empty one, of the simulating one.
What a match needs to know of the future (what is still going to come in on a connection, say) is a
predicate `Good` on the states the run is still going to visit: it is given of the last state, and
holds of every earlier one because a step back keeps it.
-/
import FissionPlane.Lib.Transition

namespace FissionPlane.Lib.Transition

variable {σ τ α β : Type*} {step : σ → α → Option σ} {step' : τ → β → Option τ}

theorem run_append {s t u : σ} {as bs : List α} (h : run step s as = some t)
    (h' : run step t bs = some u) : run step s (as ++ bs) = some u := by
  induction as generalizing s with
  | nil =>
      obtain rfl := Option.some.inj h
      exact h'
  | cons a as ih =>
      obtain ⟨s', hs', ht⟩ := run_cons_eq_some.mp h
      exact run_cons_eq_some.mpr ⟨s', hs', ih ht⟩

theorem run_singleton {s t : σ} {a : α} (h : step s a = some t) : run step s [a] = some t :=
  run_cons_eq_some.mpr ⟨t, h, rfl⟩

/-- A predicate that a step back keeps, a run back keeps. -/
theorem run_back {Good : σ → Prop}
    (hback : ∀ {s a s'}, step s a = some s' → Good s' → Good s) :
    ∀ {as : List α} {s t : σ}, run step s as = some t → Good t → Good s
  | [], _, _, h, hgood => by
      obtain rfl := Option.some.inj h
      exact hgood
  | _ :: _, _, _, h, hgood => by
      obtain ⟨s', hs', ht⟩ := run_cons_eq_some.mp h
      exact hback hs' (run_back hback ht hgood)

/-- Matching a single step, towards a state from which the future is known, matches runs. -/
theorem run_simulated {Good : σ → Prop} {R : σ → τ → Prop}
    (hback : ∀ {s a s'}, step s a = some s' → Good s' → Good s)
    (hsim : ∀ {s a s' t}, R s t → step s a = some s' → Good s' →
      ∃ bs t', run step' t bs = some t' ∧ R s' t') :
    ∀ {as : List α} {s s' : σ} {t : τ}, R s t → run step s as = some s' → Good s' →
      ∃ bs t', run step' t bs = some t' ∧ R s' t'
  | [], _, _, t, hR, h, _ => by
      obtain rfl := Option.some.inj h
      exact ⟨[], t, rfl, hR⟩
  | _ :: _, _, _, _, hR, h, hgood => by
      obtain ⟨s₁, hs₁, hrun⟩ := run_cons_eq_some.mp h
      obtain ⟨bs, t₁, hbs, hR₁⟩ := hsim hR hs₁ (run_back hback hrun hgood)
      obtain ⟨cs, t', hcs, hR'⟩ := run_simulated hback hsim hR₁ hrun hgood
      exact ⟨bs ++ cs, t', run_append hbs hcs, hR'⟩

/-- Where a match needs to know nothing of the future. -/
theorem run_simulated_of_step {R : σ → τ → Prop}
    (hsim : ∀ {s a s' t}, R s t → step s a = some s' →
      ∃ bs t', run step' t bs = some t' ∧ R s' t')
    {as : List α} {s s' : σ} {t : τ} (hR : R s t) (h : run step s as = some s') :
    ∃ bs t', run step' t bs = some t' ∧ R s' t' :=
  @run_simulated _ _ _ _ _ _ (fun _ => True) R (fun _ _ => trivial) (fun hR h _ => hsim hR h)
    _ _ _ _ hR h trivial

end FissionPlane.Lib.Transition
