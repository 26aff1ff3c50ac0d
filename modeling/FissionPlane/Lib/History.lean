/-
# FissionPlane.Lib.History -- conditions on an event and what came before it

A history is a list of events, oldest first. `Each P` asks of every event that `P` holds of it and
of the events before it, so that a history satisfies it exactly when it was built up event by event,
each of which satisfied `P` when it was added.
-/
import Mathlib.Data.List.Basic
import Mathlib.Tactic.Common

namespace FissionPlane.Lib.History

variable {ε : Type*} {P : List ε → ε → Prop} {log : List ε} {e : ε}

/-- Every event of the history satisfies `P` together with the events before it. -/
def Each (P : List ε → ε → Prop) (log : List ε) : Prop :=
  ∀ earlier e later, log = earlier ++ e :: later → P earlier e

theorem each_nil : Each P ([] : List ε) := by
  intro earlier e later h
  simp at h

theorem each_concat : Each P (log ++ [e]) ↔ Each P log ∧ P log e := by
  constructor
  · intro h
    refine ⟨fun earlier e' later hlog => ?_, h log e [] rfl⟩
    exact h earlier e' (later ++ [e]) (by rw [hlog, List.append_assoc, List.cons_append])
  · rintro ⟨hlog, he⟩ earlier e' later heq
    -- the event is the added one, or lies in the history before it
    rcases List.eq_nil_or_concat later with rfl | ⟨rest, last, rfl⟩
    · obtain ⟨rfl, hlast⟩ := List.append_inj' heq rfl
      obtain rfl := (List.cons.inj hlast).1
      exact he
    · have heq : log ++ [e] = (earlier ++ e' :: rest) ++ [last] := by
        rw [heq, List.append_assoc, List.cons_append, List.concat_eq_append]
      obtain ⟨rfl, -⟩ := List.append_inj' heq rfl
      exact hlog earlier e' rest rfl

/-- An event on which the condition is void may be added. -/
theorem Each.concat (h : Each P log) (he : P log e) : Each P (log ++ [e]) :=
  each_concat.mpr ⟨h, he⟩

end FissionPlane.Lib.History
