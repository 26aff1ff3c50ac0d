/-
# FissionPlane.Lib.Generator -- programs that ask and yield

A generator is a state machine that in each state sends a query and waits for its answer, yields an
item, or finishes with a result. A run of one against a list of answers is the interleaving of its
queries and its items: what a consumer that takes every item sees, and when.

A generator is deterministic, so the answers determine the run (`Runs.unique`); a state that holds
a list of items yields them one by one (`Runs.items`).
-/
import Mathlib.Data.List.Basic
import Mathlib.Tactic.Common

namespace FissionPlane.Lib.Generator

variable {ρ α β γ σ : Type*}

/-- What a generator does next: `ρ` are queries, `α` answers, `β` items and `γ` results. -/
inductive Act (ρ α β γ σ : Type*) where
  | request (query : ρ) (resume : α → σ)
  | yield (item : β) (rest : σ)
  | finish (result : γ)

/-- What is seen of a generator from outside. -/
inductive Event (ρ β : Type*) where
  | requested (query : ρ)
  | yielded (item : β)
  deriving DecidableEq

/-- From `s` on the generator uses up the answers, one for each query, and finishes. -/
inductive Runs (step : σ → Act ρ α β γ σ) : σ → List α → List (Event ρ β) → γ → Prop
  | finish {s : σ} {result : γ} (h : step s = .finish result) : Runs step s [] [] result
  | yield {s rest : σ} {item : β} {answers : List α} {events : List (Event ρ β)} {result : γ}
      (h : step s = .yield item rest) (hrest : Runs step rest answers events result) :
      Runs step s answers (.yielded item :: events) result
  | request {s : σ} {query : ρ} {resume : α → σ} {answer : α} {answers : List α}
      {events : List (Event ρ β)} {result : γ} (h : step s = .request query resume)
      (hrest : Runs step (resume answer) answers events result) :
      Runs step s (answer :: answers) (.requested query :: events) result

variable {step : σ → Act ρ α β γ σ} {s s' : σ} {answers : List α}
  {events events' : List (Event ρ β)} {result result' : γ}

namespace Runs

/-- The answers determine what is seen. -/
theorem unique (h : Runs step s answers events result) (h' : Runs step s answers events' result') :
    events' = events ∧ result' = result := by
  induction h generalizing events' with
  | finish h =>
      cases h' with
      | finish h₁ =>
          rw [h] at h₁
          exact ⟨rfl, (Act.finish.inj h₁).symm⟩
      | yield h₁ =>
          rw [h] at h₁
          cases h₁
  | yield h _ ih =>
      cases h' with
      | finish h₁ =>
          rw [h] at h₁
          cases h₁
      | yield h₁ hrest =>
          rw [h] at h₁
          obtain ⟨rfl, rfl⟩ := Act.yield.inj h₁
          obtain ⟨rfl, hresult⟩ := ih hrest
          exact ⟨rfl, hresult⟩
      | request h₁ =>
          rw [h] at h₁
          cases h₁
  | request h _ ih =>
      cases h' with
      | yield h₁ =>
          rw [h] at h₁
          cases h₁
      | request h₁ hrest =>
          rw [h] at h₁
          obtain ⟨rfl, rfl⟩ := Act.request.inj h₁
          obtain ⟨rfl, hresult⟩ := ih hrest
          exact ⟨rfl, hresult⟩

/-- Two states that do the same next do the same from then on. -/
theorem of_step_eq (hstep : step s' = step s) (h : Runs step s answers events result) :
    Runs step s' answers events result := by
  cases h with
  | finish h => exact .finish (hstep.trans h)
  | yield h hrest => exact .yield (hstep.trans h) hrest
  | request h hrest => exact .request (hstep.trans h) hrest

/-- A state that holds items yields them in order. -/
theorem items (hold : List β → σ) (hstep : ∀ x xs, step (hold (x :: xs)) = .yield x (hold xs))
    (h : Runs step (hold []) answers events result) :
    ∀ xs, Runs step (hold xs) answers (xs.map .yielded ++ events) result
  | [] => h
  | x :: xs => .yield (hstep x xs) (items hold hstep h xs)

end Runs

/-- Against these answers the generator shows this, and nothing else. -/
def Determines (step : σ → Act ρ α β γ σ) (s : σ) (answers : List α) (events : List (Event ρ β))
    (result : γ) : Prop :=
  Runs step s answers events result ∧
    ∀ events' result', Runs step s answers events' result' → events' = events ∧ result' = result

theorem Runs.determines (h : Runs step s answers events result) :
    Determines step s answers events result := ⟨h, fun _ _ => h.unique⟩

/-! ## The two sides of a run -/

def Event.query : Event ρ β → Option ρ
  | .requested query => some query
  | .yielded _ => none

def Event.item : Event ρ β → Option β
  | .requested _ => none
  | .yielded item => some item

def requested (events : List (Event ρ β)) : List ρ := events.filterMap Event.query

def yielded (events : List (Event ρ β)) : List β := events.filterMap Event.item

variable {query : ρ}

@[simp]
theorem requested_request : requested (.requested query :: events) = query :: requested events :=
  rfl

@[simp]
theorem yielded_request : yielded (.requested query :: events) = yielded events := rfl

@[simp]
theorem requested_items (xs : List β) (events : List (Event ρ β)) :
    requested ((xs.map .yielded : List (Event ρ β)) ++ events) = requested events := by
  induction xs with
  | nil => rfl
  | cons x xs ih => exact ih

@[simp]
theorem yielded_items (xs : List β) (events : List (Event ρ β)) :
    yielded ((xs.map .yielded : List (Event ρ β)) ++ events) = xs ++ yielded events := by
  induction xs with
  | nil => rfl
  | cons x xs ih => exact congrArg (x :: ·) ih

end FissionPlane.Lib.Generator
