/-
# FissionPlane.Lib.AbortSignal -- abort signals of the DOM standard

A signal is aborted at most once, and keeps the reason. Its abort dispatches to the listeners that
are on it then; one registered with `once` is taken off by that. A listener is a function, and is
known by its identity `κ`: registering it twice has no effect, and removing it leaves the others.
-/
import Mathlib.Data.List.Basic
import Mathlib.Tactic.Common

namespace FissionPlane.Lib

/-- Why a signal is aborted, and its listeners: each with whether it is for one event only. -/
structure AbortSignal (ν κ : Type*) where
  reason : Option ν
  listeners : List (κ × Bool)

namespace AbortSignal

variable {ν κ μ : Type*}

def aborted (signal : AbortSignal ν κ) : Bool := signal.reason.isSome

theorem not_aborted_iff {signal : AbortSignal ν κ} :
    ¬ signal.aborted = true ↔ signal.reason = none := by
  rw [aborted, Bool.not_eq_true, Option.isSome_eq_false_iff, Option.isNone_iff_eq_none]

/-- The functions that listen. -/
def listening (signal : AbortSignal ν κ) : List κ := signal.listeners.map Prod.fst

/-- The same signal, to an observer who knows more functions. -/
def map (f : κ → μ) (signal : AbortSignal ν κ) : AbortSignal ν μ where
  reason := signal.reason
  listeners := signal.listeners.map fun listener => (f listener.1, listener.2)

theorem listening_map (f : κ → μ) (signal : AbortSignal ν κ) :
    (signal.map f).listening = signal.listening.map f := by
  rw [listening, listening, map, List.map_map, List.map_map]
  rfl

/-- The signal is aborted; second, who is told. -/
def abort (signal : AbortSignal ν κ) (reason : ν) : AbortSignal ν κ × List κ :=
  if signal.aborted then (signal, [])
  else
    ({ reason := some reason, listeners := signal.listeners.filter fun entry => !entry.2 },
      signal.listening)

/-- A signal that is not aborted tells everyone, and keeps the reason. -/
theorem abort_of_live {signal : AbortSignal ν κ} (h : signal.reason = none) (reason : ν) :
    (signal.abort reason).1.reason = some reason ∧
      (signal.abort reason).2 = signal.listening := by
  rw [abort, if_neg (not_aborted_iff.mpr h)]
  exact ⟨rfl, rfl⟩

/-- An abort adds no listener. -/
theorem listening_abort_subset (signal : AbortSignal ν κ) (reason : ν) :
    (signal.abort reason).1.listening ⊆ signal.listening := by
  unfold abort
  split
  · exact List.Subset.refl _
  · exact List.map_subset _ (List.filter_subset_self _)

section

variable [DecidableEq κ]

def addEventListener (signal : AbortSignal ν κ) (listener : κ) (once : Bool) : AbortSignal ν κ :=
  if listener ∈ signal.listening then signal
  else { signal with listeners := signal.listeners ++ [(listener, once)] }

def removeEventListener (signal : AbortSignal ν κ) (listener : κ) : AbortSignal ν κ :=
  { signal with listeners := signal.listeners.filter fun entry => entry.1 != listener }

theorem mem_listening_addEventListener (signal : AbortSignal ν κ) (listener : κ) (once : Bool) :
    listener ∈ (signal.addEventListener listener once).listening := by
  unfold addEventListener
  split
  · assumption
  · rw [listening, List.map_append]
    exact List.mem_append_right _ List.mem_cons_self

theorem listening_removeEventListener (signal : AbortSignal ν κ) (listener : κ) :
    (signal.removeEventListener listener).listening =
      signal.listening.filter fun k => k != listener := by
  rw [listening, listening, removeEventListener, List.filter_map]
  rfl

/-- A listener that was removed is off, and the others are where they were. -/
theorem mem_listening_removeEventListener {signal : AbortSignal ν κ} {listener k : κ} :
    k ∈ (signal.removeEventListener listener).listening ↔ k ∈ signal.listening ∧ k ≠ listener := by
  rw [listening_removeEventListener, List.mem_filter, bne_iff_ne]

end

end AbortSignal

end FissionPlane.Lib
