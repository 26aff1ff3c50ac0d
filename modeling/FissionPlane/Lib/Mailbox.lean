/-
# FissionPlane.Lib.Mailbox -- a queue of items facing a queue of takers

Items are put, takers take, and whichever side is early waits: an item with no taker is queued, a
taker with no item waits. Takers are numbered in the order they come. The waiting takers can be
dismissed empty-handed at any time.

`Fifo` is the invariant: never both an item queued and a taker waiting, and the takers served so
far, followed by the ones that wait, are in the order they came. Under it the items handed over,
followed by the ones still queued, are exactly the items put, in the order they were put.
-/
import Mathlib.Data.List.Basic
import Mathlib.Tactic.Common

namespace FissionPlane.Lib

variable {α : Type*}

/-- `calls` numbers the next taker; `delivered` pairs each taker served with its item, oldest
first. -/
structure Mailbox (α : Type*) where
  queue : List α
  waiting : List Nat
  calls : Nat
  delivered : List (Nat × α)

namespace Mailbox

variable {m : Mailbox α} {a : α}

/-- A taker comes. -/
def take (m : Mailbox α) : Mailbox α :=
  match m.queue with
  | a :: rest =>
      { m with queue := rest, calls := m.calls + 1, delivered := m.delivered ++ [(m.calls, a)] }
  | [] => { m with waiting := m.waiting ++ [m.calls], calls := m.calls + 1 }

/-- An item comes. -/
def put (a : α) (m : Mailbox α) : Mailbox α :=
  match m.waiting with
  | k :: rest => { m with waiting := rest, delivered := m.delivered ++ [(k, a)] }
  | [] => { m with queue := m.queue ++ [a] }

/-- Every waiting taker leaves without an item. -/
def dismiss (m : Mailbox α) : Mailbox α := { m with waiting := [] }

/-- Everything put so far: what was handed over, then what is still queued. -/
def contents (m : Mailbox α) : List α := m.delivered.map Prod.snd ++ m.queue

/-- The takers that were served and the ones that still wait. -/
def takers (m : Mailbox α) : List Nat := m.delivered.map Prod.fst ++ m.waiting

structure Fifo (m : Mailbox α) : Prop where
  disjoint : m.queue = [] ∨ m.waiting = []
  ordered : m.takers.Pairwise (· < ·)
  issued : ∀ k ∈ m.takers, k < m.calls

/-! ## What each operation does to the takers and the contents -/

/-- A taker that finds an item is served, and one that finds none waits: either way it is last. -/
theorem takers_take (h : m.Fifo) : m.take.takers = m.takers ++ [m.calls] := by
  unfold take takers
  split
  · next a rest hq =>
      have hw : m.waiting = [] := h.disjoint.resolve_left (by simp [hq])
      simp [hw]
  · simp

theorem takers_put : (m.put a).takers = m.takers := by
  unfold put takers
  split
  · next k rest hw => simp [hw]
  · rfl

@[simp]
theorem calls_take : m.take.calls = m.calls + 1 := by
  unfold take
  split <;> rfl

@[simp]
theorem calls_put : (m.put a).calls = m.calls := by
  unfold put
  split <;> rfl

theorem contents_take : m.take.contents = m.contents := by
  unfold take contents
  split
  · next a rest hq => simp [hq]
  · next hq => simp [hq]

theorem contents_put (h : m.Fifo) : (m.put a).contents = m.contents ++ [a] := by
  unfold put contents
  split
  · next k rest hw =>
      have hq : m.queue = [] := h.disjoint.resolve_right (by simp [hw])
      simp [hq]
  · simp

@[simp]
theorem contents_dismiss : m.dismiss.contents = m.contents := rfl

/-! ## The invariant -/

theorem Fifo.take (h : m.Fifo) : m.take.Fifo where
  disjoint := by
    have hd := h.disjoint
    unfold Mailbox.take
    split
    · next a rest hq =>
        rw [hq] at hd
        exact .inr (hd.resolve_left (by simp))
    · next hq => exact .inl hq
  ordered := by
    -- the new taker's number is above every number given out so far
    rw [takers_take h, List.pairwise_append]
    refine ⟨h.ordered, List.pairwise_singleton _ _, ?_⟩
    intro k hk k' hk'
    obtain rfl := List.mem_singleton.mp hk'
    exact h.issued k hk
  issued := by
    intro k hk
    rw [takers_take h] at hk
    rw [calls_take]
    rcases List.mem_append.mp hk with hk | hk
    · exact Nat.lt_succ_of_lt (h.issued k hk)
    · obtain rfl := List.mem_singleton.mp hk
      exact Nat.lt_succ_self _

theorem Fifo.put (h : m.Fifo) (a : α) : (m.put a).Fifo where
  disjoint := by
    have hd := h.disjoint
    unfold Mailbox.put
    split
    · next k rest hw =>
        rw [hw] at hd
        exact .inl (hd.resolve_right (by simp))
    · next hw => exact .inr hw
  ordered := by
    rw [takers_put]
    exact h.ordered
  issued := by
    rw [takers_put, calls_put]
    exact h.issued

theorem Fifo.dismiss (h : m.Fifo) : m.dismiss.Fifo where
  disjoint := .inr rfl
  ordered := by
    have hsub : m.dismiss.takers.Sublist m.takers := by
      unfold takers
      exact (List.Sublist.refl _).append (List.nil_sublist _)
    exact h.ordered.sublist hsub
  issued := by
    intro k hk
    apply h.issued
    have hk : k ∈ m.delivered.map Prod.fst := by simpa [takers, Mailbox.dismiss] using hk
    exact List.mem_append_left _ hk

/-- The takers that were served came in the order of their items. -/
theorem Fifo.delivered_ordered (h : m.Fifo) : (m.delivered.map Prod.fst).Pairwise (· < ·) :=
  (List.pairwise_append.mp h.ordered).1

end Mailbox

end FissionPlane.Lib
