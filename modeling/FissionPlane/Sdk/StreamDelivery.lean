/-
# FissionPlane.Sdk.StreamDelivery -- what the event stream delivers

An event that has arrived is shown to the listeners first and queued for the iterator after that.
So the stream hands over exactly what it received, once and in order, as long as no listener
throws; when one does, the exception skips the queueing and ends the stream, and that one event is
gone.
-/
import FissionPlane.Sdk.StreamingEvents

namespace FissionPlane.Sdk.StreamingEvents

open FissionPlane.Lib FissionPlane.Lib.Transition

variable {τ ε δ : Type*}

/-! ## Nothing is lost unless a listener throws -/

/-- A listener of the message's event throws. -/
def Action.Throws : Action δ ε → Prop
  | .message _ runs => StreamingEvents.Throws runs
  | _ => False

/-- What a state owes its consumer: every event received before the end has been delivered or is
still queued, in the order of arrival; the calls that got one came in that order; and as many
further calls as there are queued events deliver the rest. -/
structure Delivers (parse : δ → Except (Thrown ε) (Option τ)) (s : State τ ε) : Prop where
  accounted : s.received = s.deliveries.map Prod.snd ++ s.queue
  inOrder : (s.deliveries.map fun d => d.1.id).Pairwise (· < ·)
  drained : ∀ iterators : List Nat, iterators.length = s.queue.length →
    ∃ t, run (step parse) s (iterators.map fun i => .call (.next i)) = some t ∧
      t.deliveries.map Prod.snd = s.received

namespace State

variable {s s' t : State τ ε} {parse : δ → Except (Thrown ε) (Option τ)} {a : Action δ ε}

/-- A step puts nothing, or puts an event, or loses one to a listener that throws; in the last case
the stream has ended. -/
theorem step_keeps (h : s.Ordered) (hstep : step parse s a = some s') :
    (¬ a.Throws ∧ s.Keeps s') ∨
    (∃ event, ¬ a.Throws ∧ s.ended = false ∧ s'.Ordered ∧ s'.received = s.received ++ [event] ∧
      s'.mailbox.contents = s.mailbox.contents ++ [event]) ∨
    (∃ event, a.Throws ∧ s.ended = false ∧ s'.Ordered ∧ s'.ended = true ∧
      s'.received = s.received ++ [event] ∧ s'.mailbox.contents = s.mailbox.contents) := by
  cases a with
  | open_ protocol =>
      obtain rfl := Option.some.inj hstep
      exact .inl ⟨not_false, keeps_onOpen h protocol⟩
  | socketClose =>
      obtain rfl := Option.some.inj hstep
      exact .inl ⟨not_false, keeps_finish h⟩
  | socketError error =>
      obtain rfl := Option.some.inj hstep
      exact .inl ⟨not_false, keeps_fail h _⟩
  | handshakeTimer =>
      obtain ⟨ms, -, rfl⟩ := Option.map_eq_some_iff.mp hstep
      exact .inl ⟨not_false, keeps_fail h _⟩
  | call op =>
      obtain rfl := Option.some.inj hstep
      exact .inl ⟨not_false, keeps_perform h op⟩
  | message data runs =>
      have hrun (event : τ) := keeps_foldl_perform (calledBack runs) (h.arrive event)
      obtain ⟨rfl, error, -, rfl⟩ | ⟨rfl, rfl⟩ | ⟨event, error, -, hend, hthrows, rfl⟩ |
        ⟨event, -, hend, hthrows, rfl⟩ := onMessage_cases hstep
      · exact .inl ⟨by simp [Action.Throws, Throws], keeps_fail h error⟩
      · exact .inl ⟨by simp [Action.Throws, Throws], Keeps.refl h⟩
      · have hfail := (hrun event).trans (keeps_fail (hrun event).ordered error)
        exact .inr (.inr ⟨event, hthrows, hend, hfail.ordered, ended_fail, hfail.received,
          hfail.contents⟩)
      · refine .inr (.inl ⟨event, hthrows, hend, (hrun event).ordered.deliver event, ?_, ?_⟩)
        · rw [received_deliver, (hrun event).received]
          rfl
        · rw [contents_deliver (hrun event).ordered, (hrun event).contents]
          rfl

theorem ordered_step (h : s.Ordered) (hstep : step parse s a = some s') : s'.Ordered := by
  obtain ⟨-, hk⟩ | ⟨_, -, -, ho, -⟩ | ⟨_, -, -, ho, -⟩ := step_keeps h hstep
  · exact hk.ordered
  · exact ho
  · exact ho

/-- Every event received is accounted for. -/
def Kept (s : State τ ε) : Prop := s.received = s.mailbox.contents

/-- The stream has ended, and one event is missing. -/
structure Lost (s : State τ ε) : Prop where
  ordered : s.Ordered
  ended : s.ended = true
  missing : s.received.length = s.mailbox.contents.length + 1

theorem Lost.not_kept (h : s.Lost) : ¬ s.Kept := by
  intro hk
  have hlen := h.missing
  rw [hk] at hlen
  omega

/-- Nothing is received after the end, so what is lost stays lost and nothing else is. -/
theorem Lost.step (h : s.Lost) (hstep : step parse s a = some s') : s'.Lost := by
  obtain ⟨-, hk⟩ | ⟨_, -, hend, -⟩ | ⟨_, -, hend, -⟩ := step_keeps h.ordered hstep
  · exact ⟨hk.ordered, hk.stays h.ended, by rw [hk.received, hk.contents]; exact h.missing⟩
  · simp [h.ended] at hend
  · simp [h.ended] at hend

/-- A step keeps every event unless a listener throws, and then it loses one. -/
theorem Kept.step (h : s.Ordered) (hkept : s.Kept) (hstep : step parse s a = some s') :
    (¬ a.Throws ∧ s'.Kept) ∨ (a.Throws ∧ s'.Lost) := by
  unfold Kept at hkept
  obtain ⟨hno, hk⟩ | ⟨event, hno, -, -, hrec, hcontents⟩ |
    ⟨event, hthrows, -, ho, hend, hrec, hcontents⟩ := step_keeps h hstep
  · exact .inl ⟨hno, by rw [Kept, hk.received, hk.contents, hkept]⟩
  · exact .inl ⟨hno, by rw [Kept, hrec, hcontents, hkept]⟩
  · exact .inr ⟨hthrows, ho, hend, by rw [hrec, hcontents, hkept]; simp⟩

/-- Over a run: every event is accounted for at the end exactly when no listener threw. -/
theorem kept_run_iff {as : List (Action δ ε)} :
    ∀ {s : State τ ε}, s.Ordered → s.Kept → run (step parse) s as = some t →
      (t.Kept ↔ ∀ a ∈ as, ¬ a.Throws) := by
  induction as with
  | nil =>
      intro s h hkept hrun
      obtain rfl := Option.some.inj hrun
      simpa using hkept
  | cons a as ih =>
      intro s h hkept hrun
      obtain ⟨s', hstep, hrest⟩ := run_cons_eq_some.mp hrun
      have ho := ordered_step h hstep
      obtain ⟨hno, hkept'⟩ | ⟨hthrows, hlost⟩ := hkept.step h hstep
      · rw [ih ho hkept' hrest]
        simp [hno]
      · constructor
        · intro hk
          exact absurd hk (run_inv Lost.step hlost hrest).not_kept
        · intro hall
          exact absurd hthrows (hall a List.mem_cons_self)

/-- As many calls as there are queued events deliver them all. -/
theorem drain (parse : δ → Except (Thrown ε) (Option τ)) :
    ∀ {iterators : List Nat} {s : State τ ε}, iterators.length = s.queue.length →
      ∃ t, run (step parse) s (iterators.map fun i => .call (.next i)) = some t ∧
        t.deliveries.map Prod.snd = s.deliveries.map Prod.snd ++ s.queue
  | [], s, hlen => by
      have hq : s.queue = [] := List.length_eq_zero_iff.mp hlen.symm
      exact ⟨s, rfl, by rw [hq, List.append_nil]⟩
  | i :: iterators, s, hlen => by
      obtain ⟨event, rest, hq⟩ := List.exists_cons_of_length_eq_add_one hlen.symm
      obtain ⟨event', rest', hq', hn⟩ | ⟨hq', -⟩ | ⟨hq', -⟩ | ⟨hq', -⟩ := s.next_cases i
      · obtain ⟨rfl, rfl⟩ := List.cons.inj (hq.symm.trans hq')
        obtain ⟨t, hrun, ht⟩ := drain parse (s := s.next i)
          (by simpa [hn, hq] using hlen)
        refine ⟨t, run_cons_eq_some.mpr ⟨s.next i, rfl, hrun⟩, ?_⟩
        rw [ht, hq]
        simp [hn, deliveries, List.filterMap_cons]
      · simp [hq] at hq'
      · simp [hq] at hq'
      · simp [hq] at hq'

theorem contents_mailbox : s.mailbox.contents = s.deliveries.map Prod.snd ++ s.queue := by
  simp [mailbox, Mailbox.contents, Function.comp_def]

theorem delivers_iff_kept (h : s.Ordered) : Delivers parse s ↔ s.Kept := by
  unfold Kept
  rw [contents_mailbox]
  constructor
  · exact Delivers.accounted
  · intro hacc
    refine ⟨hacc, ?_, ?_⟩
    · have hord := h.fifo.delivered_ordered
      simpa [mailbox, Function.comp_def] using hord
    · intro iterators hlen
      rw [hacc]
      exact drain parse hlen

end State

/-- Whatever the interleaving, no event is queued while a call waits; and the stream delivers what
it receives exactly when no listener throws on an event. -/
theorem delivers_iff_no_listener_throws {parse : δ → Except (Thrown ε) (Option τ)}
    {options : StreamOptions} {as : List (Action δ ε)} {s : State τ ε}
    (hrun : run (step parse) (State.init options) as = some s) :
    (s.queue = [] ∨ s.pending = []) ∧ (Delivers parse s ↔ ∀ a ∈ as, ¬ a.Throws) := by
  have hinit : (State.init options : State τ ε).Ordered := State.ordered_init options
  have ho : s.Ordered := run_inv State.ordered_step hinit hrun
  refine ⟨?_, ?_⟩
  · have hd := ho.fifo.disjoint
    simpa [State.mailbox] using hd
  · rw [State.delivers_iff_kept ho]
    exact State.kept_run_iff hinit rfl hrun

/-- An `overflow` frame of a watch, shown to one listener. -/
def overflow (throws : Option (Thrown Empty)) : Action MessageData Empty :=
  .message (.text "\x7b\"type\":\"overflow\",\"sequence\":1\x7d".toList) [⟨[], throws⟩]

/-- Two events of a watch with a quiet listener: the first reaches the call that waits for it. -/
theorem delivers_two_overflows :
    ∃ s, run (step FileWatch.parse) (State.init ⟨none, false⟩)
        [.open_ "fissionplane.v1", .call (.onEvent 0), .call (.next 0), overflow none,
          overflow none] = some s ∧ Delivers FileWatch.parse s := by
  obtain ⟨s, hrun⟩ : ∃ s, run (step FileWatch.parse) (State.init ⟨none, false⟩)
      [.open_ "fissionplane.v1", .call (.onEvent 0), .call (.next 0), overflow none,
        overflow none] = some s := Option.isSome_iff_exists.mp (by decide +kernel)
  refine ⟨s, hrun, (delivers_iff_no_listener_throws hrun).2.mpr ?_⟩
  simp [Action.Throws, Throws, overflow]

/-- The same frame while the listener throws: it has arrived, and no call will ever get it. -/
theorem not_delivers_thrown_overflow :
    ∃ s, run (step FileWatch.parse) (State.init ⟨none, false⟩)
        [.open_ "fissionplane.v1", .call (.onEvent 0), overflow (some none)] = some s ∧
      s.received = [.overflow 1] ∧ s.deliveries = [] ∧ s.queue = [] ∧
      ¬ Delivers FileWatch.parse s := by
  obtain ⟨s, hrun, hrec, hdel, hq⟩ : ∃ s ∈ run (step FileWatch.parse) (State.init ⟨none, false⟩)
      [.open_ "fissionplane.v1", .call (.onEvent 0), overflow (some none)],
        s.received = [.overflow 1] ∧ s.deliveries = [] ∧ s.queue = [] := by
    decide +kernel
  refine ⟨s, hrun, hrec, hdel, hq, fun h => ?_⟩
  have hacc := h.accounted
  simp [hrec, hdel, hq] at hacc

end FissionPlane.Sdk.StreamingEvents
