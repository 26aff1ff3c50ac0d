/-
# FissionPlane.Sdk.StreamFinality -- when an iterator over the event stream is final

A consumer learns that an iterator has ended from a `next()` that resolves done, or because it
called `return()` itself. Two things can still bring an event after that: events that were queued
when `return()` closed the stream, and the event whose listeners end the stream, which is queued
once they are through. A run without either is final.
-/
import FissionPlane.Sdk.StreamingEvents

namespace FissionPlane.Sdk.StreamingEvents

open FissionPlane.Lib FissionPlane.Lib.Transition

variable {τ ε δ : Type*}

/-! ## Finality of the iterators -/

/-- The effect tells its iterator that there is nothing more. -/
def Effect.Ends (iterator : Nat) : Effect τ ε → Prop
  | .done call => call.iterator = iterator
  | .returned i => i = iterator
  | _ => False

/-- Once an iterator has ended, no call of `next()` made on it later gets an event. -/
def Final (log : List (Effect τ ε)) : Prop :=
  ∀ earlier e later iterator, log = earlier ++ e :: later → e.Ends iterator →
    ∀ call event, .next call ∈ later → call.iterator = iterator → .value call event ∉ later

/-- The operation leaves queued events behind: `return()` does, while there are any. -/
def Op.Abandons (s : State τ ε) : Op → Prop
  | .return_ _ => s.queue ≠ []
  | _ => False

/-- The operation tells some iterator that there is nothing more: `return()` always, closing the
stream when a `next()` waits, and `next()` once the stream has ended with nothing queued. -/
def Op.Ends (s : State τ ε) : Op → Prop
  | .next _ => s.ended = true ∧ s.queue = []
  | .return_ _ => True
  | .close => s.pending ≠ []
  | .abort => s.signal = true ∧ s.pending ≠ []
  | _ => False

/-- A listener's operations, one step each. -/
def listenerStep (s : State τ ε) (op : Op) : Option (State τ ε) := some (s.perform op)

/-- No queued event is abandoned; and while an event is shown to listeners that do not throw, so
that it will still be delivered, none of them ends an iterator. -/
def Clean (parse : δ → Except (Thrown ε) (Option τ)) (s : State τ ε) : Action δ ε → Prop
  | .call op => ¬ op.Abandons s
  | .message data runs =>
      ∀ event, parse data = .ok (some event) → s.ended = false →
        EveryStep listenerStep
          (fun s op _ => if Throws runs then ¬ op.Abandons s else ¬ op.Ends s)
          (s.arrive event) (calledBack runs)
  | _ => True

instance (s : State τ ε) : (op : Op) → Decidable (op.Abandons s)
  | .return_ _ => inferInstanceAs (Decidable (s.queue ≠ []))
  | .next _ | .close | .abort | .send _ | .onEvent _ | .unsubscribe _ =>
      inferInstanceAs (Decidable False)

instance (s : State τ ε) : (op : Op) → Decidable (op.Ends s)
  | .next _ => inferInstanceAs (Decidable (s.ended = true ∧ s.queue = []))
  | .return_ _ => inferInstanceAs (Decidable True)
  | .close => inferInstanceAs (Decidable (s.pending ≠ []))
  | .abort => inferInstanceAs (Decidable (s.signal = true ∧ s.pending ≠ []))
  | .send _ | .onEvent _ | .unsubscribe _ => inferInstanceAs (Decidable False)

instance (parse : δ → Except (Thrown ε) (Option τ)) (s : State τ ε) :
    (a : Action δ ε) → Decidable (Clean parse s a)
  | .call op => inferInstanceAs (Decidable (¬ op.Abandons s))
  | .message data runs =>
      match h : parse data with
      | .error _ | .ok none => .isTrue fun _ hparse => absurd (h.symm.trans hparse) (by simp)
      | .ok (some event) =>
          decidable_of_iff
            (s.ended = false → EveryStep listenerStep
              (fun s op _ => if Throws runs then ¬ op.Abandons s else ¬ op.Ends s)
              (s.arrive event) (calledBack runs))
            (by simp [Clean, h])
  | .open_ _ | .socketClose | .socketError _ | .handshakeTimer =>
      inferInstanceAs (Decidable True)

def Effect.isEnd : Effect τ ε → Bool
  | .done _ => true
  | .returned _ => true
  | _ => false

def Effect.isValue : Effect τ ε → Bool
  | .value _ _ => true
  | _ => false

namespace State

variable {s s' t : State τ ε} {event : τ} {error : Thrown ε} {iterator : Nat}

/-- Some iterator has ended. -/
def Over (s : State τ ε) : Prop := ∃ e ∈ s.log, e.isEnd

/-- The invariant of a clean run: an iterator ends only with the stream, when nothing is queued,
and after that no call gets an event. -/
structure Finishing (s : State τ ε) : Prop where
  ordered : s.Ordered
  closed : s.Over → s.ended = true ∧ s.queue = []
  final : s.log.Pairwise fun e e' => e.isEnd → ¬ e'.isValue

theorem over_append {effects : List (Effect τ ε)} (hlog : s'.log = s.log ++ effects) :
    s'.Over ↔ s.Over ∨ ∃ e ∈ effects, e.isEnd := by
  simp [Over, hlog, or_and_right, exists_or]

/-- Effects without an event may follow anything. -/
theorem Finishing.extend (h : s.Finishing) (ho : s'.Ordered) {effects : List (Effect τ ε)}
    (hlog : s'.log = s.log ++ effects) (hvalue : ∀ e ∈ effects, ¬ e.isValue)
    (hover : s'.Over → s'.ended = true ∧ s'.queue = []) : s'.Finishing where
  ordered := ho
  closed := hover
  final := by
    rw [hlog]
    refine List.pairwise_append.mpr ⟨h.final, ?_, fun _ _ e' he' _ => hvalue e' he'⟩
    exact List.pairwise_of_forall_mem_list fun _ _ e' he' _ => hvalue e' he'

/-- Before any iterator has ended, events may be handed out. -/
theorem Finishing.extend_of_not_over (h : s.Finishing) (hover : ¬ s.Over) (ho : s'.Ordered)
    {effects : List (Effect τ ε)} (hlog : s'.log = s.log ++ effects)
    (hends : ∀ e ∈ effects, ¬ e.isEnd) : s'.Finishing ∧ ¬ s'.Over := by
  have hover' : ¬ s'.Over := by
    rw [over_append hlog]
    rintro (hs | ⟨e, he, hend⟩)
    · exact hover hs
    · exact hends e he hend
  refine ⟨⟨ho, fun hs => absurd hs hover', ?_⟩, hover'⟩
  rw [hlog]
  refine List.pairwise_append.mpr ⟨h.final, ?_, ?_⟩
  · exact List.pairwise_of_forall_mem_list fun e he _ _ hend => absurd hend (hends e he)
  · intro e he _ _ hend
    exact absurd ⟨e, he, hend⟩ hover

theorem Finishing.not_over (h : s.Finishing) (hend : s.ended = false) : ¬ s.Over := by
  intro hover
  simp [(h.closed hover).1] at hend

/-! ## The end of the stream -/

theorem finish_of_ended (hend : s.ended = true) : s.finish = s := if_pos hend

theorem fail_of_ended (hend : s.ended = true) : s.fail error = s := if_pos hend

theorem close_of_ended (hend : s.ended = true) : s.close = s := if_pos hend

@[simp]
theorem queue_finish : s.finish.queue = s.queue := by
  unfold finish
  split <;> rfl

@[simp]
theorem queue_close : s.close.queue = s.queue := by
  unfold close
  split
  · rfl
  · exact queue_finish

theorem log_finish (hend : s.ended = false) : s.finish.log = s.log ++ s.pending.map .done := by
  simp [finish, hend]

theorem log_close (hend : s.ended = false) : s.close.log = s.log ++ s.pending.map .done := by
  simp [close, hend, log_finish hend]

theorem log_fail (hend : s.ended = false) :
    (s.fail error).log = s.log ++ s.pending.map (.rejected · error) := by
  simp [fail, hend]

/-- Ending the stream and dismissing the waiting calls: were some waiting, nothing is queued. -/
theorem Finishing.dismiss (h : s.Finishing) (hend : s.ended = false) (ho : s'.Ordered)
    (hlog : s'.log = s.log ++ s.pending.map .done) (hend' : s'.ended = true)
    (hqueue : s'.queue = s.queue) : s'.Finishing := by
  refine h.extend ho hlog (by simp [Effect.isValue]) ?_
  rw [over_append hlog, hqueue]
  rintro (hover | ⟨e, he, -⟩)
  · exact absurd hover (h.not_over hend)
  · obtain ⟨call, hcall, -⟩ := List.mem_map.mp he
    refine ⟨hend', h.ordered.fifo.disjoint.resolve_right ?_⟩
    exact List.ne_nil_of_mem (List.mem_map_of_mem hcall)

theorem Finishing.finish (h : s.Finishing) : s.finish.Finishing := by
  cases hend : s.ended with
  | true => exact (finish_of_ended hend).symm ▸ h
  | false =>
      exact h.dismiss hend (keeps_finish h.ordered).ordered (log_finish hend) ended_finish
        queue_finish

theorem Finishing.close (h : s.Finishing) : s.close.Finishing := by
  cases hend : s.ended with
  | true => exact (close_of_ended hend).symm ▸ h
  | false =>
      exact h.dismiss hend (keeps_close h.ordered).ordered (log_close hend) ended_close queue_close

theorem Finishing.fail (h : s.Finishing) : (s.fail error).Finishing := by
  cases hend : s.ended with
  | true => exact (fail_of_ended hend).symm ▸ h
  | false =>
      refine h.extend (keeps_fail h.ordered error).ordered (log_fail hend)
        (by simp [Effect.isValue]) ?_
      rw [over_append (log_fail hend)]
      rintro (hover | ⟨e, he, hisEnd⟩)
      · exact absurd hover (h.not_over hend)
      · obtain ⟨call, -, rfl⟩ := List.mem_map.mp he
        cases hisEnd

theorem Finishing.return_ (h : s.Finishing) (hqueue : s.queue = []) :
    (s.return_ iterator).Finishing := by
  refine h.close.extend (keeps_return_ h.ordered).ordered
    (rfl : _ = s.close.log ++ [.returned iterator]) (by simp [Effect.isValue]) ?_
  intro _
  exact ⟨ended_close, queue_close.trans hqueue⟩

/-! ## A clean step keeps the iterators final -/

theorem Finishing.next (h : s.Finishing) : (s.next iterator).Finishing := by
  have ho := (keeps_next h.ordered iterator).ordered
  obtain ⟨event, rest, hq, hn⟩ | ⟨hq, hf, hn⟩ | ⟨hq, hend, hn⟩ | ⟨hq, hend, hn⟩ :=
    s.next_cases iterator
  · have hover : ¬ s.Over := by
      intro hover
      simp [(h.closed hover).2] at hq
    exact (h.extend_of_not_over hover ho (by rw [hn]) (by simp [Effect.isEnd])).1
  · refine h.extend ho (by rw [hn]) (by simp [Effect.isValue]) fun _ => ?_
    rw [hn]
    exact ⟨h.ordered.failed hf, hq⟩
  · refine h.extend ho (by rw [hn]) (by simp [Effect.isValue]) fun _ => ?_
    rw [hn]
    exact ⟨hend, hq⟩
  · exact (h.extend_of_not_over (h.not_over hend) ho (by rw [hn]) (by simp [Effect.isEnd])).1

/-- A change that touches neither the events nor what the consumers see. -/
theorem Finishing.of_eq (h : s.Finishing) (ho : s'.Ordered) (hlog : s'.log = s.log)
    (hend : s'.ended = s.ended) (hqueue : s'.queue = s.queue) : s'.Finishing where
  ordered := ho
  closed := by
    unfold Over
    rw [hlog, hend, hqueue]
    exact h.closed
  final := hlog ▸ h.final

theorem Finishing.perform (h : s.Finishing) {op : Op} (hop : ¬ op.Abandons s) :
    (s.perform op).Finishing := by
  have ho := (keeps_perform h.ordered op).ordered
  cases op with
  | next iterator => exact h.next
  | return_ iterator => exact h.return_ (by simpa [Op.Abandons] using hop)
  | close => exact h.close
  | abort =>
      show s.abort.Finishing
      unfold State.abort
      split
      · have hsignal : s.Keeps { s with signal := false } :=
          h.ordered.keeps_of_eq rfl rfl rfl rfl rfl
        exact (h.of_eq hsignal.ordered rfl rfl rfl).close
      · exact h
  | send encoded =>
      refine h.of_eq ho ?_ ?_ ?_ <;> simp only [State.perform, State.send] <;> split <;> try rfl
      all_goals split <;> rfl
  | onEvent listener =>
      refine h.of_eq ho ?_ ?_ ?_ <;> simp only [State.perform, State.onEvent] <;> split <;> rfl
  | unsubscribe listener => exact h.of_eq ho rfl rfl rfl

theorem ends_of_abandons {op : Op} (h : op.Abandons s) : op.Ends s := by
  cases op with
  | return_ iterator => trivial
  | next iterator | close | abort | send encoded | onEvent listener | unsubscribe listener =>
      exact False.elim h

theorem not_over_close (hover : ¬ s.Over) (hpending : s.pending = []) :
    ¬ s.close.Over := by
  cases hend : s.ended with
  | true => rwa [close_of_ended hend]
  | false => simpa [over_append (log_close hend), hpending] using hover

/-- An operation that ends no iterator leaves all of them open. -/
theorem not_over_perform (hover : ¬ s.Over) {op : Op} (hop : ¬ op.Ends s) :
    ¬ (s.perform op).Over := by
  cases op with
  | next iterator =>
      show ¬ (s.next iterator).Over
      obtain ⟨event, rest, hq, hn⟩ | ⟨hq, hf, hn⟩ | ⟨hq, hend, hn⟩ | ⟨hq, hend, hn⟩ :=
        s.next_cases iterator
      · rw [hn, over_append rfl]
        simpa [Effect.isEnd] using hover
      · rw [hn, over_append rfl]
        simpa [Effect.isEnd] using hover
      · exact absurd ⟨hend, hq⟩ hop
      · rw [hn, over_append rfl]
        simpa [Effect.isEnd] using hover
  | return_ iterator => exact absurd trivial hop
  | close => exact not_over_close hover (not_not.mp hop)
  | abort =>
      show ¬ s.abort.Over
      unfold State.abort
      split
      · next hsignal =>
          have hpending : s.pending = [] := by simpa [Op.Ends, hsignal] using hop
          exact not_over_close hover hpending
      · exact hover
  | send encoded =>
      show ¬ (s.send encoded).Over
      unfold State.send
      split
      · exact hover
      · split <;> exact hover
  | onEvent listener =>
      show ¬ (s.onEvent listener).Over
      unfold State.onEvent
      split <;> exact hover
  | unsubscribe listener => exact hover

/-- The event that is delivered finds every iterator open. -/
theorem Finishing.deliver (h : s.Finishing) (hover : ¬ s.Over) (event : τ) :
    (s.deliver event).Finishing := by
  have ho := h.ordered.deliver event
  unfold State.deliver at ho ⊢
  split at ho
  · exact (h.extend_of_not_over hover ho rfl (by simp [Effect.isEnd])).1
  · exact ⟨ho, fun hs => absurd hs hover, h.final⟩

theorem run_listenerStep (ops : List Op) :
    ∀ s : State τ ε, run listenerStep s ops = some (ops.foldl perform s) := by
  induction ops with
  | nil => exact fun _ => rfl
  | cons op ops ih => exact fun s => run_cons_eq_some.mpr ⟨s.perform op, rfl, ih _⟩

/-- What holds of a state and survives each operation survives a listener's run. -/
theorem foldl_perform_inv {I : State τ ε → Prop} {P : State τ ε → Op → Prop}
    (hop : ∀ {s op}, I s → P s op → I (s.perform op)) {ops : List Op} (hs : I s)
    (hall : EveryStep listenerStep (fun s op _ => P s op) s ops) : I (ops.foldl perform s) := by
  refine hall.run_inv ?_ hs (run_listenerStep ops s)
  intro s op s' hs hstep hP
  obtain rfl := Option.some.inj hstep
  exact hop hs hP

variable {parse : δ → Except (Thrown ε) (Option τ)} {a : Action δ ε}

theorem Finishing.step (h : s.Finishing) (hstep : step parse s a = some s')
    (hclean : Clean parse s a) : s'.Finishing := by
  cases a with
  | open_ protocol =>
      obtain rfl := Option.some.inj hstep
      have ho := (keeps_onOpen h.ordered protocol).ordered
      have hclear : s.clearHandshake.Finishing := h.of_eq h.ordered.clearHandshake rfl rfl rfl
      show (s.onOpen protocol).Finishing
      unfold State.onOpen at ho ⊢
      simp only at ho ⊢
      split at ho
      · rw [if_pos ‹_›]
        exact hclear.fail
      · rw [if_neg ‹_›]
        exact h.of_eq ho rfl rfl rfl
  | socketClose =>
      obtain rfl := Option.some.inj hstep
      exact h.finish
  | socketError error =>
      obtain rfl := Option.some.inj hstep
      exact h.fail
  | handshakeTimer =>
      obtain ⟨ms, -, rfl⟩ := Option.map_eq_some_iff.mp hstep
      exact h.fail
  | call op =>
      obtain rfl := Option.some.inj hstep
      exact h.perform hclean
  | message data runs =>
      have harrive (event : τ) : (s.arrive event).Finishing :=
        h.of_eq (h.ordered.arrive event) rfl rfl rfl
      obtain ⟨rfl, error, -, rfl⟩ | ⟨rfl, rfl⟩ | ⟨event, error, hparse, hend, hthrows, rfl⟩ |
        ⟨event, hparse, hend, hthrows, rfl⟩ := onMessage_cases hstep
      · exact h.fail
      · exact h
      · -- the event is lost, so the listeners may end the stream, but not abandon its queue
        have hall := hclean event hparse hend
        simp only [if_pos hthrows] at hall
        exact (foldl_perform_inv (fun hs => hs.perform) (harrive event) hall).fail
      · have hall := hclean event hparse hend
        simp only [if_neg hthrows] at hall
        have hopen := foldl_perform_inv (I := fun s => s.Finishing ∧ ¬ s.Over)
          (fun hs hop => ⟨hs.1.perform (hop ∘ ends_of_abandons), not_over_perform hs.2 hop⟩)
          ⟨harrive event, h.not_over hend⟩ hall
        exact hopen.1.deliver hopen.2 event

theorem finishing_init (options : StreamOptions) : (State.init options : State τ ε).Finishing where
  ordered := ordered_init options
  closed := by
    rintro ⟨e, he, -⟩
    cases he
  final := List.Pairwise.nil

/-- No value after any end, on whatever iterator. -/
theorem Finishing.isFinal (h : s.Finishing) : Final s.log := by
  intro earlier e later iterator hlog hends call event _ _ hvalue
  have hpair := h.final
  rw [hlog] at hpair
  have htail := (List.pairwise_append.mp hpair).2.1
  have hend : e.isEnd := by
    cases e with
    | done call => rfl
    | returned i => rfl
    | next call | value call event | rejected call error => exact False.elim hends
  exact (List.pairwise_cons.mp htail).1 _ hvalue hend rfl

end State

/-- In every run whose steps are clean the iterators are final: an iterator that has ended never
gets another event. -/
theorem final_of_clean {parse : δ → Except (Thrown ε) (Option τ)} {options : StreamOptions}
    {as : List (Action δ ε)} {s : State τ ε}
    (hclean : EveryStep (step parse) (fun s a _ => Clean parse s a) (State.init options) as)
    (hrun : run (step parse) (State.init options) as = some s) : Final s.log :=
  (hclean.run_inv State.Finishing.step (State.finishing_init options) hrun).isFinal

/-- A frame of a watch without listeners. -/
def overflowFrame : Action MessageData Empty :=
  .message (.text "\x7b\"type\":\"overflow\",\"sequence\":1\x7d".toList) []

/-- Closing the stream with an event queued and draining it: done comes last. -/
theorem final_of_close_and_drain :
    ∃ s, run (step FileWatch.parse) (State.init ⟨none, false⟩)
        [.open_ "fissionplane.v1", overflowFrame, .call .close, .call (.next 0),
          .call (.next 0), .call (.return_ 0), .call (.next 0)] = some s ∧ Final s.log := by
  obtain ⟨s, hrun⟩ : ∃ s, run (step FileWatch.parse) (State.init ⟨none, false⟩)
      [.open_ "fissionplane.v1", overflowFrame, .call .close, .call (.next 0),
        .call (.next 0), .call (.return_ 0), .call (.next 0)] = some s :=
    Option.isSome_iff_exists.mp (by decide +kernel)
  exact ⟨s, hrun, final_of_clean (by decide +kernel) hrun⟩

/-- Leaving the loop with an event queued: the next call on the iterator gets it. -/
theorem not_final_of_queued_event :
    ∃ s, run (step FileWatch.parse) (State.init ⟨none, false⟩)
        [.open_ "fissionplane.v1", overflowFrame, .call (.return_ 0), .call (.next 0)] = some s ∧
      s.log = [.returned 0, .next ⟨0, 0⟩, .value ⟨0, 0⟩ (.overflow 1)] ∧ ¬ Final s.log := by
  obtain ⟨s, hrun, hlog⟩ : ∃ s ∈ run (step FileWatch.parse) (State.init ⟨none, false⟩)
      [.open_ "fissionplane.v1", overflowFrame, .call (.return_ 0), .call (.next 0)],
        s.log = [.returned 0, .next ⟨0, 0⟩, .value ⟨0, 0⟩ (.overflow 1)] := by
    decide +kernel
  refine ⟨s, hrun, hlog, fun hfinal => ?_⟩
  exact hfinal [] (.returned 0) _ 0 hlog rfl ⟨0, 0⟩ (.overflow 1) (by simp) rfl (by simp)

end FissionPlane.Sdk.StreamingEvents
