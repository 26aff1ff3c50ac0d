/-
# FissionPlane.Sdk.StreamLifecycle -- how an event stream ends

The socket, the handshake timer, a consumer and the caller's signal can each end the stream, in any
order. Whoever comes first cleans up: the waiting calls of `next()` are settled, the timer is
disarmed and the socket is closed; whoever comes later finds nothing to do.

The constructor listens for the signal's abort event. A signal that is aborted by then fires no
event any more, so its stream stays open.
-/
import FissionPlane.Sdk.StreamingEvents

namespace FissionPlane.Sdk.StreamingEvents

open FissionPlane.Lib FissionPlane.Lib.Transition

variable {τ ε δ : Type*}

/-! ## Calls and settlements -/

/-- The call an effect is the making of. -/
def Effect.called : Effect τ ε → Option Call
  | .next call => some call
  | _ => none

/-- The call an effect settles. -/
def Effect.settles : Effect τ ε → Option Call
  | .value call _ | .done call | .rejected call _ => some call
  | _ => none

namespace State

/-- The calls of `next()` so far. -/
def made (s : State τ ε) : List Call := s.log.filterMap Effect.called

/-- The calls that have been settled, as often as they have. -/
def settled (s : State τ ε) : List Call := s.log.filterMap Effect.settles

/-- An invariant of everything that can happen to a stream is one of its steps. The close event of
the socket is left to the caller. -/
theorem step_inv {I : State τ ε → Prop} {parse : δ → Except (Thrown ε) (Option τ)}
    (hperform : ∀ {s} op, I s → I (s.perform op)) (hfail : ∀ {s} error, I s → I (s.fail error))
    (harrive : ∀ {s} event, I s → I (s.arrive event))
    (hdeliver : ∀ {s} event, I s → I (s.deliver event))
    (hopen : ∀ {s} protocol, I s → I (s.onOpen protocol)) {s s' : State τ ε} {a : Action δ ε}
    (hclose : a = .socketClose → I s → I s.finish) (h : step parse s a = some s') (hs : I s) :
    I s' := by
  have hlisteners : ∀ (ops : List Op) {s : State τ ε}, I s → I (ops.foldl perform s) := by
    intro ops
    induction ops with
    | nil => exact fun hs => hs
    | cons op ops ih => exact fun hs => ih (hperform op hs)
  cases a with
  | open_ protocol =>
      obtain rfl := Option.some.inj h
      exact hopen protocol hs
  | socketClose =>
      obtain rfl := Option.some.inj h
      exact hclose rfl hs
  | socketError error =>
      obtain rfl := Option.some.inj h
      exact hfail error hs
  | handshakeTimer =>
      obtain ⟨ms, -, rfl⟩ := Option.map_eq_some_iff.mp h
      exact hfail _ hs
  | call op =>
      obtain rfl := Option.some.inj h
      exact hperform op hs
  | message data runs =>
      obtain ⟨-, error, -, rfl⟩ | ⟨-, rfl⟩ | ⟨event, error, -, -, -, rfl⟩ |
        ⟨event, -, -, -, rfl⟩ := onMessage_cases h
      · exact hfail error hs
      · exact hs
      · exact hfail error (hlisteners _ (harrive event hs))
      · exact hdeliver event (hlisteners _ (harrive event hs))

/-! ## Every call is settled once, and the end cleans up -/

/-- The invariant of every state, inside a listener too. -/
structure Tidy (s : State τ ε) : Prop where
  /-- Calls are numbered as they are made. -/
  numbered : s.made.map Call.id = List.range s.calls
  /-- A call that was made is settled, once, or still waits. -/
  accounted : (s.settled ++ s.pending).Perm s.made
  dismissed : s.ended = true → s.pending = []
  failed : s.failure.isSome → s.ended = true
  disarmed : s.ended = true → s.handshake = none

variable {s s' : State τ ε} {error : Thrown ε} {event : τ} {iterator : Nat}

/-- A change that is seen by no call and does not touch the end of the stream. -/
theorem Tidy.of_eq (h : s.Tidy) (hlog : s'.log = s.log) (hpending : s'.pending = s.pending)
    (hcalls : s'.calls = s.calls) (hended : s'.ended = s.ended) (hfailure : s'.failure = s.failure)
    (hhandshake : s.handshake = none → s'.handshake = none) : s'.Tidy where
  numbered := by
    rw [made, hlog, hcalls]
    exact h.numbered
  accounted := by
    rw [settled, made, hlog, hpending]
    exact h.accounted
  dismissed := by
    rw [hended, hpending]
    exact h.dismissed
  failed := by
    rw [hfailure, hended]
    exact h.failed
  disarmed := by
    rw [hended]
    exact fun hend => hhandshake (h.disarmed hend)

/-- The end of the stream: every waiting call is settled, and the timer is disarmed. -/
theorem Tidy.dismiss (h : s.Tidy) {settle : Call → Effect τ ε}
    (hcalled : ∀ call, (settle call).called = none)
    (hsettles : ∀ call, (settle call).settles = some call)
    (hlog : s'.log = s.log ++ s.pending.map settle) (hpending : s'.pending = [])
    (hcalls : s'.calls = s.calls) (hended : s'.ended = true) (hhandshake : s'.handshake = none) :
    s'.Tidy where
  numbered := by
    rw [made, hlog, hcalls, List.filterMap_append, List.filterMap_map]
    rw [show (Effect.called ∘ settle) = fun _ => none from funext hcalled, List.filterMap_none,
      List.append_nil]
    exact h.numbered
  accounted := by
    rw [settled, made, hlog, hpending, List.append_nil, List.filterMap_append, List.filterMap_map,
      List.filterMap_append, List.filterMap_map]
    rw [show (Effect.called ∘ settle) = fun _ => none from funext hcalled, List.filterMap_none,
      List.append_nil, show (Effect.settles ∘ settle) = some from funext hsettles,
      List.filterMap_some]
    exact h.accounted
  dismissed := fun _ => hpending
  failed := fun _ => hended
  disarmed := fun _ => hhandshake

theorem Tidy.finish (h : s.Tidy) : s.finish.Tidy := by
  unfold State.finish
  split
  · exact h
  · exact h.dismiss (fun _ => rfl) (fun _ => rfl) rfl rfl rfl rfl rfl

theorem Tidy.fail (error : Thrown ε) (h : s.Tidy) : (s.fail error).Tidy := by
  unfold State.fail
  split
  · exact h
  · exact h.dismiss (fun _ => rfl) (fun _ => rfl) rfl rfl rfl rfl rfl

theorem Tidy.close (h : s.Tidy) : s.close.Tidy := by
  unfold State.close
  split
  · exact h
  · exact h.finish.of_eq rfl rfl rfl rfl rfl id

/-- A call of `next()` is settled at once or waits. -/
theorem Tidy.next (h : s.Tidy) (iterator : Nat) : (s.next iterator).Tidy := by
  have hmade : ∀ (call : Call) (effects : List (Effect τ ε)), call.id = s.calls →
      effects.filterMap Effect.called = [call] →
      ((s.log ++ effects).filterMap Effect.called).map Call.id = List.range (s.calls + 1) := by
    intro call effects hid heffects
    rw [List.filterMap_append, heffects, List.map_append, List.range_succ]
    exact congrArg₂ _ h.numbered (congrArg (fun n => [n]) hid)
  have hserved : ∀ (call : Call) (effects : List (Effect τ ε)),
      effects.filterMap Effect.called = [call] → effects.filterMap Effect.settles = [call] →
      ((s.log ++ effects).filterMap Effect.settles ++ s.pending).Perm
        ((s.log ++ effects).filterMap Effect.called) := by
    intro call effects hcalled hsettles
    rw [List.filterMap_append, List.filterMap_append, hcalled, hsettles, List.append_assoc]
    refine (List.Perm.append_left _ List.perm_append_comm).trans ?_
    rw [← List.append_assoc]
    exact h.accounted.append_right [call]
  obtain ⟨event, rest, hq, hn⟩ | ⟨hq, hf, hn⟩ | ⟨hq, hend, hn⟩ | ⟨hq, hend, hn⟩ :=
    s.next_cases iterator
  · rw [hn]
    exact ⟨hmade _ _ rfl rfl, hserved _ _ rfl rfl, h.dismissed, h.failed, h.disarmed⟩
  · rw [hn]
    exact ⟨hmade _ _ rfl rfl, hserved _ _ rfl rfl, h.dismissed, h.failed, h.disarmed⟩
  · rw [hn]
    exact ⟨hmade _ _ rfl rfl, hserved _ _ rfl rfl, h.dismissed, h.failed, h.disarmed⟩
  · rw [hn]
    refine ⟨hmade _ _ rfl rfl, ?_, fun hend' => ?_, h.failed, h.disarmed⟩
    · show (List.filterMap Effect.settles (s.log ++ [_]) ++ (s.pending ++ [_])).Perm
        (List.filterMap Effect.called (s.log ++ [_]))
      rw [List.filterMap_append, List.filterMap_append, ← List.append_assoc]
      show (s.settled ++ [] ++ s.pending ++ [_]).Perm (s.made ++ [_])
      rw [List.append_nil]
      exact h.accounted.append_right _
    · exact absurd (hend.symm.trans hend') Bool.false_ne_true

theorem Tidy.perform (op : Op) (h : s.Tidy) : (s.perform op).Tidy := by
  cases op with
  | next iterator => exact h.next iterator
  | return_ iterator =>
      have hclose := h.close
      refine ⟨?_, ?_, hclose.dismissed, hclose.failed, hclose.disarmed⟩
      · show ((s.close.log ++ [Effect.returned iterator]).filterMap Effect.called).map Call.id = _
        rw [List.filterMap_append]
        show (s.close.made ++ []).map Call.id = _
        rw [List.append_nil]
        exact hclose.numbered
      · show ((s.close.log ++ [Effect.returned iterator]).filterMap Effect.settles ++
          s.close.pending).Perm
          ((s.close.log ++ [Effect.returned iterator]).filterMap Effect.called)
        rw [List.filterMap_append, List.filterMap_append]
        show (s.close.settled ++ [] ++ s.close.pending).Perm (s.close.made ++ [])
        rw [List.append_nil, List.append_nil]
        exact hclose.accounted
  | close => exact h.close
  | abort =>
      show s.abort.Tidy
      unfold State.abort
      split
      · have hsignal : Tidy { s with signal := false } := h.of_eq rfl rfl rfl rfl rfl id
        exact hsignal.close
      · exact h
  | send encoded =>
      show (s.send encoded).Tidy
      unfold State.send
      split
      · exact h
      · split <;> exact h.of_eq rfl rfl rfl rfl rfl id
  | onEvent listener =>
      show (s.onEvent listener).Tidy
      unfold State.onEvent
      split
      · exact h
      · exact h.of_eq rfl rfl rfl rfl rfl id
  | unsubscribe listener => exact h.of_eq rfl rfl rfl rfl rfl id

/-- The first waiting call gets the event. -/
theorem Tidy.deliver (event : τ) (h : s.Tidy) : (s.deliver event).Tidy := by
  unfold State.deliver
  split
  · next call rest hp =>
      have hcalled : (s.log ++ [Effect.value call event]).filterMap Effect.called = s.made := by
        rw [List.filterMap_append]
        exact List.append_nil _
      refine ⟨?_, ?_, ?_, h.failed, h.disarmed⟩
      · show ((s.log ++ [Effect.value call event]).filterMap Effect.called).map Call.id = _
        rw [hcalled]
        exact h.numbered
      · show ((s.log ++ [Effect.value call event]).filterMap Effect.settles ++ rest).Perm
          ((s.log ++ [Effect.value call event]).filterMap Effect.called)
        rw [hcalled, List.filterMap_append, List.append_assoc]
        show (s.settled ++ (call :: rest)).Perm s.made
        rw [← hp]
        exact h.accounted
      · intro hend
        exact absurd (h.dismissed hend) (by simp [hp])
  · exact h.of_eq rfl rfl rfl rfl rfl id

theorem Tidy.onOpen (protocol : String) (h : s.Tidy) : (s.onOpen protocol).Tidy := by
  have hclear : s.clearHandshake.Tidy := h.of_eq rfl rfl rfl rfl rfl fun _ => rfl
  unfold State.onOpen
  simp only
  split
  · exact hclear.fail _
  · exact hclear.of_eq rfl rfl rfl rfl rfl id

theorem tidy_init (options : StreamOptions) : (State.init options : State τ ε).Tidy :=
  ⟨rfl, .refl _, fun _ => rfl, fun h => absurd h (by simp [init]), nofun⟩

end State

/-! ## Who ends the stream closes the socket -/

/-- The signal handed to the constructor, as it is then. -/
inductive AbortSignal where
  | absent
  | live
  | aborted
  deriving DecidableEq

/-- The constructor. Only a signal that is not aborted yet has an abort event to come. -/
def construct (handshakeTimeoutMs : Option ℕ) (signal : AbortSignal) : State τ ε :=
  .init ⟨handshakeTimeoutMs, signal = .live⟩

/-- The signal is aborted, since or before the construction. -/
def Aborted (signal : AbortSignal) (s : State τ ε) : Prop :=
  signal = .aborted ∨ (signal = .live ∧ s.signal = false)

namespace State

/-- The invariant of a socket that closes of itself only if `closing`. -/
structure Shut (closing : Prop) (signal : AbortSignal) (s : State τ ε) : Prop where
  once : s.socket.count .close ≤ if s.ended then 1 else 0
  closed : s.ended = true → closing ∨ .close ∈ s.socket
  signalled : signal = .live → s.signal = false → s.ended = true

variable {s s' : State τ ε} {error : Thrown ε} {event : τ} {iterator : Nat} {closing : Prop}
  {signal : AbortSignal}

theorem Shut.of_eq (h : s.Shut closing signal) (hsocket : s'.socket = s.socket)
    (hended : s'.ended = s.ended) (hsignal : s'.signal = s.signal) : s'.Shut closing signal := by
  refine ⟨?_, ?_, ?_⟩
  · rw [hsocket, hended]
    exact h.once
  · rw [hsocket, hended]
    exact h.closed
  · rw [hsignal, hended]
    exact h.signalled

/-- Frames may follow whatever the socket was told. -/
theorem Shut.of_sends (h : s.Shut closing signal) (frames : List String)
    (hsocket : s'.socket = s.socket ++ frames.map .send) (hended : s'.ended = s.ended)
    (hsignal : s'.signal = s.signal) : s'.Shut closing signal := by
  refine ⟨?_, ?_, ?_⟩
  · have hcount : (frames.map SocketCall.send).count .close = 0 := by
      refine List.count_eq_zero.mpr fun hmem => ?_
      obtain ⟨frame, -, hframe⟩ := List.mem_map.mp hmem
      cases hframe
    rw [hsocket, hended, List.count_append, hcount]
    exact h.once
  · intro hend
    rw [hsocket]
    exact (h.closed (hended ▸ hend)).imp_right (List.mem_append_left _)
  · rw [hsignal, hended]
    exact h.signalled

/-- A running stream is ended, and its socket closed. -/
theorem Shut.ends (h : s.Shut closing signal) (hrunning : s.ended = false)
    (hsocket : s'.socket = s.socket ++ [.close]) (hended : s'.ended = true) :
    s'.Shut closing signal := by
  refine ⟨?_, fun _ => .inr ?_, fun _ _ => hended⟩
  · have honce := h.once
    rw [hrunning] at honce
    rw [hsocket, hended, List.count_append]
    simpa using honce
  · rw [hsocket]
    exact List.mem_append_right _ (List.mem_singleton.mpr rfl)

theorem Shut.finish (hclosing : closing) (h : s.Shut closing signal) :
    s.finish.Shut closing signal := by
  unfold State.finish
  split
  · exact h
  · next hrunning =>
      refine ⟨?_, fun _ => .inl hclosing, fun _ _ => rfl⟩
      have honce := h.once
      rw [if_neg hrunning] at honce
      show s.socket.count .close ≤ 1
      omega

theorem Shut.fail (error : Thrown ε) (h : s.Shut closing signal) :
    (s.fail error).Shut closing signal := by
  unfold State.fail
  split
  · exact h
  · next hrunning => exact h.ends (by simpa using hrunning) rfl rfl

theorem Shut.close (h : s.Shut closing signal) : s.close.Shut closing signal := by
  unfold State.close
  split
  · exact h
  · next hrunning =>
      refine h.ends (by simpa using hrunning) ?_ ended_finish
      show s.finish.socket ++ [.close] = _
      rw [State.finish, if_neg hrunning]
      rfl

theorem Shut.perform (op : Op) (h : s.Shut closing signal) :
    (s.perform op).Shut closing signal := by
  cases op with
  | next iterator =>
      show (s.next iterator).Shut closing signal
      obtain ⟨event, rest, -, hn⟩ | ⟨-, -, hn⟩ | ⟨-, -, hn⟩ | ⟨-, -, hn⟩ := s.next_cases iterator
      all_goals
        rw [hn]
        exact h.of_eq rfl rfl rfl
  | return_ iterator => exact h.close.of_eq rfl rfl rfl
  | close => exact h.close
  | abort =>
      show s.abort.Shut closing signal
      unfold State.abort
      split
      · -- the aborted signal is consistent with the stream again once that is closed
        have hclose := h.close
        have hsame : State.close { s with signal := false } = { s.close with signal := false } := by
          unfold State.close State.finish
          simp only
          split <;> rfl
        rw [hsame]
        exact ⟨hclose.once, hclose.closed, fun _ _ => ended_close⟩
      · exact h
  | send encoded =>
      show (s.send encoded).Shut closing signal
      unfold State.send
      split
      · exact h
      · split
        · exact h.of_sends [encoded] rfl rfl rfl
        · exact h.of_eq rfl rfl rfl
  | onEvent listener =>
      show (s.onEvent listener).Shut closing signal
      unfold State.onEvent
      split
      · exact h
      · exact h.of_eq rfl rfl rfl
  | unsubscribe listener => exact h.of_eq rfl rfl rfl

theorem Shut.deliver (event : τ) (h : s.Shut closing signal) :
    (s.deliver event).Shut closing signal := by
  unfold State.deliver
  split <;> exact h.of_eq rfl rfl rfl

theorem Shut.onOpen (protocol : String) (h : s.Shut closing signal) :
    (s.onOpen protocol).Shut closing signal := by
  have hclear : s.clearHandshake.Shut closing signal := h.of_eq rfl rfl rfl
  unfold State.onOpen
  simp only
  split
  · exact hclear.fail _
  · exact h.of_sends s.outbound rfl rfl rfl

theorem shut_construct (handshakeTimeoutMs : Option ℕ) :
    (construct handshakeTimeoutMs signal : State τ ε).Shut closing signal := by
  refine ⟨Nat.zero_le _, nofun, ?_⟩
  rintro rfl hsignal
  cases hsignal

/-- No step takes the end of a stream back. -/
theorem ended_step {parse : δ → Except (Thrown ε) (Option τ)} {a : Action δ ε}
    (h : step parse s a = some s') (hend : s.ended = true) : s'.ended = true := by
  refine step_inv (I := fun s => s.ended = true) ?_ ?_ ?_ ?_ ?_ ?_ h hend
  · intro s op hs
    cases op with
    | next iterator =>
        obtain ⟨event, rest, -, hn⟩ | ⟨-, -, hn⟩ | ⟨-, -, hn⟩ | ⟨-, -, hn⟩ := s.next_cases iterator
        all_goals exact (congrArg State.ended hn).trans hs
    | return_ iterator => exact ended_close
    | close => exact ended_close
    | abort =>
        show s.abort.ended = true
        unfold State.abort
        split
        · exact ended_close
        · exact hs
    | send encoded => exact (congrArg State.ended (if_pos hs)).trans hs
    | onEvent listener =>
        show (s.onEvent listener).ended = true
        unfold State.onEvent
        split <;> exact hs
    | unsubscribe listener => exact hs
  · exact fun _ _ => ended_fail
  · exact fun _ hs => hs
  · intro s event hs
    unfold State.deliver
    split <;> exact hs
  · intro s protocol hs
    unfold State.onOpen
    simp only
    split
    · exact ended_fail
    · exact hs
  · exact fun _ _ => ended_finish

end State

/-! ## The lifecycle -/

/-- What is promised of a stream in the state a schedule has led to. -/
structure Lawful (signal : AbortSignal) (schedule : List (Action δ ε)) (s : State τ ε) : Prop where
  /-- No two calls of `next()` are the same, and each is settled, once, or still waits. -/
  distinct : s.made.Nodup
  accounted : (s.settled ++ s.pending).Perm s.made
  /-- Once the stream has ended none waits, and the timer is disarmed. -/
  dismissed : s.ended = true → s.pending = []
  disarmed : s.ended = true → s.handshake = none
  /-- The socket is closed once at most. -/
  once : s.socket.count .close ≤ 1
  /-- With the signal aborted, the stream has ended and its socket is closed. -/
  aborted : Aborted signal s →
    s.ended = true ∧ (.close ∈ s.socket ∨ Action.socketClose ∈ schedule)

/-- **The lifecycle of a stream.** However socket, timer, consumers and signal take turns, the
stream ends at most once, every call of `next()` is settled once, and timer and socket are cleaned
up, if and only if the signal was not aborted before the stream was constructed. -/
theorem lawful_iff (parse : δ → Except (Thrown ε) (Option τ)) (handshakeTimeoutMs : Option ℕ)
    (signal : AbortSignal) :
    (∀ schedule : List (Action δ ε),
      EveryStep (step parse) (fun s _ s' => s.ended = true → s'.ended = true)
        (construct handshakeTimeoutMs signal) schedule ∧
      ∀ s, run (step parse) (construct handshakeTimeoutMs signal) schedule = some s →
        Lawful signal schedule s) ↔ signal ≠ .aborted := by
  constructor
  · rintro h rfl
    have hended := ((h []).2 _ rfl).aborted (.inl rfl)
    cases hended.1
  · intro hsignal schedule
    have hall : EveryStep (step parse)
        (fun _ a _ => a = .socketClose → Action.socketClose ∈ schedule)
        (construct handshakeTimeoutMs signal) schedule :=
      .of_forall_mem fun a ha heq => heq ▸ ha
    have hended : EveryStep (step parse) (fun s _ s' => s.ended = true → s'.ended = true)
        (construct handshakeTimeoutMs signal) schedule :=
      EveryStep.of_step (P := fun (s : State τ ε) _ (s' : State τ ε) => s.ended = true → _)
        State.ended_step
    refine ⟨hended, fun s hrun => ?_⟩
    have htidy : s.Tidy := by
      refine run_inv (fun hs h => ?_) (State.tidy_init _) hrun
      exact State.step_inv (fun op => .perform op) (fun error => .fail error)
        (fun _ hs => hs.of_eq rfl rfl rfl rfl rfl id) (fun event => .deliver event)
        (fun protocol => .onOpen protocol) (fun _ => .finish) h hs
    have hshut : s.Shut (Action.socketClose ∈ schedule) signal := by
      refine hall.run_inv (fun hs h hclosing => ?_) (State.shut_construct handshakeTimeoutMs) hrun
      exact State.step_inv (fun op => .perform op) (fun error => .fail error)
        (fun _ hs => hs.of_eq rfl rfl rfl) (fun event => .deliver event)
        (fun protocol => .onOpen protocol) (fun ha => .finish (hclosing ha)) h hs
    have hdistinct : s.made.Nodup := by
      refine List.Nodup.of_map Call.id ?_
      rw [htidy.numbered]
      exact List.nodup_range
    refine ⟨hdistinct, htidy.accounted, htidy.dismissed, htidy.disarmed, ?_, ?_⟩
    · refine hshut.once.trans ?_
      split <;> omega
    · rintro (haborted | ⟨hlive, hfired⟩)
      · exact absurd haborted hsignal
      · have hended := hshut.signalled hlive hfired
        exact ⟨hended, (hshut.closed hended).symm⟩

/-- A signal aborted before the construction: the socket opens, and `next()` waits for good. -/
theorem not_lawful_aborted :
    let schedule : List (Action MessageData Empty) :=
      [.open_ "fissionplane.v1", .call (.next 0)]
    ∃ s, run (step FileWatch.parse) (construct (some 60000) .aborted) schedule = some s ∧
      s.ended = false ∧ s.socket = [] ∧ s.pending = [⟨0, 0⟩] ∧ ¬ Lawful .aborted schedule s := by
  intro schedule
  refine ⟨_, rfl, rfl, rfl, rfl, fun h => ?_⟩
  cases (h.aborted (.inl rfl)).1

end FissionPlane.Sdk.StreamingEvents
