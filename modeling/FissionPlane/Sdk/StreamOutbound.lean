/-
# FissionPlane.Sdk.StreamOutbound -- the frames a stream sends

`send` writes to the socket once that is open and to `outbound` before; opening the socket flushes
the buffer. The relation `Sends` says what everything but that opening does to the two of them, and
composes; the run of a schedule is then one switch, at the opening, between a buffer that fills and
a socket that is written to.
-/
import FissionPlane.Sdk.StreamingEvents

namespace FissionPlane.Sdk.StreamingEvents

open FissionPlane.Lib FissionPlane.Lib.Transition

variable {τ ε δ : Type*}

/-! ## Frames passed to `send()` -/

def SocketCall.frame : SocketCall → Option String
  | .send frame => some frame
  | .close => none

namespace State

/-- The frames that have reached the socket. -/
def sent (s : State τ ε) : List String := s.socket.filterMap SocketCall.frame

/-- The frame one operation passes to `send()`, if the stream has not ended by then. -/
def passedBy (s : State τ ε) : Op → List String
  | .send encoded => if s.ended then [] else [encoded]
  | _ => []

/-- The frames that operations pass to `send()` before the stream has ended. -/
def passed : State τ ε → List Op → List String
  | _, [] => []
  | s, op :: ops => s.passedBy op ++ (s.perform op).passed ops

/-- The frames passed during one action; a listener may pass frames while it is shown an event. -/
def passedIn (parse : δ → Except (Thrown ε) (Option τ)) (s : State τ ε) :
    Action δ ε → List String
  | .call op => s.passedBy op
  | .message data runs =>
      match parse data with
      | .ok (some event) => (s.arrive event).passed (calledBack runs)
      | _ => []
  | _ => []

end State

variable (parse : δ → Except (Thrown ε) (Option τ))

/-- The frames passed to `send()` over a schedule, before the stream has ended. -/
def passed : State τ ε → List (Action δ ε) → List String
  | _, [] => []
  | s, a :: as =>
      match step parse s a with
      | none => []
      | some s' => s.passedIn parse a ++ passed s' as

/-- The socket opens with the right subprotocol while the stream has not ended. -/
def OpensInTime : State τ ε → List (Action δ ε) → Prop
  | _, [] => False
  | s, a :: as =>
      (s.ended = false ∧ a = .open_ "fissionplane.v1") ∨
        ∃ s', step parse s a = some s' ∧ OpensInTime s' as

/-! ## The buffer and the socket -/

namespace State

/-- The buffer is in use only between construction and opening. -/
structure Buffers (s : State τ ε) : Prop where
  emptied : s.ended = true → s.outbound = []
  flushed : s.opened = true → s.outbound = []

/-- From `s` to `s'` the socket does not open, and `frames` are passed to `send()`: they reach the
socket if it is open, and the buffer otherwise. -/
structure Sends (s s' : State τ ε) (frames : List String) : Prop where
  opened : s'.opened = s.opened
  sent : s'.sent = s.sent ++ if s.opened then frames else []
  outbound : s'.ended = false → s'.outbound = s.outbound ++ if s.opened then [] else frames
  emptied : s'.ended = true → s.ended = false → s'.outbound = []
  kept : s.ended = true → s'.ended = true ∧ s'.outbound = s.outbound ∧ frames = []

variable {s s' s'' : State τ ε} {frames frames' : List String} {event : τ} {error : Thrown ε}

theorem Sends.refl : s.Sends s [] := by
  refine ⟨rfl, ?_, fun _ => ?_, fun hend hrun => ?_, fun hend => ⟨hend, rfl, rfl⟩⟩
  · rw [ite_self, List.append_nil]
  · rw [ite_self, List.append_nil]
  · exact absurd (hrun.symm.trans hend) Bool.false_ne_true

theorem Sends.trans (h : s.Sends s' frames) (h' : s'.Sends s'' frames') :
    s.Sends s'' (frames ++ frames') := by
  refine ⟨h'.opened.trans h.opened, ?_, fun hrun => ?_, fun hend hrun => ?_, fun hend => ?_⟩
  · rw [h'.sent, h.sent, h.opened]
    split <;> simp
  · have hrun' : s'.ended = false := by
      refine eq_false_of_ne_true fun hend => ?_
      exact absurd ((h'.kept hend).1.symm.trans hrun) (by decide)
    rw [h'.outbound hrun, h.outbound hrun', h.opened]
    split <;> simp
  · cases hend' : s'.ended with
    | true => exact (h'.kept hend').2.1.trans (h.emptied hend' hrun)
    | false => exact h'.emptied hend hend'
  · obtain ⟨hend', hout, rfl⟩ := h.kept hend
    obtain ⟨hend'', hout', rfl⟩ := h'.kept hend'
    exact ⟨hend'', hout'.trans hout, rfl⟩

/-- A change that no frame has a part in. -/
theorem Sends.of_eq (hopened : s'.opened = s.opened) (hsocket : s'.socket = s.socket)
    (houtbound : s'.outbound = s.outbound) (hended : s'.ended = s.ended) : s.Sends s' [] := by
  have hsent : s'.sent = s.sent := by
    unfold State.sent
    rw [hsocket]
  refine ⟨hopened, ?_, fun _ => ?_, fun hend hrun => ?_, fun hend => ⟨hended.trans hend, houtbound,
    rfl⟩⟩
  · rw [hsent, ite_self, List.append_nil]
  · rw [houtbound, ite_self, List.append_nil]
  · exact absurd (hrun.symm.trans (hended.symm.trans hend)) Bool.false_ne_true

/-- The end of a running stream empties the buffer and leaves the socket. -/
theorem Sends.ends (hrunning : s.ended = false) (hopened : s'.opened = s.opened)
    (hsent : s'.sent = s.sent) (houtbound : s'.outbound = []) (hended : s'.ended = true) :
    s.Sends s' [] := by
  refine ⟨hopened, ?_, fun hrun => ?_, fun _ _ => houtbound, fun hend => ?_⟩
  · rw [hsent, ite_self, List.append_nil]
  · exact absurd (hended.symm.trans hrun) (by decide)
  · exact absurd (hrunning.symm.trans hend) Bool.false_ne_true

theorem sent_append_close :
    (s.socket ++ [SocketCall.close]).filterMap SocketCall.frame = s.sent := by
  rw [List.filterMap_append]
  exact List.append_nil _

theorem sends_finish : s.Sends s.finish [] := by
  unfold finish
  split
  · exact .refl
  · next hrunning => exact .ends (eq_false_of_ne_true hrunning) rfl rfl rfl rfl

theorem sends_fail (error : Thrown ε) : s.Sends (s.fail error) [] := by
  unfold fail
  split
  · exact .refl
  · next hrunning =>
      exact .ends (eq_false_of_ne_true hrunning) rfl sent_append_close rfl rfl

theorem sends_close : s.Sends s.close [] := by
  unfold close
  split
  · exact .refl
  · next hrunning =>
      have hfinish : s.finish =
          { s.clearHandshake with
            ended := true
            outbound := []
            pending := []
            log := s.log ++ s.pending.map .done } := if_neg hrunning
      rw [hfinish]
      exact .ends (eq_false_of_ne_true hrunning) rfl sent_append_close rfl rfl

theorem sends_send (encoded : String) :
    s.Sends (s.send encoded) (s.passedBy (.send encoded)) := by
  by_cases hend : s.ended = true
  · rw [send, if_pos hend, passedBy, if_pos hend]
    exact .refl
  rw [passedBy, if_neg hend]
  by_cases hopen : s.opened = true
  · rw [send, if_neg hend, if_pos hopen]
    refine ⟨rfl, ?_, fun _ => ?_, fun hend' => absurd hend' hend, fun hend' => absurd hend' hend⟩
    · show (s.socket ++ [SocketCall.send encoded]).filterMap SocketCall.frame = _
      rw [List.filterMap_append, if_pos hopen]
      rfl
    · rw [if_pos hopen, List.append_nil]
  · rw [send, if_neg hend, if_neg hopen]
    refine ⟨rfl, ?_, fun _ => ?_, fun hend' => absurd hend' hend, fun hend' => absurd hend' hend⟩
    · rw [if_neg hopen, List.append_nil]
      rfl
    · rw [if_neg hopen]

theorem sends_perform (op : Op) : s.Sends (s.perform op) (s.passedBy op) := by
  cases op with
  | next iterator =>
      show s.Sends (s.next iterator) []
      obtain ⟨event, rest, -, hn⟩ | ⟨-, -, hn⟩ | ⟨-, -, hn⟩ | ⟨-, -, hn⟩ := s.next_cases iterator
      all_goals
        rw [hn]
        exact .of_eq rfl rfl rfl rfl
  | return_ iterator =>
      have hreturned : s.close.Sends (s.return_ iterator) [] := .of_eq rfl rfl rfl rfl
      exact sends_close.trans hreturned
  | close => exact sends_close
  | abort =>
      show s.Sends s.abort []
      unfold abort
      split
      · have hsignal : s.Sends { s with signal := false } [] := .of_eq rfl rfl rfl rfl
        exact hsignal.trans sends_close
      · exact .refl
  | send encoded => exact sends_send encoded
  | onEvent listener =>
      show s.Sends (s.onEvent listener) []
      unfold onEvent
      split
      · exact .refl
      · exact .of_eq rfl rfl rfl rfl
  | unsubscribe listener => exact .of_eq rfl rfl rfl rfl

theorem sends_foldl (ops : List Op) :
    ∀ {s : State τ ε}, s.Sends (ops.foldl perform s) (s.passed ops) := by
  induction ops with
  | nil => exact Sends.refl
  | cons op ops ih => exact (sends_perform op).trans ih

theorem sends_deliver (event : τ) : s.Sends (s.deliver event) [] := by
  unfold deliver
  split <;> exact .of_eq rfl rfl rfl rfl

variable {parse : δ → Except (Thrown ε) (Option τ)} {data : δ} {runs : List (Run ε)}
  {a : Action δ ε}

/-- What listeners pass while a message is handled, whatever becomes of the message then. -/
theorem sends_onMessage (h : s.onMessage parse data runs = some s') :
    s.Sends s' (s.passedIn parse (.message data runs)) := by
  have harrive : ∀ event, s.Sends (s.arrive event) [] := fun _ => .of_eq rfl rfl rfl rfl
  obtain ⟨rfl, error, hparse, rfl⟩ | ⟨rfl, rfl⟩ | ⟨event, error, hparse, -, -, rfl⟩ |
    ⟨event, hparse, -, -, rfl⟩ := onMessage_cases h
  · simp only [passedIn, hparse]
    exact sends_fail error
  · have hnone : s'.passedIn parse (.message data []) = [] := by
      show (match parse data with
        | .ok (some event) => (s'.arrive event).passed (calledBack [])
        | _ => []) = []
      split <;> rfl
    rw [hnone]
    exact .refl
  · simp only [passedIn, hparse]
    simpa using ((harrive event).trans (sends_foldl _)).trans (sends_fail error)
  · simp only [passedIn, hparse]
    simpa using ((harrive event).trans (sends_foldl _)).trans (sends_deliver event)

/-- Everything that can happen to a stream, except that its socket opens as it should. -/
theorem sends_step (ha : a ≠ .open_ "fissionplane.v1") (h : step parse s a = some s') :
    s.Sends s' (s.passedIn parse a) := by
  cases a with
  | open_ protocol =>
      obtain rfl := Option.some.inj h
      have hclear : s.Sends s.clearHandshake [] := .of_eq rfl rfl rfl rfl
      show s.Sends (s.onOpen protocol) []
      rw [onOpen, if_pos fun heq : protocol = _ => ha (congrArg _ heq)]
      exact hclear.trans (sends_fail _)
  | message data runs => exact sends_onMessage h
  | socketClose =>
      obtain rfl := Option.some.inj h
      exact sends_finish
  | socketError error =>
      obtain rfl := Option.some.inj h
      exact sends_fail error
  | handshakeTimer =>
      obtain ⟨ms, -, rfl⟩ := Option.map_eq_some_iff.mp h
      exact sends_fail _
  | call op =>
      obtain rfl := Option.some.inj h
      exact sends_perform op

/-- The opening flushes the buffer. -/
theorem onOpen_v1 : s.onOpen "fissionplane.v1" =
    { s.clearHandshake with
      opened := true, outbound := [], socket := s.socket ++ s.outbound.map .send } := rfl

theorem sent_onOpen_v1 : (s.onOpen "fissionplane.v1").sent = s.sent ++ s.outbound := by
  rw [onOpen_v1]
  show (s.socket ++ s.outbound.map SocketCall.send).filterMap SocketCall.frame = _
  rw [List.filterMap_append, List.filterMap_map,
    show SocketCall.frame ∘ SocketCall.send = some from rfl, List.filterMap_some]
  rfl

theorem Buffers.of_sends (h : s.Sends s' frames) (hs : s.Buffers) : s'.Buffers where
  emptied := by
    intro hend'
    cases hend : s.ended with
    | true => exact (h.kept hend).2.1.trans (hs.emptied hend)
    | false => exact h.emptied hend' hend
  flushed := by
    intro hopen'
    have hopen : s.opened = true := h.opened ▸ hopen'
    cases hend : s.ended with
    | true => exact (h.kept hend).2.1.trans (hs.flushed hopen)
    | false =>
        cases hend' : s'.ended with
        | true => exact h.emptied hend' hend
        | false => simpa [hopen, hs.flushed hopen] using h.outbound hend'

theorem buffers_step (h : step parse s a = some s') (hs : s.Buffers) : s'.Buffers := by
  by_cases ha : a = .open_ "fissionplane.v1"
  · subst ha
    obtain rfl := Option.some.inj h
    exact ⟨fun _ => rfl, fun _ => rfl⟩
  · exact hs.of_sends (sends_step ha h)

theorem buffers_init (options : StreamOptions) : (init options : State τ ε).Buffers :=
  ⟨fun _ => rfl, fun _ => rfl⟩

end State

/-! ## Runs -/

variable {parse} {s s' t : State τ ε} {a : Action δ ε}

theorem passed_cons {as : List (Action δ ε)} (h : step parse s a = some s') :
    passed parse s (a :: as) = s.passedIn parse a ++ passed parse s' as := by
  rw [passed, h]

theorem opensInTime_cons {as : List (Action δ ε)} (h : step parse s a = some s') :
    OpensInTime parse s (a :: as) ↔
      (s.ended = false ∧ a = .open_ "fissionplane.v1") ∨ OpensInTime parse s' as := by
  refine or_congr_right ⟨?_, fun hopens => ⟨s', h, hopens⟩⟩
  rintro ⟨t, ht, hopens⟩
  obtain rfl := Option.some.inj (h.symm.trans ht)
  exact hopens

/-- A stream that has ended passes nothing more to its socket, and opens too late. -/
theorem ended_run {as : List (Action δ ε)} (hbuf : s.Buffers) (hend : s.ended = true)
    (h : run (step parse) s as = some t) :
    t.sent = s.sent ∧ passed parse s as = [] ∧ ¬ OpensInTime parse s as := by
  induction as generalizing s with
  | nil =>
      obtain rfl := Option.some.inj h
      exact ⟨rfl, rfl, id⟩
  | cons a as ih =>
      obtain ⟨s', hs, hrun⟩ := run_cons_eq_some.mp h
      have hfirst : s'.ended = true ∧ s'.sent = s.sent ∧ s.passedIn parse a = [] := by
        by_cases ha : a = .open_ "fissionplane.v1"
        · subst ha
          obtain rfl := Option.some.inj hs
          refine ⟨hend, ?_, rfl⟩
          rw [State.sent_onOpen_v1, hbuf.emptied hend, List.append_nil]
        · have hsends := State.sends_step ha hs
          obtain ⟨hend', -, hnone⟩ := hsends.kept hend
          refine ⟨hend', ?_, hnone⟩
          rw [hsends.sent, hnone, ite_self, List.append_nil]
      obtain ⟨hend', hsent, hnone⟩ := hfirst
      obtain ⟨hsent', hnone', hlate⟩ := ih (State.buffers_step hs hbuf) hend' hrun
      refine ⟨hsent'.trans hsent, ?_, ?_⟩
      · rw [passed_cons hs, hnone, hnone']
        rfl
      · rw [opensInTime_cons hs, not_or]
        exact ⟨fun hopen => Bool.false_ne_true (hopen.1.symm.trans hend), hlate⟩

/-- An open stream writes what it is passed. -/
theorem opened_run {as : List (Action δ ε)} (hbuf : s.Buffers) (hopen : s.opened = true)
    (h : run (step parse) s as = some t) : t.sent = s.sent ++ passed parse s as := by
  induction as generalizing s with
  | nil =>
      obtain rfl := Option.some.inj h
      exact (List.append_nil _).symm
  | cons a as ih =>
      obtain ⟨s', hs, hrun⟩ := run_cons_eq_some.mp h
      have hfirst : s'.opened = true ∧ s'.sent = s.sent ++ s.passedIn parse a := by
        by_cases ha : a = .open_ "fissionplane.v1"
        · subst ha
          obtain rfl := Option.some.inj hs
          refine ⟨rfl, ?_⟩
          rw [State.sent_onOpen_v1, hbuf.flushed hopen]
          rfl
        · have hsends := State.sends_step ha hs
          refine ⟨hsends.opened.trans hopen, ?_⟩
          rw [hsends.sent, if_pos hopen]
      rw [ih (State.buffers_step hs hbuf) hfirst.1 hrun, hfirst.2, passed_cons hs,
        List.append_assoc]

open Classical in
/-- **The buffer of a stream that is not open.** If its socket opens in time, the buffer goes first
and then what is passed; otherwise nothing is sent. -/
theorem unopened_run {as : List (Action δ ε)} (hbuf : s.Buffers) (hopen : s.opened = false)
    (hrunning : s.ended = false) (h : run (step parse) s as = some t) :
    t.sent = s.sent ++
      if OpensInTime parse s as then s.outbound ++ passed parse s as else [] := by
  induction as generalizing s with
  | nil =>
      obtain rfl := Option.some.inj h
      rw [if_neg (show ¬ OpensInTime parse s [] from id), List.append_nil]
  | cons a as ih =>
      obtain ⟨s', hs, hrun⟩ := run_cons_eq_some.mp h
      have hbuf' := State.buffers_step hs hbuf
      by_cases ha : a = .open_ "fissionplane.v1"
      · -- the switch: from here on the socket is written to
        rw [if_pos ((opensInTime_cons hs).mpr (.inl ⟨hrunning, ha⟩)), passed_cons hs]
        subst ha
        obtain rfl := Option.some.inj hs
        rw [opened_run hbuf' rfl hrun, State.sent_onOpen_v1, List.append_assoc]
        rfl
      · have hsends := State.sends_step ha hs
        have hsent : s'.sent = s.sent := by
          rw [hsends.sent, hopen]
          exact List.append_nil _
        have hopens : OpensInTime parse s (a :: as) ↔ OpensInTime parse s' as := by
          rw [opensInTime_cons hs, or_iff_right fun hopen => ha hopen.2]
        cases hend : s'.ended with
        | true =>
            obtain ⟨hsent', -, hlate⟩ := ended_run hbuf' hend hrun
            rw [if_neg (hopens.not.mpr hlate), hsent', hsent, List.append_nil]
        | false =>
            have hout : s'.outbound = s.outbound ++ s.passedIn parse a := by
              rw [hsends.outbound hend, hopen]
              rfl
            rw [ih hbuf' (hsends.opened.trans hopen) hend hrun, hsent, hout]
            simp only [hopens, passed_cons hs, List.append_assoc]

/-! ## Every frame once, and in order -/

/-- A frame reaches the socket only on a stream that runs, while the socket is open or opens with
the right subprotocol; opening with another ends the stream. -/
def InTime (s : State τ ε) (a : Action δ ε) (s' : State τ ε) : Prop :=
  (s'.sent ≠ s.sent → s.ended = false ∧ (s.opened = true ∨ a = .open_ "fissionplane.v1")) ∧
    ∀ protocol, a = .open_ protocol → protocol ≠ "fissionplane.v1" → s'.ended = true

theorem inTime_step (hs : s.Buffers) (h : step parse s a = some s') : InTime s a s' := by
  refine ⟨fun hsent => ?_, ?_⟩
  · by_cases ha : a = .open_ "fissionplane.v1"
    · refine ⟨eq_false_of_ne_true fun hend => hsent ?_, .inr ha⟩
      subst ha
      obtain rfl := Option.some.inj h
      rw [State.sent_onOpen_v1, hs.emptied hend, List.append_nil]
    · have hsends := State.sends_step ha h
      refine ⟨eq_false_of_ne_true fun hend => hsent ?_, .inl ?_⟩
      · rw [hsends.sent, (hsends.kept hend).2.2, ite_self, List.append_nil]
      · by_contra hopen
        rw [hsends.sent, if_neg hopen, List.append_nil] at hsent
        exact hsent rfl
  · rintro protocol rfl hprotocol
    obtain rfl := Option.some.inj h
    show (s.onOpen protocol).ended = true
    rw [State.onOpen, if_pos hprotocol]
    exact State.ended_fail

/-- **Frames reach the socket once and in order.** If the socket opens with the right subprotocol
before the stream ends, exactly the frames passed to `send()` before the end reach it, in the order
they were passed; otherwise none does. None does at any other time than `InTime` allows. -/
theorem sent_in_order (parse : δ → Except (Thrown ε) (Option τ)) (options : StreamOptions)
    (schedule : List (Action δ ε)) :
    EveryStep (step parse) InTime (.init options) schedule ∧
    ∀ s, run (step parse) (.init options) schedule = some s →
      (OpensInTime parse (.init options) schedule →
        s.sent = passed parse (.init options) schedule) ∧
      (¬ OpensInTime parse (.init options) schedule → s.sent = []) := by
  have hinit : (State.init options : State τ ε).Buffers := State.buffers_init options
  have htrue : EveryStep (step parse) (fun _ _ _ => True) (.init options) schedule :=
    EveryStep.of_step (P := fun (_ : State τ ε) _ (_ : State τ ε) => True) fun _ => trivial
  refine ⟨?_, fun s hrun => ?_⟩
  · refine EveryStep.imp_of_inv ?_ hinit htrue
    exact fun hs h _ => ⟨inTime_step hs h, State.buffers_step h hs⟩
  · have hsent := unopened_run hinit rfl rfl hrun
    constructor
    · intro hopens
      rw [if_pos hopens] at hsent
      exact hsent
    · intro hlate
      rw [if_neg hlate] at hsent
      exact hsent

/-- A frame passed before the socket opens, one after it, and one when the stream is closed. -/
theorem sent_in_order_buffered :
    let parse : Unit → Except (Thrown Unit) (Option Unit) := fun _ => .ok none
    let schedule : List (Action Unit Unit) := [.call (.send "a"), .open_ "fissionplane.v1",
      .call (.send "b"), .message () [], .call .close, .call (.send "c")]
    ∃ s, run (step parse) (.init ⟨none, false⟩) schedule = some s ∧ s.sent = ["a", "b"] := by
  intro parse schedule
  refine ⟨_, rfl, ?_⟩
  obtain ⟨hsent, -⟩ := (sent_in_order parse ⟨none, false⟩ schedule).2 _ rfl
  exact hsent (.inr ⟨_, rfl, .inl ⟨rfl, rfl⟩⟩)

end FissionPlane.Sdk.StreamingEvents
