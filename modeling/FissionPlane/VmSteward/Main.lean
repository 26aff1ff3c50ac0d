/-
# FissionPlane.VmSteward.Main -- the steward's main loop over a whole process run

The loop accepts a connection and spawns a task that runs the handshake on it, so any number of
handshakes are in flight at once. A task gives control up twice: until its first frame is in, and
until its answer is written. A run is a schedule of these three kinds of step over any number of
connections, each with arbitrary incoming bytes; the log records, newest first, what was answered
to each first frame and how each handshake ended.

Fencing asks that a session's epoch bounds every handshake processed after it. The loop hands each
task `none` as the epoch held, so no answer depends on an earlier session: fencing holds of a run
exactly when the hosts never present a lower epoch in the first place.
-/
import FissionPlane.Lib.Transition
import FissionPlane.VmSteward.Session

namespace FissionPlane.VmSteward

open FissionPlane.Lib.ProtoWire FissionPlane.Lib.Transition FissionPlane.VmProtocol

/-! ## State and steps -/

/-- How far the task of one connection has got. -/
inductive Task where
  | reading (input : Bytes)
  | writing (j : Judgement)
  | done (result : Except SessionError Session)
  deriving DecidableEq

inductive Event where
  | processed (conn : Nat) (first : Except ProtocolError Frame) (reply : Option Frame)
  | finished (conn : Nat) (result : Except SessionError Session)
  deriving DecidableEq

def Task.isReading : Task → Bool
  | .reading _ => true
  | _ => false

/-- The tasks by connection, and the log, newest event first. -/
structure State where
  tasks : List Task
  log : List Event
  deriving DecidableEq

inductive Action where
  | connect (input : Bytes)
  | read (conn : Nat)
  | write (conn : Nat) (delivered : Bool)
  deriving DecidableEq

def State.init : State := ⟨[], []⟩

variable (P : Prost) (identity : AgentIdentity)

/-- One step of the process; every task runs `accept` with no epoch held. -/
def step (s : State) : Action → Option State
  | .connect input => some { s with tasks := s.tasks ++ [.reading input] }
  | .read conn =>
      match s.tasks[conn]? with
      | some (.reading input) =>
          let first := (readFrame P input maxHelloSize).1
          -- `accept(&mut stream, &identity, None)`: nothing is remembered between connections
          let j := judge identity none first
          some ⟨s.tasks.set conn (.writing j), .processed conn first j.reply :: s.log⟩
      | _ => none
  | .write conn delivered =>
      match s.tasks[conn]? with
      | some (.writing j) =>
          let result := finish P j delivered
          some ⟨s.tasks.set conn (.done result), .finished conn result :: s.log⟩
      | _ => none

/-! ## Fencing -/

/-- The reply is a STALE_EPOCH error frame. -/
def IsStaleEpoch (reply : Option Frame) : Prop :=
  ∃ frame e, reply = some frame ∧ frame.body = some (.error e) ∧
    e.code = ErrorCode.staleEpoch.toInt32

/-- After a session at some epoch, a handshake processed later is answered STALE_EPOCH if its
well-formed `Hello` carries a lower one, and never establishes a session at a lower one. -/
def Fenced (log : List Event) : Prop :=
  ∀ later earlier conn first reply, log = later ++ .processed conn first reply :: earlier →
    ∀ held session, .finished held (.ok session) ∈ earlier →
      (∀ hello, wellFormedHello first = some hello → hello.epoch < session.epoch →
        IsStaleEpoch reply) ∧
      ∀ established, .finished conn (.ok established) ∈ log → ¬ established.epoch < session.epoch

/-- No session already established, at the step that processes a well-formed `Hello`, has an epoch
above the one it carries. -/
def InOrder (s : State) (a : Action) : Prop :=
  ∀ conn input hello, a = .read conn → s.tasks[conn]? = some (.reading input) →
    wellFormedHello (readFrame P input maxHelloSize).1 = some hello →
    ∀ held session, .finished held (.ok session) ∈ s.log → session.epoch ≤ hello.epoch

/-! ## What a step can do -/

variable {P identity} {s s' : State} {a : Action}

theorem step_cases (h : step P identity s a = some s') :
    (∃ input, a = .connect input ∧ s'.tasks = s.tasks ++ [.reading input] ∧ s'.log = s.log) ∨
    (∃ conn input, a = .read conn ∧ s.tasks[conn]? = some (.reading input) ∧
      s'.tasks = s.tasks.set conn
        (.writing (judge identity none (readFrame P input maxHelloSize).1)) ∧
      s'.log = .processed conn (readFrame P input maxHelloSize).1
        (judge identity none (readFrame P input maxHelloSize).1).reply :: s.log) ∨
    (∃ conn delivered j, a = .write conn delivered ∧ s.tasks[conn]? = some (.writing j) ∧
      s'.tasks = s.tasks.set conn (.done (finish P j delivered)) ∧
      s'.log = .finished conn (finish P j delivered) :: s.log) := by
  cases a with
  | connect input =>
      obtain rfl := Option.some.inj h
      exact .inl ⟨input, rfl, rfl, rfl⟩
  | read conn =>
      rw [step] at h
      split at h
      · next input htask =>
          obtain rfl := Option.some.inj h
          exact .inr (.inl ⟨conn, input, rfl, htask, rfl, rfl⟩)
      · cases h
  | write conn delivered =>
      rw [step] at h
      split at h
      · next j htask =>
          obtain rfl := Option.some.inj h
          exact .inr (.inr ⟨conn, delivered, j, rfl, htask, rfl, rfl⟩)
      · cases h

/-! ## What every reachable state keeps -/

/-- The log and the tasks tell one story: a task past its read has one `processed` event, which
answers what `judge` says, and a session stems from the `Hello` of its own connection. -/
structure Inv (identity : AgentIdentity) (s : State) : Prop where
  answered : ∀ {conn first reply}, .processed conn first reply ∈ s.log →
    reply = (judge identity none first).reply
  past : ∀ {conn first reply}, .processed conn first reply ∈ s.log →
    ∃ task, s.tasks[conn]? = some task ∧ task.isReading = false
  once : ∀ {conn first reply first' reply'}, .processed conn first reply ∈ s.log →
    .processed conn first' reply' ∈ s.log → first = first'
  pending : ∀ {conn j}, s.tasks[conn]? = some (.writing j) →
    ∃ first reply, .processed conn first reply ∈ s.log ∧ j = judge identity none first
  session : ∀ {conn session}, .finished conn (.ok session) ∈ s.log →
    ∃ first reply hello, .processed conn first reply ∈ s.log ∧
      wellFormedHello first = some hello ∧ session.epoch = hello.epoch

theorem inv_init : Inv identity State.init where
  answered h := absurd h List.not_mem_nil
  past h := absurd h List.not_mem_nil
  once h := absurd h List.not_mem_nil
  pending h := by cases h
  session h := absurd h List.not_mem_nil

theorem getElem?_connect {tasks : List Task} {input : Bytes} {conn : Nat} {task : Task}
    (h : tasks[conn]? = some task) : (tasks ++ [.reading input])[conn]? = some task := by
  obtain ⟨hlt, _⟩ := List.getElem?_eq_some_iff.mp h
  rw [List.getElem?_append_left hlt, h]

/-- A task that writes is none of the new ones. -/
theorem writing_of_connect {tasks : List Task} {input : Bytes} {conn : Nat} {j : Judgement}
    (h : (tasks ++ [.reading input])[conn]? = some (.writing j)) :
    tasks[conn]? = some (.writing j) := by
  rw [List.getElem?_append] at h
  split at h
  · exact h
  · rw [List.getElem?_singleton] at h
    split at h <;> cases h

theorem inv_connect (hinv : Inv identity s) {input : Bytes}
    (htasks : s'.tasks = s.tasks ++ [.reading input]) (hlog : s'.log = s.log) :
    Inv identity s' where
  answered h := hinv.answered (hlog ▸ h)
  past h := by
    obtain ⟨task, htask, hread⟩ := hinv.past (hlog ▸ h)
    exact ⟨task, by rw [htasks, getElem?_connect htask], hread⟩
  once h h' := hinv.once (hlog ▸ h) (hlog ▸ h')
  pending h := by
    rw [htasks] at h
    rw [hlog]
    exact hinv.pending (writing_of_connect h)
  session h := by
    rw [hlog] at h ⊢
    exact hinv.session h

/-- A task that is still reading has not been processed. -/
theorem Inv.not_processed (hinv : Inv identity s) {conn : Nat} {input : Bytes}
    (htask : s.tasks[conn]? = some (.reading input)) {first : Except ProtocolError Frame}
    {reply : Option Frame} : .processed conn first reply ∉ s.log := by
  intro h
  obtain ⟨task, htask', hread⟩ := hinv.past h
  obtain rfl := Option.some.inj (htask.symm.trans htask')
  cases hread

theorem inv_read (hinv : Inv identity s) {conn : Nat} {input : Bytes}
    {first : Except ProtocolError Frame} (htask : s.tasks[conn]? = some (.reading input))
    (htasks : s'.tasks = s.tasks.set conn (.writing (judge identity none first)))
    (hlog : s'.log = .processed conn first (judge identity none first).reply :: s.log) :
    Inv identity s' := by
  obtain ⟨hlt, -⟩ := List.getElem?_eq_some_iff.mp htask
  -- the other tasks are as they were, and the log has one event more
  have hnew : s'.tasks[conn]? = some (.writing (judge identity none first)) := by
    rw [htasks, List.getElem?_set_self hlt]
  have hold : ∀ c, c ≠ conn → s'.tasks[c]? = s.tasks[c]? := by
    intro c hc
    rw [htasks, List.getElem?_set_ne (Ne.symm hc)]
  have hmem : ∀ {c f r}, .processed c f r ∈ s'.log →
      (c = conn ∧ f = first ∧ r = (judge identity none first).reply) ∨
        .processed c f r ∈ s.log := by
    intro c f r h
    rw [hlog] at h
    rcases List.mem_cons.mp h with h | h
    · cases h
      exact .inl ⟨rfl, rfl, rfl⟩
    · exact .inr h
  have hkeep : ∀ {e}, e ∈ s.log → e ∈ s'.log := fun h => hlog ▸ List.mem_cons_of_mem _ h
  refine ⟨?_, ?_, ?_, ?_, ?_⟩
  · intro c f r h
    rcases hmem h with ⟨-, rfl, rfl⟩ | h
    · rfl
    · exact hinv.answered h
  · intro c f r h
    rcases hmem h with ⟨rfl, -, -⟩ | h
    · exact ⟨_, hnew, rfl⟩
    · obtain ⟨task, htask', hread⟩ := hinv.past h
      have hc : c ≠ conn := by
        rintro rfl
        exact hinv.not_processed htask h
      exact ⟨task, by rw [hold c hc, htask'], hread⟩
  · intro c f r f' r' h h'
    rcases hmem h with ⟨rfl, rfl, -⟩ | h
    · rcases hmem h' with ⟨-, rfl, -⟩ | h'
      · rfl
      · exact absurd h' (hinv.not_processed htask)
    · rcases hmem h' with ⟨rfl, -, -⟩ | h'
      · exact absurd h (hinv.not_processed htask)
      · exact hinv.once h h'
  · intro c j h
    by_cases hc : c = conn
    · subst hc
      obtain rfl := Task.writing.inj (Option.some.inj (hnew.symm.trans h))
      exact ⟨first, _, by rw [hlog]; exact List.mem_cons_self, rfl⟩
    · rw [hold c hc] at h
      obtain ⟨f, r, hf, hj⟩ := hinv.pending h
      exact ⟨f, r, hkeep hf, hj⟩
  · intro c session h
    rw [hlog] at h
    rcases List.mem_cons.mp h with h | h
    · cases h
    · obtain ⟨f, r, hello, hf, hwf, hepoch⟩ := hinv.session h
      exact ⟨f, r, hello, hkeep hf, hwf, hepoch⟩

theorem inv_write (hinv : Inv identity s) {conn : Nat} {delivered : Bool} {j : Judgement}
    (htask : s.tasks[conn]? = some (.writing j))
    (htasks : s'.tasks = s.tasks.set conn (.done (finish P j delivered)))
    (hlog : s'.log = .finished conn (finish P j delivered) :: s.log) : Inv identity s' := by
  obtain ⟨hlt, -⟩ := List.getElem?_eq_some_iff.mp htask
  have hmem : ∀ {c f r}, .processed c f r ∈ s'.log → .processed c f r ∈ s.log := by
    intro c f r h
    rw [hlog] at h
    rcases List.mem_cons.mp h with h | h
    · cases h
    · exact h
  have hkeep : ∀ {e}, e ∈ s.log → e ∈ s'.log := fun h => hlog ▸ List.mem_cons_of_mem _ h
  refine ⟨fun h => hinv.answered (hmem h), ?_, fun h h' => hinv.once (hmem h) (hmem h'), ?_, ?_⟩
  · intro c f r h
    obtain ⟨task, htask', hread⟩ := hinv.past (hmem h)
    by_cases hc : c = conn
    · subst hc
      exact ⟨_, by rw [htasks, List.getElem?_set_self hlt], rfl⟩
    · exact ⟨task, by rw [htasks, List.getElem?_set_ne (Ne.symm hc), htask'], hread⟩
  · intro c j' h
    by_cases hc : c = conn
    · subst hc
      rw [htasks, List.getElem?_set_self hlt] at h
      cases h
    · rw [htasks, List.getElem?_set_ne (Ne.symm hc)] at h
      obtain ⟨f, r, hf, hj⟩ := hinv.pending h
      exact ⟨f, r, hkeep hf, hj⟩
  · intro c session h
    rw [hlog] at h
    rcases List.mem_cons.mp h with h | h
    · obtain ⟨rfl, hok⟩ := Event.finished.inj h
      obtain ⟨first, reply, hf, rfl⟩ := hinv.pending htask
      obtain ⟨hello, hwf, -, hepoch, -⟩ := acknowledged_of_finish_ok hok.symm
      exact ⟨first, reply, hello, hkeep hf, hwf, hepoch⟩
    · obtain ⟨f, r, hello, hf, hwf, hepoch⟩ := hinv.session h
      exact ⟨f, r, hello, hkeep hf, hwf, hepoch⟩

theorem inv_step (hinv : Inv identity s) (h : step P identity s a = some s') : Inv identity s' := by
  obtain ⟨input, -, htasks, hlog⟩ | ⟨conn, input, -, htask, htasks, hlog⟩ |
    ⟨conn, delivered, j, -, htask, htasks, hlog⟩ := step_cases h
  · exact inv_connect hinv htasks hlog
  · exact inv_read hinv htask htasks hlog
  · exact inv_write hinv htask htasks hlog

/-! ## Every handshake is a call of `accept` -/

/-- Whatever the interleaving, a task writes what `accept` would write and ends as it would end. -/
def RunsAccept (P : Prost) (identity : AgentIdentity) (s : State) : Prop :=
  (∀ (conn : Nat) (j : Judgement), s.tasks[conn]? = some (.writing j) →
    ∃ input, j = judge identity none (readFrame P input maxHelloSize).1) ∧
  ∀ conn result, .finished conn result ∈ s.log →
    ∃ input delivered, result = accept P identity none input delivered

theorem runsAccept_step (hinv : RunsAccept P identity s) (h : step P identity s a = some s') :
    RunsAccept P identity s' := by
  obtain ⟨hwriting, hfinished⟩ := hinv
  obtain ⟨input, -, htasks, hlog⟩ | ⟨conn, input, -, htask, htasks, hlog⟩ |
    ⟨conn, delivered, j, -, htask, htasks, hlog⟩ := step_cases h
  · refine ⟨fun c j hj => ?_, fun c result hr => hfinished c result (hlog ▸ hr)⟩
    rw [htasks] at hj
    exact hwriting c j (writing_of_connect hj)
  · refine ⟨fun c j hj => ?_, fun c result hr => ?_⟩
    · rw [htasks, List.getElem?_set] at hj
      split at hj
      · split at hj
        · exact ⟨input, (Task.writing.inj (Option.some.inj hj)).symm⟩
        · cases hj
      · exact hwriting c j hj
    · rw [hlog] at hr
      rcases List.mem_cons.mp hr with hr | hr
      · cases hr
      · exact hfinished c result hr
  · refine ⟨fun c j' hj => ?_, fun c result hr => ?_⟩
    · rw [htasks, List.getElem?_set] at hj
      split at hj
      · split at hj <;> cases hj
      · exact hwriting c j' hj
    · rw [hlog] at hr
      rcases List.mem_cons.mp hr with hr | hr
      · obtain ⟨-, rfl⟩ := Event.finished.inj hr
        obtain ⟨input, rfl⟩ := hwriting conn j htask
        exact ⟨input, delivered, rfl⟩
      · exact hfinished c result hr

theorem runsAccept_run {as : List Action} {t : State}
    (h : run (step P identity) State.init as = some t) : RunsAccept P identity t :=
  run_inv runsAccept_step ⟨fun _ _ hj => (by cases hj), fun _ _ hr => absurd hr List.not_mem_nil⟩ h

/-! ## The order of epochs over a run -/

/-- The same order, read off the log once the run is over. -/
def OrderedLog (log : List Event) : Prop :=
  ∀ later earlier conn first reply, log = later ++ .processed conn first reply :: earlier →
    ∀ hello, wellFormedHello first = some hello →
      ∀ held session, .finished held (.ok session) ∈ earlier → session.epoch ≤ hello.epoch

theorem orderedLog_cons {e : Event} {log : List Event} :
    OrderedLog (e :: log) ↔
      OrderedLog log ∧ ∀ conn first reply, e = .processed conn first reply →
        ∀ hello, wellFormedHello first = some hello →
          ∀ held session, .finished held (.ok session) ∈ log → session.epoch ≤ hello.epoch := by
  constructor
  · intro h
    refine ⟨fun later earlier conn first reply hlog => ?_, fun conn first reply he => ?_⟩
    · exact h (e :: later) earlier conn first reply (by rw [hlog, List.cons_append])
    · exact h [] log conn first reply (by rw [he, List.nil_append])
  · rintro ⟨hlog, hhead⟩ later earlier conn first reply heq
    cases later with
    | nil =>
        obtain ⟨rfl, rfl⟩ := List.cons.inj heq
        exact hhead conn first reply rfl
    | cons e' later =>
        obtain ⟨-, rfl⟩ := List.cons.inj heq
        exact hlog later earlier conn first reply rfl

/-- A step keeps the log in order exactly when it meets the condition on its own input. -/
theorem orderedLog_step (h : step P identity s a = some s') :
    OrderedLog s'.log ↔ OrderedLog s.log ∧ InOrder P s a := by
  obtain ⟨input, rfl, -, hlog⟩ | ⟨conn, input, rfl, htask, -, hlog⟩ |
    ⟨conn, delivered, j, rfl, -, -, hlog⟩ := step_cases h
  · rw [hlog]
    exact ⟨fun ho => ⟨ho, fun _ _ _ ha => by cases ha⟩, And.left⟩
  · rw [hlog, orderedLog_cons]
    refine and_congr_right fun _ => ⟨fun hhead => ?_, fun hin => ?_⟩
    · intro c input' hello ha htask' hwf
      cases ha
      obtain rfl := Task.reading.inj (Option.some.inj (htask.symm.trans htask'))
      exact hhead _ _ _ rfl hello hwf
    · intro c first reply he hello hwf
      cases he
      exact hin conn input hello rfl htask hwf
  · rw [hlog, orderedLog_cons]
    refine and_congr_right fun _ => ⟨fun _ => ?_, fun _ => ?_⟩
    · intro _ _ _ ha
      cases ha
    · intro _ _ _ he
      cases he

theorem orderedLog_run : ∀ {as : List Action} {s t : State},
    run (step P identity) s as = some t →
      (OrderedLog t.log ↔
        OrderedLog s.log ∧ EveryStep (step P identity) (fun s a _ => InOrder P s a) s as)
  | [], s, t, h => by
      obtain rfl := Option.some.inj h
      exact ⟨fun ho => ⟨ho, trivial⟩, And.left⟩
  | a :: as, s, t, h => by
      obtain ⟨s', hs', ht⟩ := run_cons_eq_some.mp h
      rw [orderedLog_run ht, orderedLog_step hs', everyStep_cons hs', and_assoc]

/-- Fencing and the order of the epochs presented are the same property of a reachable log. -/
theorem fenced_iff_orderedLog (hinv : Inv identity s) : Fenced s.log ↔ OrderedLog s.log := by
  constructor
  · intro hf later earlier conn first reply hlog hello hwf held session hheld
    have hmem : .processed conn first reply ∈ s.log := by
      rw [hlog]
      exact List.mem_append_right _ List.mem_cons_self
    by_contra hlt
    obtain ⟨frame, e, hreply, hbody, -⟩ :=
      (hf later earlier conn first reply hlog held session hheld).1 hello hwf
        (UInt64.not_le.mp hlt)
    -- with no epoch held the answer is the acknowledgement
    rw [hinv.answered hmem, judge_of_wellFormed hwf, judgeHello_none] at hreply
    obtain rfl := Option.some.inj hreply
    cases hbody
  · intro ho later earlier conn first reply hlog held session hheld
    have hmem : .processed conn first reply ∈ s.log := by
      rw [hlog]
      exact List.mem_append_right _ List.mem_cons_self
    refine ⟨fun hello hwf hlt => ?_, fun established hest hlt => ?_⟩
    · exact absurd hlt
        (UInt64.not_lt.mpr (ho later earlier conn first reply hlog hello hwf held session hheld))
    · obtain ⟨first', reply', hello, hmem', hwf, hepoch⟩ := hinv.session hest
      -- one connection is processed once, so the session stems from this very `Hello`
      obtain rfl := hinv.once hmem hmem'
      have hle := ho later earlier conn first reply hlog hello hwf held session hheld
      rw [hepoch] at hlt
      exact absurd hlt (UInt64.not_lt.mpr hle)

/-- A run is fenced exactly when every well-formed `Hello` it processes carries an epoch at least
that of every session established before. -/
theorem fenced_iff_inOrder {as : List Action} {t : State}
    (h : run (step P identity) State.init as = some t) :
    Fenced t.log ↔ EveryStep (step P identity) (fun s a _ => InOrder P s a) State.init as := by
  have hinv : Inv identity t := run_inv inv_step inv_init h
  rw [fenced_iff_orderedLog hinv, orderedLog_run h]
  refine and_iff_right ?_
  intro later earlier conn first reply hlog
  cases later <;> cases hlog

/-- A `Hello` frame of version 1 with small limits, as a host at this epoch writes it. -/
def helloBytes (epoch : UInt8) : Bytes :=
  [0, 0, 0, 14, 16, epoch, 26, 10, 8, 1, 16, epoch, 24, 128, 8, 32, 128, 4]

def helloFrame (epoch : UInt64) : Frame :=
  ⟨streamIdSession, epoch, some (.hello ⟨protocolVersion, epoch, 1024, 512⟩)⟩

def helloSession (epoch : UInt64) : Session := ⟨epoch, ⟨1024, 512⟩, .join⟩

/-- What a whole handshake of connection `conn` at `epoch` leaves in the log. -/
def helloLog (conn : Nat) (epoch : UInt64) : List Event :=
  [.finished conn (.ok (helloSession epoch)),
    .processed conn (.ok (helloFrame epoch))
      (some (ackReply .current ⟨protocolVersion, epoch, 1024, 512⟩))]

/-- Two handshakes, one after the other. -/
def twoHandshakes (first second : UInt8) : List Action :=
  [.connect (helloBytes first), .read 0, .write 0 true,
    .connect (helloBytes second), .read 1, .write 1 true]

theorem run_twoHandshakes_rising :
    run (step vmProto .current) .init (twoHandshakes 9 10) =
      some ⟨[.done (.ok (helloSession 9)), .done (.ok (helloSession 10))],
        helloLog 1 10 ++ helloLog 0 9⟩ := by
  decide +kernel

theorem run_twoHandshakes_falling :
    run (step vmProto .current) .init (twoHandshakes 10 9) =
      some ⟨[.done (.ok (helloSession 10)), .done (.ok (helloSession 9))],
        helloLog 1 9 ++ helloLog 0 10⟩ := by
  decide +kernel

/-- Epoch 9 and then 10: the condition and the fencing stand or fall together. -/
theorem fenced_rising :
    Fenced (helloLog 1 10 ++ helloLog 0 9) ↔
      EveryStep (step vmProto .current) (fun s a _ => InOrder vmProto s a) State.init
        (twoHandshakes 9 10) :=
  fenced_iff_inOrder run_twoHandshakes_rising

/-- Epoch 10 and then 9: the second host is acknowledged and gets a session. -/
theorem not_fenced_falling :
    ∃ t, run (step vmProto .current) .init (twoHandshakes 10 9) = some t ∧ ¬ Fenced t.log := by
  refine ⟨_, run_twoHandshakes_falling, fun h => ?_⟩
  have hlater := (h [.finished 1 (.ok (helloSession 9))] (helloLog 0 10) 1 _ _ rfl 0
    (helloSession 10) List.mem_cons_self).2 (helloSession 9) List.mem_cons_self
  exact hlater (by decide)

end FissionPlane.VmSteward
