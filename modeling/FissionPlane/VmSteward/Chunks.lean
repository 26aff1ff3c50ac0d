/-
# FissionPlane.VmSteward.Chunks -- the steward at the level of bytes

`VmSteward.Main` gives each connection its whole input at once and lets a task take its first frame
in one step. Here the bytes of every connection come in pieces, the pieces of different connections
in any order, and an answer leaves in pieces too; a task is suspended between any two of them.

The two levels have the same logs. Towards `Main`, a connection is given what it will have received
by the end of the run, which is why the simulation needs to know the future; the other way round, a
frame is handed over in at most three pieces.
-/
import FissionPlane.Lib.Simulation
import FissionPlane.VmProtocol.Chunks
import FissionPlane.VmSteward.Main

namespace FissionPlane.VmSteward.Chunks

open FissionPlane.Lib.ProtoWire FissionPlane.Lib.Transition FissionPlane.VmProtocol
open FissionPlane.VmProtocol.Chunks (Arrival Reading Stands)

/-! ## State and steps -/

/-- How far the task of one connection has got: in the read of its first frame, or with these bytes
of its answer still to be written. -/
inductive Task where
  | reading (reading : Reading)
  | writing (j : Judgement) (pending : Bytes)
  | done (result : Except SessionError Session)
  deriving DecidableEq

/-- A connection, with what has come in on it and gone out on it so far. -/
structure Conn where
  received : Bytes
  sent : Bytes
  task : Task
  deriving DecidableEq

structure State where
  conns : List Conn
  log : List Event
  deriving DecidableEq

inductive Action where
  | connect
  | arrive (conn : Nat) (arrival : Arrival)
  /-- The transport takes this many bytes of the answer. -/
  | accepted (conn : Nat) (n : Nat)
  | flushed (conn : Nat)
  | broken (conn : Nat)

def State.init : State := ⟨[], []⟩

variable (P : Prost) (identity : AgentIdentity)

/-- The bytes a judgement has to write, if any. -/
def replyBytes (j : Judgement) : Bytes :=
  match j.reply with
  | none => []
  | some reply =>
      match writeFrame P reply maxHelloSize with
      | .error _ => []
      | .ok bytes => bytes

/-- The task once its read has got this far; a frame that is in is judged at once. -/
def Task.next : Reading → Task
  | .done first => .writing (judge identity none first) (replyBytes P (judge identity none first))
  | suspended => .reading suspended

/-- What goes into the log with it. -/
def processed (conn : Nat) : Reading → List Event
  | .done first => [.processed conn first (judge identity none first).reply]
  | _ => []

def step (s : State) : Action → Option State
  | .connect => some { s with conns := s.conns ++ [⟨[], [], .reading .start⟩] }
  | .arrive conn arrival =>
      match s.conns[conn]? with
      | some ⟨received, sent, .reading reading⟩ =>
          (VmProtocol.Chunks.step P maxHelloSize reading arrival).map fun reading =>
            ⟨s.conns.set conn ⟨received ++ arrival.bytes, sent, .next P identity reading⟩,
              processed identity conn reading ++ s.log⟩
      | _ => none
  | .accepted conn n =>
      match s.conns[conn]? with
      | some ⟨received, sent, .writing j pending⟩ =>
          if 0 < n ∧ n ≤ pending.length then
            some { s with
              conns := s.conns.set conn
                ⟨received, sent ++ pending.take n, .writing j (pending.drop n)⟩ }
          else none
      | _ => none
  | .flushed conn =>
      match s.conns[conn]? with
      | some ⟨received, sent, .writing j []⟩ =>
          some ⟨s.conns.set conn ⟨received, sent, .done (finish P j true)⟩,
            .finished conn (finish P j true) :: s.log⟩
      | _ => none
  | .broken conn =>
      match s.conns[conn]? with
      | some ⟨received, sent, .writing j _⟩ =>
          some ⟨s.conns.set conn ⟨received, sent, .done (finish P j false)⟩,
            .finished conn (finish P j false) :: s.log⟩
      | _ => none

/-! ## What a step can do -/

variable {P identity} {s s' : State} {a : Action}

theorem step_cases (h : step P identity s a = some s') :
    (a = .connect ∧ s' = ⟨s.conns ++ [⟨[], [], .reading .start⟩], s.log⟩) ∨
    (∃ conn arrival received sent reading reading', a = .arrive conn arrival ∧
      s.conns[conn]? = some ⟨received, sent, .reading reading⟩ ∧
      VmProtocol.Chunks.step P maxHelloSize reading arrival = some reading' ∧
      s' = ⟨s.conns.set conn ⟨received ++ arrival.bytes, sent, .next P identity reading'⟩,
        processed identity conn reading' ++ s.log⟩) ∨
    (∃ conn n received sent j pending, a = .accepted conn n ∧ n ≤ pending.length ∧
      s.conns[conn]? = some ⟨received, sent, .writing j pending⟩ ∧
      s' = ⟨s.conns.set conn ⟨received, sent ++ pending.take n, .writing j (pending.drop n)⟩,
        s.log⟩) ∨
    (∃ conn delivered received sent j pending, (delivered = true → pending = []) ∧
      s.conns[conn]? = some ⟨received, sent, .writing j pending⟩ ∧
      s' = ⟨s.conns.set conn ⟨received, sent, .done (finish P j delivered)⟩,
        .finished conn (finish P j delivered) :: s.log⟩) := by
  cases a with
  | connect =>
      obtain rfl := Option.some.inj h
      exact .inl ⟨rfl, rfl⟩
  | arrive conn arrival =>
      rw [step] at h
      split at h
      · next received sent reading hconn =>
          obtain ⟨reading', hreading, rfl⟩ := Option.map_eq_some_iff.mp h
          exact .inr (.inl
            ⟨conn, arrival, received, sent, reading, reading', rfl, hconn, hreading, rfl⟩)
      · cases h
  | accepted conn n =>
      rw [step] at h
      split at h
      · next received sent j pending hconn =>
          split at h
          · next hn =>
              obtain rfl := Option.some.inj h
              exact .inr (.inr (.inl
                ⟨conn, n, received, sent, j, pending, rfl, hn.2, hconn, rfl⟩))
          · cases h
      · cases h
  | flushed conn =>
      rw [step] at h
      split at h
      · next received sent j hconn =>
          obtain rfl := Option.some.inj h
          exact .inr (.inr (.inr
            ⟨conn, true, received, sent, j, [], fun _ => rfl, hconn, rfl⟩))
      · cases h
  | broken conn =>
      rw [step] at h
      split at h
      · next received sent j pending hconn =>
          obtain rfl := Option.some.inj h
          exact .inr (.inr (.inr
            ⟨conn, false, received, sent, j, pending, nofun, hconn, rfl⟩))
      · cases h

/-- What a step makes of one connection: the others are as they were. -/
theorem getElem?_set_cases {conns : List Conn} {conn i : Nat} {c c' old : Conn}
    (hold : conns[conn]? = some old) (h : (conns.set conn c)[i]? = some c') :
    (i = conn ∧ c' = c) ∨ (i ≠ conn ∧ conns[i]? = some c') := by
  by_cases hi : i = conn
  · subst hi
    obtain ⟨hlt, -⟩ := List.getElem?_eq_some_iff.mp hold
    rw [List.getElem?_set_self hlt] at h
    exact .inl ⟨rfl, (Option.some.inj h).symm⟩
  · rw [List.getElem?_set_ne (Ne.symm hi)] at h
    exact .inr ⟨hi, h⟩

theorem getElem?_append_cases {conns : List Conn} {i : Nat} {c c' : Conn}
    (h : (conns ++ [c])[i]? = some c') :
    (i = conns.length ∧ c' = c) ∨ conns[i]? = some c' := by
  rw [List.getElem?_append] at h
  split at h
  · exact .inr h
  · rw [List.getElem?_singleton] at h
    split at h
    · next hge hi =>
        refine .inl ⟨by omega, (Option.some.inj h).symm⟩
    · cases h

variable (P identity) in
theorem next_of_ne_done (conn : Nat) {r : Reading} (h : ∀ first, r ≠ .done first) :
    Task.next P identity r = .reading r ∧ processed identity conn r = [] := by
  cases r with
  | done first => exact absurd rfl (h first)
  | lengthPrefix filled => exact ⟨rfl, rfl⟩
  | body len filled => exact ⟨rfl, rfl⟩

/-! ## The future of a connection -/

/-- Nothing more comes in on a connection whose frame is in. -/
def Task.isReading : Task → Prop
  | .reading _ => True
  | _ => False

/-- `full` is what each connection will have received: what has come in is the beginning of it, and
all of it once the first frame is in. -/
def Towards (full : Nat → Bytes) (s : State) : Prop :=
  ∀ i c, s.conns[i]? = some c → c.received <+: full i ∧
    (¬ c.task.isReading → c.received = full i)

theorem towards_back {full : Nat → Bytes} (h : step P identity s a = some s')
    (hs' : Towards full s') : Towards full s := by
  intro i c hc
  obtain ⟨-, rfl⟩ | ⟨conn, arrival, received, sent, reading, reading', -, hconn, -, rfl⟩ |
    ⟨conn, n, received, sent, j, pending, -, -, hconn, rfl⟩ |
    ⟨conn, delivered, received, sent, j, pending, -, hconn, rfl⟩ := step_cases h
  · apply hs'
    obtain ⟨hlt, -⟩ := List.getElem?_eq_some_iff.mp hc
    rw [List.getElem?_append_left hlt, hc]
  all_goals
    obtain ⟨hlt, -⟩ := List.getElem?_eq_some_iff.mp hconn
    by_cases hi : i = conn
    · subst hi
      obtain rfl := Option.some.inj (hc.symm.trans hconn)
      have hafter := hs' i _ (List.getElem?_set_self hlt)
      first
      | exact ⟨(List.prefix_append _ _).trans hafter.1, fun hread => absurd trivial hread⟩
      | exact ⟨hafter.1, fun _ => hafter.2 (by simp [Task.isReading])⟩
    · exact hs' i c (by rw [List.getElem?_set_ne (Ne.symm hi), hc])

/-! ## Towards the main loop -/

/-- The task of `Main` on a connection that will have received `input`. -/
def Task.main (input : Bytes) : Task → VmSteward.Task
  | .reading _ => .reading input
  | .writing j _ => .writing j
  | .done result => .done result

/-- The state of `Main` over the same connections, each with its whole input. -/
structure Rel (P : Prost) (full : Nat → Bytes) (s : State) (t : VmSteward.State) : Prop where
  log : t.log = s.log
  length : t.tasks.length = s.conns.length
  task : ∀ {i : Nat} {c : Conn}, s.conns[i]? = some c → t.tasks[i]? = some (c.task.main (full i))
  stands : ∀ {i : Nat} {c : Conn} {r : Reading}, s.conns[i]? = some c → c.task = .reading r →
    Stands P maxHelloSize c.received r

/-- The frame that is in after an arrival is the first one of all that comes in. -/
theorem first_of_arrival {received rest : Bytes} {r : Reading} {arrival : Arrival}
    {first : Except ProtocolError Frame} (hs : Stands P maxHelloSize received r)
    (h : VmProtocol.Chunks.step P maxHelloSize r arrival = some (.done first))
    (hrest : arrival = .endOfStream → rest = []) :
    (readFrame P (received ++ arrival.bytes ++ rest) maxHelloSize).1 = first := by
  cases arrival with
  | chunk bytes =>
      have hdone := VmProtocol.Chunks.stands_chunk hs h
      rw [Arrival.bytes, hdone rest]
  | endOfStream =>
      obtain ⟨hwaiting, hio⟩ := VmProtocol.Chunks.step_endOfStream h
      rw [hrest rfl, Arrival.bytes, List.append_nil, List.append_nil, (hs.waiting hwaiting).2.1]
      exact (Reading.done.inj hio).symm

theorem rel_step {full : Nat → Bytes} {t : VmSteward.State} (hR : Rel P full s t)
    (h : step P identity s a = some s') (hs' : Towards full s') :
    ∃ as t', run (VmSteward.step P identity) t as = some t' ∧ Rel P full s' t' := by
  obtain ⟨-, rfl⟩ | ⟨conn, arrival, received, sent, r, r', -, hconn, hstep, rfl⟩ |
    ⟨conn, n, received, sent, j, pending, -, -, hconn, rfl⟩ |
    ⟨conn, delivered, received, sent, j, pending, -, hconn, rfl⟩ := step_cases h
  · -- a connection gets all that will come in on it
    refine ⟨[.connect (full s.conns.length)],
      { t with tasks := t.tasks ++ [.reading (full s.conns.length)] }, run_singleton rfl,
      hR.log, by simp [hR.length], ?_, ?_⟩
    · intro i c hc
      rcases getElem?_append_cases hc with ⟨rfl, rfl⟩ | hc
      · rw [List.getElem?_append_right (Nat.le_of_eq hR.length), hR.length]
        simp [Task.main]
      · have htask := hR.task hc
        obtain ⟨hlt, -⟩ := List.getElem?_eq_some_iff.mp htask
        rw [List.getElem?_append_left hlt, htask]
    · intro i c r hc hr
      rcases getElem?_append_cases hc with ⟨rfl, rfl⟩ | hc
      · obtain rfl := Task.reading.inj hr
        exact VmProtocol.Chunks.stands_start P maxHelloSize
      · exact hR.stands hc hr
  · have hstands : Stands P maxHelloSize received r := hR.stands hconn rfl
    have htask : t.tasks[conn]? = some (.reading (full conn)) := hR.task hconn
    obtain ⟨hlt, -⟩ := List.getElem?_eq_some_iff.mp hconn
    obtain ⟨hlt', -⟩ := List.getElem?_eq_some_iff.mp htask
    rcases VmProtocol.Chunks.reading_cases r' with ⟨first, rfl⟩ | hmore
    · -- the frame is in: `Main` takes it from the whole input
      obtain ⟨⟨rest, hfull⟩, hended⟩ := hs' conn _ (List.getElem?_set_self hlt)
      have hall := hended (by simp [Task.next, Task.isReading])
      have hfirst : (readFrame P (full conn) maxHelloSize).1 = first := by
        rw [← hfull]
        apply first_of_arrival hstands hstep
        intro _
        have : received ++ arrival.bytes ++ rest = received ++ arrival.bytes :=
          hfull.trans hall.symm
        exact List.append_right_eq_self.mp this
      refine ⟨[.read conn], ⟨t.tasks.set conn (.writing (judge identity none first)),
        .processed conn first (judge identity none first).reply :: t.log⟩, ?_, ?_, ?_, ?_, ?_⟩
      · apply run_singleton
        rw [VmSteward.step, htask]
        dsimp only
        rw [hfirst]
      · rw [hR.log]
        rfl
      · simp [hR.length]
      · intro i c hc
        rcases getElem?_set_cases hconn hc with ⟨rfl, rfl⟩ | ⟨hi, hc⟩
        · rw [List.getElem?_set_self hlt']
          rfl
        · rw [List.getElem?_set_ne (Ne.symm hi)]
          exact hR.task hc
      · intro i c r hc hr
        rcases getElem?_set_cases hconn hc with ⟨rfl, rfl⟩ | ⟨-, hc⟩
        · cases hr
        · exact hR.stands hc hr
    · -- the frame is not in yet: `Main` has nothing to do
      obtain ⟨hnext, hprocessed⟩ := next_of_ne_done P identity conn hmore
      refine ⟨[], t, rfl, ?_, ?_, ?_, ?_⟩
      · rw [hprocessed]
        exact hR.log
      · simp [hR.length]
      · intro i c hc
        rcases getElem?_set_cases hconn hc with ⟨rfl, rfl⟩ | ⟨-, hc⟩
        · rw [hnext]
          exact htask
        · exact hR.task hc
      · intro i c r'' hc hr
        rcases getElem?_set_cases hconn hc with ⟨rfl, rfl⟩ | ⟨-, hc⟩
        · rw [hnext] at hr
          obtain rfl := Task.reading.inj hr
          cases arrival with
          | chunk bytes => exact VmProtocol.Chunks.stands_chunk hstands hstep
          | endOfStream =>
              exact absurd (VmProtocol.Chunks.step_endOfStream hstep).2 (hmore _)
        · exact hR.stands hc hr
  · -- a part of the answer goes out
    have htask : t.tasks[conn]? = some (.writing j) := hR.task hconn
    refine ⟨[], t, rfl, hR.log, by simp [hR.length], ?_, ?_⟩
    · intro i c hc
      rcases getElem?_set_cases hconn hc with ⟨rfl, rfl⟩ | ⟨-, hc⟩
      · exact htask
      · exact hR.task hc
    · intro i c r hc hr
      rcases getElem?_set_cases hconn hc with ⟨rfl, rfl⟩ | ⟨-, hc⟩
      · cases hr
      · exact hR.stands hc hr
  · have htask : t.tasks[conn]? = some (.writing j) := hR.task hconn
    obtain ⟨hlt', -⟩ := List.getElem?_eq_some_iff.mp htask
    refine ⟨[.write conn delivered], ⟨t.tasks.set conn (.done (finish P j delivered)),
      .finished conn (finish P j delivered) :: t.log⟩, ?_, ?_, ?_, ?_, ?_⟩
    · apply run_singleton
      rw [VmSteward.step, htask]
    · rw [hR.log]
    · simp [hR.length]
    · intro i c hc
      rcases getElem?_set_cases hconn hc with ⟨rfl, rfl⟩ | ⟨hi, hc⟩
      · rw [List.getElem?_set_self hlt']
        rfl
      · rw [List.getElem?_set_ne (Ne.symm hi)]
        exact hR.task hc
    · intro i c r hc hr
      rcases getElem?_set_cases hconn hc with ⟨rfl, rfl⟩ | ⟨-, hc⟩
      · cases hr
      · exact hR.stands hc hr

/-- The bytes each connection has received by now, as the future of an earlier state. -/
def receivedAt (s : State) (i : Nat) : Bytes := ((s.conns[i]?).map Conn.received).getD []

theorem towards_self (s : State) : Towards (receivedAt s) s := by
  intro i c hc
  have : receivedAt s i = c.received := by rw [receivedAt, hc]; rfl
  rw [this]
  exact ⟨List.prefix_rfl, fun _ => rfl⟩

theorem rel_init (full : Nat → Bytes) : Rel P full State.init VmSteward.State.init where
  log := rfl
  length := rfl
  task h := by cases h
  stands h := by cases h

/-! ## From the main loop -/

/-- A connection on which nothing is pending in the middle of a step of `Main`. -/
def Between (P : Prost) : VmSteward.Task → Conn → Prop
  | .reading _, c => c.task = .reading .start
  | .writing j, c => c.task = .writing j (replyBytes P j)
  | .done result, c => c.task = .done result

structure Matches (P : Prost) (t : VmSteward.State) (s : State) : Prop where
  log : s.log = t.log
  length : s.conns.length = t.tasks.length
  between : ∀ {i : Nat} {task : VmSteward.Task} {c : Conn}, t.tasks[i]? = some task →
    s.conns[i]? = some c → Between P task c

theorem set_self {conns : List Conn} {conn : Nat} {c : Conn} (h : conns[conn]? = some c) :
    conns.set conn c = conns := by
  obtain ⟨hlt, rfl⟩ := List.getElem?_eq_some_iff.mp h
  exact List.set_getElem_self hlt

/-- Arrivals on one connection, one after the other. -/
theorem run_arrivals {conn : Nat} {sent : Bytes} : ∀ {arrivals : List Arrival} {s : State}
    {received : Bytes} {r r' : Reading}, (∀ first, r ≠ .done first) →
    s.conns[conn]? = some ⟨received, sent, .reading r⟩ →
    run (VmProtocol.Chunks.step P maxHelloSize) r arrivals = some r' →
    ∃ received', run (step P identity) s (arrivals.map (.arrive conn)) =
      some ⟨s.conns.set conn ⟨received', sent, .next P identity r'⟩,
        processed identity conn r' ++ s.log⟩
  | [], s, received, r, r', hr, hconn, h => by
      obtain rfl := Option.some.inj h
      obtain ⟨hnext, hprocessed⟩ := next_of_ne_done P identity conn hr
      refine ⟨received, ?_⟩
      rw [hnext, hprocessed, set_self hconn]
      rfl
  | arrival :: arrivals, s, received, r, r', hr, hconn, h => by
      obtain ⟨r₁, hr₁, hrest⟩ := run_cons_eq_some.mp h
      obtain ⟨hlt, -⟩ := List.getElem?_eq_some_iff.mp hconn
      have hstep : step P identity s (.arrive conn arrival) =
          some ⟨s.conns.set conn ⟨received ++ arrival.bytes, sent, .next P identity r₁⟩,
            processed identity conn r₁ ++ s.log⟩ := by
        rw [step, hconn]
        dsimp only
        rw [hr₁]
        rfl
      rcases VmProtocol.Chunks.reading_cases r₁ with ⟨first, rfl⟩ | hr₁'
      · -- nothing comes in any more
        cases arrivals with
        | nil =>
            obtain rfl := Option.some.inj hrest
            exact ⟨_, run_singleton hstep⟩
        | cons next arrivals =>
            obtain ⟨r₂, hr₂, -⟩ := run_cons_eq_some.mp hrest
            cases next with
            | chunk bytes =>
                rw [VmProtocol.Chunks.step_done] at hr₂
                cases hr₂
            | endOfStream => cases hr₂
      · obtain ⟨hnext, hprocessed⟩ := next_of_ne_done P identity conn hr₁'
        rw [hnext, hprocessed, List.nil_append] at hstep
        obtain ⟨received', hrun⟩ := run_arrivals (s := ⟨s.conns.set conn
            ⟨received ++ arrival.bytes, sent, .reading r₁⟩, s.log⟩) hr₁'
          (List.getElem?_set_self hlt) hrest
        refine ⟨received', run_cons_eq_some.mpr ⟨_, hstep, ?_⟩⟩
        rw [hrun, List.set_set]

/-- The answer goes out whole, or the transport fails. -/
theorem run_finish {conn : Nat} {received sent : Bytes} {j : Judgement} {pending : Bytes}
    (hconn : s.conns[conn]? = some ⟨received, sent, .writing j pending⟩) (delivered : Bool) :
    ∃ as sent', run (step P identity) s as =
      some ⟨s.conns.set conn ⟨received, sent', .done (finish P j delivered)⟩,
        .finished conn (finish P j delivered) :: s.log⟩ := by
  obtain ⟨hlt, -⟩ := List.getElem?_eq_some_iff.mp hconn
  cases delivered with
  | false =>
      refine ⟨[.broken conn], sent, run_singleton ?_⟩
      rw [step, hconn]
  | true =>
      cases pending with
      | nil =>
          refine ⟨[.flushed conn], sent, run_singleton ?_⟩
          rw [step, hconn]
      | cons b pending =>
          have hall : step P identity s (.accepted conn (b :: pending).length) =
              some { s with
                conns := s.conns.set conn ⟨received, sent ++ b :: pending, .writing j []⟩ } := by
            rw [step, hconn]
            dsimp only
            rw [if_pos ⟨Nat.succ_pos _, Nat.le_refl _⟩, List.take_length, List.drop_length]
          refine ⟨[.accepted conn (b :: pending).length, .flushed conn], sent ++ b :: pending,
            run_cons_eq_some.mpr ⟨_, hall, run_singleton ?_⟩⟩
          rw [step, List.getElem?_set_self hlt]
          dsimp only
          rw [List.set_set]

theorem matches_step {t t' : VmSteward.State} {a : VmSteward.Action} (hM : Matches P t s)
    (h : VmSteward.step P identity t a = some t') :
    ∃ as s', run (step P identity) s as = some s' ∧ Matches P t' s' := by
  have hconnOf : ∀ {conn : Nat} {task : VmSteward.Task}, t.tasks[conn]? = some task →
      ∃ c, s.conns[conn]? = some c := by
    intro conn task htask
    obtain ⟨hlt, -⟩ := List.getElem?_eq_some_iff.mp htask
    exact ⟨_, List.getElem?_eq_getElem (hM.length ▸ hlt)⟩
  -- what is left to show once the task and the connection have been replaced
  have hset : ∀ {conn : Nat} {task task' : VmSteward.Task} {c c' : Conn} {e : Event},
      t.tasks[conn]? = some task → s.conns[conn]? = some c → Between P task' c' →
        Matches P ⟨t.tasks.set conn task', e :: t.log⟩
        ⟨s.conns.set conn c', e :: s.log⟩ := by
    intro conn task task' c e c' htask hconn hbetween
    obtain ⟨hlt, -⟩ := List.getElem?_eq_some_iff.mp htask
    refine ⟨by rw [hM.log], by simp [hM.length], ?_⟩
    intro i task'' c'' hi hi'
    rcases getElem?_set_cases hconn hi' with ⟨rfl, rfl⟩ | ⟨hne, hi'⟩
    · rw [List.getElem?_set_self hlt] at hi
      obtain rfl := Option.some.inj hi
      exact hbetween
    · rw [List.getElem?_set_ne (Ne.symm hne)] at hi
      exact hM.between hi hi'
  obtain ⟨input, -, htasks, hlog⟩ | ⟨conn, input, -, htask, htasks, hlog⟩ |
    ⟨conn, delivered, j, -, htask, htasks, hlog⟩ := VmSteward.step_cases h
  · refine ⟨[.connect], _, run_singleton rfl, by rw [hlog]; exact hM.log, ?_, ?_⟩
    · rw [htasks]
      simp [hM.length]
    · intro i task c hi hi'
      rw [htasks] at hi
      rcases getElem?_append_cases hi' with ⟨rfl, rfl⟩ | hi'
      · rw [List.getElem?_append_right (Nat.le_of_eq hM.length.symm), hM.length] at hi
        obtain rfl := Option.some.inj ((by simpa using hi) :
          some (VmSteward.Task.reading input) = some task)
        rfl
      · obtain ⟨hlt, -⟩ := List.getElem?_eq_some_iff.mp hi'
        rw [List.getElem?_append_left (hM.length ▸ hlt)] at hi
        exact hM.between hi hi'
  · obtain ⟨⟨received, sent, task⟩, hconn⟩ := hconnOf htask
    obtain rfl : task = .reading .start := hM.between htask hconn
    obtain ⟨arrivals, harrivals⟩ := VmProtocol.Chunks.exists_arrivals P maxHelloSize input
    have hstart : ∀ first, Reading.start ≠ .done first := nofun
    obtain ⟨received', hrun⟩ := run_arrivals hstart hconn harrivals
    refine ⟨_, _, hrun, ?_⟩
    have ht' : t' = ⟨t.tasks.set conn (.writing (judge identity none
        (readFrame P input maxHelloSize).1)), .processed conn (readFrame P input maxHelloSize).1
        (judge identity none (readFrame P input maxHelloSize).1).reply :: t.log⟩ := by
      rw [← htasks, ← hlog]
    rw [ht']
    exact hset htask hconn rfl
  · obtain ⟨⟨received, sent, task⟩, hconn⟩ := hconnOf htask
    obtain rfl : task = .writing j (replyBytes P j) := hM.between htask hconn
    obtain ⟨as, sent', hrun⟩ := run_finish hconn delivered
    refine ⟨as, _, hrun, ?_⟩
    have ht' : t' = ⟨t.tasks.set conn (.done (finish P j delivered)),
        .finished conn (finish P j delivered) :: t.log⟩ := by
      rw [← htasks, ← hlog]
    rw [ht']
    exact hset htask hconn rfl

theorem matches_init : Matches P VmSteward.State.init State.init where
  log := rfl
  length := rfl
  between h := by cases h

/-! ## The same logs -/

/-- The steward that sees bytes come and go in pieces, on any number of connections at once, leaves
exactly the logs of the one that takes a frame at a time. -/
theorem chunked_logs (P : Prost) (identity : AgentIdentity) (log : List Event) :
    (∃ as s, run (step P identity) State.init as = some s ∧ s.log = log) ↔
      ∃ as t, run (VmSteward.step P identity) VmSteward.State.init as = some t ∧ t.log = log := by
  constructor
  · rintro ⟨as, s, hrun, rfl⟩
    obtain ⟨bs, t, ht, hR⟩ := run_simulated towards_back rel_step
      (rel_init (receivedAt s)) hrun (towards_self s)
    exact ⟨bs, t, ht, hR.log⟩
  · rintro ⟨as, t, hrun, rfl⟩
    obtain ⟨bs, s, hs, hM⟩ := run_simulated_of_step matches_step matches_init hrun
    exact ⟨bs, s, hs, hM.log⟩

end FissionPlane.VmSteward.Chunks
