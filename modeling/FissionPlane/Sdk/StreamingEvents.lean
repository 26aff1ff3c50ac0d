/-
# FissionPlane.Sdk.StreamingEvents -- the TypeScript SDK's event stream

`StreamingEvents` turns the frames of a WebSocket into an async iterator and, at the same time,
shows each event to the registered listeners. Everything runs on one thread, so a state of the
stream is what holds between two callbacks, and a run is a list of socket callbacks and calls.
The listeners are the exception: they run inside `receive`, and may call back into the stream.

What each listener does while it handles an event is given by the schedule, one `Run` for each
listener that the loop visits. Underneath, the queue and the waiting `next()` calls are a mailbox.
-/
import FissionPlane.Lib.Mailbox
import FissionPlane.Lib.Transition
import FissionPlane.Sdk.StreamEvents

namespace FissionPlane.Sdk.StreamingEvents

open FissionPlane.Lib FissionPlane.Lib.Transition

/-! ## Values -/

/-- What the SDK and the callbacks throw. -/
inductive StreamError (ε : Type*) where
  | streamingProtocol (message : String)
  | fissionPlane (message code : String) (retryable : Bool)
  | other (value : ε)
  deriving DecidableEq

/-- A thrown value; `none` is `throw undefined`. -/
abbrev Thrown (ε : Type*) := Option (StreamError ε)

/-- One call of `next()`: its number among all of them, and the iterator it was made on. -/
structure Call where
  id : Nat
  iterator : Nat
  deriving DecidableEq

/-- What the consumers see, in the order it happens. -/
inductive Effect (τ ε : Type*) where
  | next (call : Call)
  | value (call : Call) (event : τ)
  | done (call : Call)
  | rejected (call : Call) (error : Thrown ε)
  | returned (iterator : Nat)
  deriving DecidableEq

/-- What the stream does to its socket. -/
inductive SocketCall where
  | send (frame : String)
  | close
  deriving DecidableEq

/-- `StreamOptions`; of the signal only its presence matters here. -/
structure StreamOptions where
  handshakeTimeoutMs : Option Nat
  signal : Bool

/-- The fields of `StreamingEvents`, then what is seen of it from outside. `listeners` is the
backing list of a JavaScript `Set`, where a deleted member leaves a hole. -/
structure State (τ ε : Type*) where
  listeners : List (Option Nat)
  queue : List τ
  pending : List Call
  outbound : List String
  handshake : Option Nat
  opened : Bool
  ended : Bool
  failure : Thrown ε
  signal : Bool
  calls : Nat
  received : List τ
  socket : List SocketCall
  log : List (Effect τ ε)
  deriving DecidableEq

/-- What the consumer, a listener or the owner of the signal may do at any time. -/
inductive Op where
  | next (iterator : Nat)
  | return_ (iterator : Nat)
  | close
  | abort
  | send (encoded : String)
  | onEvent (listener : Nat)
  | unsubscribe (listener : Nat)
  deriving DecidableEq

/-- What one listener does with one event: its calls, and then what it throws, if anything. -/
structure Run (ε : Type*) where
  ops : List Op
  throws : Option (Thrown ε)
  deriving DecidableEq

inductive Action (δ ε : Type*) where
  | open_ (protocol : String)
  | message (data : δ) (runs : List (Run ε))
  | socketClose
  | socketError (error : Thrown ε)
  | handshakeTimer
  | call (op : Op)

variable {τ ε δ : Type*}

namespace State

/-- The constructor: the timer is armed for a positive timeout only. -/
def init (options : StreamOptions) : State τ ε where
  listeners := []
  queue := []
  pending := []
  outbound := []
  handshake :=
    let handshakeTimeoutMs := options.handshakeTimeoutMs.getD 0
    if handshakeTimeoutMs > 0 then some handshakeTimeoutMs else none
  opened := false
  ended := false
  failure := none
  signal := options.signal
  calls := 0
  received := []
  socket := []
  log := []

def clearHandshake (s : State τ ε) : State τ ε := { s with handshake := none }

/-- `finish` -/
def finish (s : State τ ε) : State τ ε :=
  if s.ended then s
  else
    { s.clearHandshake with
      ended := true
      outbound := []
      pending := []
      log := s.log ++ s.pending.map .done }

/-- `fail`; the stored failure is the thrown value itself, `undefined` included. -/
def fail (error : Thrown ε) (s : State τ ε) : State τ ε :=
  if s.ended then s
  else
    { s.clearHandshake with
      failure := error
      ended := true
      outbound := []
      pending := []
      socket := s.socket ++ [.close]
      log := s.log ++ s.pending.map (.rejected · error) }

/-- `close` -/
def close (s : State τ ε) : State τ ε :=
  if s.ended then s
  else { s.finish with socket := s.finish.socket ++ [.close] }

/-- `next`: a queued event first, even on a stream that has ended. -/
def next (iterator : Nat) (s : State τ ε) : State τ ε :=
  let call : Call := ⟨s.calls, iterator⟩
  let s := { s with calls := s.calls + 1, log := s.log ++ [Effect.next call] }
  match s.queue with
  | event :: rest => { s with queue := rest, log := s.log ++ [Effect.value call event] }
  | [] =>
      if s.failure.isSome then { s with log := s.log ++ [Effect.rejected call s.failure] }
      else if s.ended then { s with log := s.log ++ [Effect.done call] }
      else { s with pending := s.pending ++ [call] }

/-- `return` -/
def return_ (iterator : Nat) (s : State τ ε) : State τ ε :=
  { s.close with log := s.close.log ++ [.returned iterator] }

/-- `send`, given the encoded frame. -/
def send (encoded : String) (s : State τ ε) : State τ ε :=
  if s.ended then s
  else if s.opened then { s with socket := s.socket ++ [.send encoded] }
  else { s with outbound := s.outbound ++ [encoded] }

/-- The signal's listener is registered with `once`. -/
def abort (s : State τ ε) : State τ ε :=
  if s.signal then { s with signal := false }.close else s

/-- `onEvent`: adding a member that is there already changes nothing. -/
def onEvent (listener : Nat) (s : State τ ε) : State τ ε :=
  if some listener ∈ s.listeners then s
  else { s with listeners := s.listeners ++ [some listener] }

def unsubscribe (listener : Nat) (s : State τ ε) : State τ ε :=
  { s with
    listeners := s.listeners.map fun entry => if entry = some listener then none else entry }

def perform (s : State τ ε) : Op → State τ ε
  | .next iterator => s.next iterator
  | .return_ iterator => s.return_ iterator
  | .close => s.close
  | .abort => s.abort
  | .send encoded => s.send encoded
  | .onEvent listener => s.onEvent listener
  | .unsubscribe listener => s.unsubscribe listener

/-- Where the iteration over the set finds its next member, from a position on. -/
def nextListener (s : State τ ε) (position : Nat) : Option Nat :=
  ((s.listeners.drop position).findIdx? Option.isSome).map (position + ·)

/-- The loop `for (const listener of this.listeners) listener(event)`: it sees members added while
it runs and skips members deleted before their turn. `none` when `runs` is not one run for each
listener visited, up to the one that throws. -/
def notify : State τ ε → Nat → List (Run ε) → Option (State τ ε × Option (Thrown ε))
  | s, position, [] =>
      match s.nextListener position with
      | none => some (s, none)
      | some _ => none
  | s, position, r :: rest =>
      match s.nextListener position with
      | none => none
      | some found =>
          let s := r.ops.foldl perform s
          match r.throws with
          | some error => if rest.isEmpty then some (s, some error) else none
          | none => s.notify (found + 1) rest

/-- The end of `receive`: the event goes to the first waiting `next()`, or onto the queue. -/
def deliver (event : τ) (s : State τ ε) : State τ ε :=
  match s.pending with
  | call :: rest => { s with pending := rest, log := s.log ++ [.value call event] }
  | [] => { s with queue := s.queue ++ [event] }

/-- The stream has been shown an event it is not too late for. -/
def arrive (event : τ) (s : State τ ε) : State τ ε := { s with received := s.received ++ [event] }

variable (parse : δ → Except (Thrown ε) (Option τ))

/-- `receive`, for the listeners' runs; an exception leaves with the state it happened in. -/
def receive (data : δ) (runs : List (Run ε)) (s : State τ ε) :
    Option (State τ ε × Option (Thrown ε)) :=
  match parse data with
  | .error error => if runs.isEmpty then some (s, some error) else none
  | .ok none => if runs.isEmpty then some (s, none) else none
  | .ok (some event) =>
      if s.ended then if runs.isEmpty then some (s, none) else none
      else
        ((s.arrive event).notify 0 runs).map fun
          | (s, some error) => (s, some error)
          | (s, none) => (s.deliver event, none)

/-- `onMessage`: whatever `receive` throws fails the stream. -/
def onMessage (data : δ) (runs : List (Run ε)) (s : State τ ε) : Option (State τ ε) :=
  (s.receive parse data runs).map fun
    | (s, some error) => s.fail error
    | (s, none) => s

/-- `onOpen` -/
def onOpen (protocol : String) (s : State τ ε) : State τ ε :=
  let s := s.clearHandshake
  if protocol ≠ "fissionplane.v1" then
    s.fail (some (.streamingProtocol "server did not select fissionplane.v1"))
  else
    { s with opened := true, outbound := [], socket := s.socket ++ s.outbound.map .send }

/-- The handshake timer, which fires only while it is armed. -/
def onHandshakeTimeout (s : State τ ε) : Option (State τ ε) :=
  s.handshake.map fun ms => s.fail (some (.fissionPlane
    s!"WebSocket handshake did not complete within {ms}ms" "handshake_timeout" true))

end State

/-! ## The two streams -/

/-- The data of a message: a text frame, or anything else. -/
inductive MessageData where
  | text (chars : List Char)
  | binary
  deriving DecidableEq

/-- A parser of text frames as the `parse` of a subclass. -/
def ofParser
    (parser : List Char → Except StreamEvents.TypeScript.StreamingProtocolError (Option τ)) :
    MessageData → Except (Thrown ε) (Option τ)
  | .text chars => (parser chars).mapError fun message => some (.streamingProtocol message)
  | .binary => .error (some (.streamingProtocol "expected a JSON text frame"))

/-- `ProcessAttachment.parse` -/
def ProcessAttachment.parse :
    MessageData → Except (Thrown ε) (Option (StreamEvents.ProcessStreamEvent ℚ)) :=
  ofParser StreamEvents.TypeScript.parseProcessStreamEvent

/-- `FileWatch.parse` -/
def FileWatch.parse : MessageData → Except (Thrown ε) (Option (StreamEvents.FileWatchEvent ℚ)) :=
  ofParser StreamEvents.TypeScript.parseFileWatchEvent

/-! ## Steps -/

variable (parse : δ → Except (Thrown ε) (Option τ))

/-- One callback or one call, run to completion. -/
def step (s : State τ ε) : Action δ ε → Option (State τ ε)
  | .open_ protocol => some (s.onOpen protocol)
  | .message data runs => s.onMessage parse data runs
  | .socketClose => some s.finish
  | .socketError error => some (s.fail error)
  | .handshakeTimer => s.onHandshakeTimeout
  | .call op => some (s.perform op)

/-! ### Which actions are possible -/

/-- The handshake timer fires while it is armed; all else but a message can happen at any time. -/
theorem step_isSome_iff (s : State τ ε) {a : Action δ ε}
    (ha : ∀ data runs, a ≠ .message data runs) :
    (step parse s a).isSome = true ↔ (a = .handshakeTimer → s.handshake.isSome = true) := by
  cases a with
  | message data runs => exact absurd rfl (ha data runs)
  | handshakeTimer =>
      rw [step, State.onHandshakeTimeout, Option.isSome_map]
      exact ⟨fun h _ => h, fun h => h rfl⟩
  | open_ protocol => exact iff_of_true rfl nofun
  | socketClose => exact iff_of_true rfl nofun
  | socketError error => exact iff_of_true rfl nofun
  | call op => exact iff_of_true rfl nofun

namespace State

theorem listeners_close (s : State τ ε) : s.close.listeners = s.listeners := by
  unfold close finish
  split <;> rfl

/-- Only a registration makes the set of listeners longer. -/
theorem length_listeners_perform (s : State τ ε) {op : Op} (h : ∀ l, op ≠ .onEvent l) :
    (s.perform op).listeners.length = s.listeners.length := by
  cases op with
  | onEvent listener => exact absurd rfl (h listener)
  | unsubscribe listener => exact List.length_map _
  | close => exact congrArg List.length s.listeners_close
  | return_ iterator => exact congrArg List.length s.listeners_close
  | abort =>
      show s.abort.listeners.length = _
      unfold abort
      split
      · exact congrArg List.length (listeners_close _)
      · rfl
  | send encoded =>
      show (s.send encoded).listeners.length = _
      unfold send
      split_ifs <;> rfl
  | next iterator =>
      show (s.next iterator).listeners.length = _
      unfold next
      dsimp only
      split
      · rfl
      · split_ifs <;> rfl

theorem length_listeners_foldl {ops : List Op} (h : ∀ op ∈ ops, ∀ l, op ≠ .onEvent l)
    (s : State τ ε) : (ops.foldl perform s).listeners.length = s.listeners.length := by
  induction ops generalizing s with
  | nil => rfl
  | cons op ops ih =>
      rw [List.foldl_cons, ih fun op' hop => h op' (List.mem_cons_of_mem _ hop),
        length_listeners_perform s (h op List.mem_cons_self)]

theorem nextListener_bounds {s : State τ ε} {position found : Nat}
    (h : s.nextListener position = some found) :
    position ≤ found ∧ found < s.listeners.length := by
  obtain ⟨i, hi, rfl⟩ := Option.map_eq_some_iff.mp h
  have hlt := (List.findIdx?_eq_some_iff_getElem.mp hi).1
  rw [List.length_drop] at hlt
  exact ⟨Nat.le_add_right _ _, by omega⟩

/-- Whatever listeners do that register no further ones, the loop over them ends. -/
theorem exists_notify {r : Nat → Run ε} (hr : ∀ k, ∀ op ∈ (r k).ops, ∀ l, op ≠ .onEvent l)
    (k : Nat) (s : State τ ε) (position : Nat) :
    ∃ n, (s.notify position ((List.range n).map fun i => r (k + i))).isSome = true := by
  induction hm : s.listeners.length - position using Nat.strong_induction_on
    generalizing k s position with
  | _ m ih =>
      cases hnext : s.nextListener position with
      | none =>
          refine ⟨0, ?_⟩
          rw [List.range_zero, List.map_nil, notify, hnext]
          rfl
      | some found =>
          obtain ⟨hle, hlt⟩ := nextListener_bounds hnext
          cases hthrows : (r k).throws with
          | some error =>
              refine ⟨1, ?_⟩
              show (s.notify position [r k]).isSome = true
              rw [notify, hnext]
              dsimp only
              rw [hthrows]
              rfl
          | none =>
              have hlength := length_listeners_foldl (hr k) s
              obtain ⟨n, hn⟩ := ih _ (by rw [hlength]; omega) (k + 1) ((r k).ops.foldl perform s)
                (found + 1) rfl
              refine ⟨n + 1, ?_⟩
              have hsplit : (List.range (n + 1)).map (fun i => r (k + i)) =
                  r k :: (List.range n).map fun i => r (k + 1 + i) := by
                rw [List.range_succ_eq_map, List.map_cons, List.map_map]
                refine congrArg (r k :: ·) (List.map_congr_left fun i _ => ?_)
                exact congrArg r (by rw [Nat.succ_eq_add_one]; omega)
              rw [hsplit, notify, hnext]
              dsimp only
              rw [hthrows]
              exact hn

end State

/-- So every message can be handled, by listeners that do so. -/
theorem exists_message {r : Nat → Run ε} (hr : ∀ k, ∀ op ∈ (r k).ops, ∀ l, op ≠ .onEvent l)
    (s : State τ ε) (data : δ) :
    ∃ n, (step parse s (.message data ((List.range n).map r))).isSome = true := by
  have hquiet : ∀ result, s.receive parse data [] = some result →
      ∃ n, (step parse s (.message data ((List.range n).map r))).isSome = true := by
    intro result h
    refine ⟨0, ?_⟩
    rw [step, State.onMessage, List.range_zero, List.map_nil, h]
    rfl
  cases hparse : parse data with
  | error error => exact hquiet (s, some error) (by rw [State.receive, hparse]; rfl)
  | ok event =>
      cases event with
      | none => exact hquiet (s, none) (by rw [State.receive, hparse]; rfl)
      | some event =>
          by_cases hend : s.ended = true
          · refine hquiet (s, none) ?_
            rw [State.receive, hparse]
            exact if_pos hend
          · obtain ⟨n, hn⟩ := State.exists_notify hr 0 (s.arrive event) 0
            refine ⟨n, ?_⟩
            simp only [Nat.zero_add] at hn
            rw [step, State.onMessage, Option.isSome_map, State.receive, hparse]
            dsimp only
            rw [if_neg hend, Option.isSome_map]
            exact hn

/-! ## What `next()` can do -/

namespace State

variable {s s' : State τ ε}

/-- The five outcomes of a call of `next()` are decided in the order of the source's branches. -/
theorem next_cases (s : State τ ε) (iterator : Nat) :
    (∃ event rest, s.queue = event :: rest ∧ s.next iterator =
      { s with
        queue := rest
        calls := s.calls + 1
        log := s.log ++ [.next ⟨s.calls, iterator⟩, .value ⟨s.calls, iterator⟩ event] }) ∨
    (s.queue = [] ∧ s.failure.isSome ∧ s.next iterator =
      { s with
        calls := s.calls + 1
        log := s.log ++ [.next ⟨s.calls, iterator⟩, .rejected ⟨s.calls, iterator⟩ s.failure] }) ∨
    (s.queue = [] ∧ s.ended = true ∧ s.next iterator =
      { s with
        calls := s.calls + 1
        log := s.log ++ [.next ⟨s.calls, iterator⟩, .done ⟨s.calls, iterator⟩] }) ∨
    (s.queue = [] ∧ s.ended = false ∧ s.next iterator =
      { s with
        calls := s.calls + 1
        pending := s.pending ++ [⟨s.calls, iterator⟩]
        log := s.log ++ [.next ⟨s.calls, iterator⟩] }) := by
  cases hq : s.queue with
  | cons event rest => exact .inl ⟨event, rest, rfl, by simp [next, hq]⟩
  | nil =>
      right
      by_cases hf : s.failure.isSome
      · exact .inl ⟨rfl, hf, by simp [next, hq, hf]⟩
      right
      cases hend : s.ended with
      | true => exact .inl ⟨rfl, rfl, by simp [next, hq, hf, hend]⟩
      | false => exact .inr ⟨rfl, rfl, by simp [next, hq, hf, hend]⟩

end State

/-! ## The mailbox underneath -/

def Effect.delivery : Effect τ ε → Option (Call × τ)
  | .value call event => some (call, event)
  | _ => none

section

variable {call : Call} {calls : List Call} {event : τ} {error : Thrown ε} {iterator : Nat}

@[simp]
theorem delivery_next : (.next call : Effect τ ε).delivery = none := rfl

@[simp]
theorem delivery_value : (.value call event : Effect τ ε).delivery = some (call, event) := rfl

@[simp]
theorem delivery_done : (.done call : Effect τ ε).delivery = none := rfl

@[simp]
theorem delivery_rejected : (.rejected call error : Effect τ ε).delivery = none := rfl

@[simp]
theorem delivery_returned : (.returned iterator : Effect τ ε).delivery = none := rfl

end

namespace State

/-- The calls that got an event, each with its event, in the order they got it. -/
def deliveries (s : State τ ε) : List (Call × τ) := s.log.filterMap Effect.delivery

def mailbox (s : State τ ε) : Mailbox τ where
  queue := s.queue
  waiting := s.pending.map Call.id
  calls := s.calls
  delivered := s.deliveries.map fun d => (d.1.id, d.2)

/-- The invariant of every state, inside a listener too. -/
structure Ordered (s : State τ ε) : Prop where
  fifo : s.mailbox.Fifo
  closed : s.ended = true → s.pending = []
  failed : s.failure.isSome → s.ended = true

variable {s s' : State τ ε} {error : Thrown ε} {event : τ} {iterator : Nat}

theorem Ordered.dismiss_mailbox (h : s.Ordered) (hend : s.ended = true) :
    s.mailbox.dismiss = s.mailbox := by
  simp [mailbox, Mailbox.dismiss, h.closed hend]

theorem mailbox_finish (h : s.Ordered) : s.finish.mailbox = s.mailbox.dismiss := by
  unfold finish
  split
  · next hend => exact (h.dismiss_mailbox hend).symm
  · simp [mailbox, deliveries, Mailbox.dismiss, clearHandshake]

theorem mailbox_fail (h : s.Ordered) : (s.fail error).mailbox = s.mailbox.dismiss := by
  unfold fail
  split
  · next hend => exact (h.dismiss_mailbox hend).symm
  · simp [mailbox, deliveries, Mailbox.dismiss, clearHandshake]

theorem mailbox_close (h : s.Ordered) : s.close.mailbox = s.mailbox.dismiss := by
  unfold close
  split
  · next hend => exact (h.dismiss_mailbox hend).symm
  · exact mailbox_finish h

theorem mailbox_return_ : (s.return_ iterator).mailbox = s.close.mailbox := by
  simp [return_, mailbox, deliveries]

/-- On a stream that still runs `next()` is a taker; on one that has ended it leaves at once. -/
theorem mailbox_next (h : s.Ordered) (iterator : Nat) :
    (s.next iterator).mailbox = s.mailbox.take ∨
      (s.next iterator).mailbox = s.mailbox.take.dismiss := by
  obtain ⟨event, rest, hq, hn⟩ | ⟨hq, hf, hn⟩ | ⟨hq, hend, hn⟩ | ⟨hq, hend, hn⟩ :=
    s.next_cases iterator
  · left
    simp [hn, mailbox, deliveries, Mailbox.take, hq, List.filterMap_cons]
  · right
    simp [hn, mailbox, deliveries, Mailbox.take, Mailbox.dismiss, hq, h.closed (h.failed hf)]
  · right
    simp [hn, mailbox, deliveries, Mailbox.take, Mailbox.dismiss, hq, h.closed hend]
  · left
    simp [hn, mailbox, deliveries, Mailbox.take, hq]

/-- Handing an event over is putting it. -/
theorem mailbox_deliver : (s.deliver event).mailbox = s.mailbox.put event := by
  unfold deliver
  split
  · next call rest hp => simp [mailbox, deliveries, Mailbox.put, hp]
  · next hp => simp [mailbox, deliveries, Mailbox.put, hp]

end State

/-! ## What a message can do -/

/-- Some listener of the event throws. -/
def Throws (runs : List (Run ε)) : Prop := ∃ r ∈ runs, r.throws.isSome

instance (runs : List (Run ε)) : Decidable (Throws runs) :=
  inferInstanceAs (Decidable (∃ r ∈ runs, _))

/-- All that the listeners of one event call, in order. -/
def calledBack (runs : List (Run ε)) : List Op := runs.flatMap Run.ops

namespace State

variable {s s' : State τ ε} {error : Thrown ε} {event : τ} {data : δ} {runs : List (Run ε)}

/-- The loop over the listeners performs what they call and stops at the one that throws. -/
theorem notify_spec {position : Nat} {thrown : Option (Thrown ε)}
    (h : s.notify position runs = some (s', thrown)) :
    s' = (calledBack runs).foldl perform s ∧ (thrown.isSome ↔ Throws runs) := by
  induction runs generalizing s position with
  | nil =>
      rw [notify] at h
      split at h
      · obtain ⟨rfl, rfl⟩ := Prod.mk.inj (Option.some.inj h)
        simp [calledBack, Throws]
      · cases h
  | cons r rest ih =>
      rw [notify] at h
      split at h
      · cases h
      · simp only at h
        split at h
        · next error hthrows =>
            split at h
            · next hempty =>
                obtain rfl := List.isEmpty_iff.mp hempty
                obtain ⟨rfl, rfl⟩ := Prod.mk.inj (Option.some.inj h)
                simp [calledBack, Throws, hthrows]
            · cases h
        · next hthrows =>
            obtain ⟨rfl, hiff⟩ := ih h
            refine ⟨by simp [calledBack, List.foldl_append], hiff.trans ?_⟩
            simp [Throws, hthrows]

/-- A frame that does not parse fails the stream; one without an event, or after the end, is
ignored; an event is shown to the listeners and delivered unless one of them throws. -/
theorem onMessage_cases {parse : δ → Except (Thrown ε) (Option τ)}
    (h : s.onMessage parse data runs = some s') :
    (runs = [] ∧ ∃ error, parse data = .error error ∧ s' = s.fail error) ∨
    (runs = [] ∧ s' = s) ∨
    (∃ event error, parse data = .ok (some event) ∧ s.ended = false ∧ Throws runs ∧
      s' = ((calledBack runs).foldl perform (s.arrive event)).fail error) ∨
    (∃ event, parse data = .ok (some event) ∧ s.ended = false ∧ ¬ Throws runs ∧
      s' = ((calledBack runs).foldl perform (s.arrive event)).deliver event) := by
  obtain ⟨⟨s₁, thrown⟩, hreceive, rfl⟩ := Option.map_eq_some_iff.mp h
  unfold receive at hreceive
  split at hreceive
  · next error hparse =>
      split at hreceive
      · next hempty =>
          obtain ⟨rfl, rfl⟩ := Prod.mk.inj (Option.some.inj hreceive)
          exact .inl ⟨List.isEmpty_iff.mp hempty, error, hparse, rfl⟩
      · cases hreceive
  · split at hreceive
    · next hempty =>
        obtain ⟨rfl, rfl⟩ := Prod.mk.inj (Option.some.inj hreceive)
        exact .inr (.inl ⟨List.isEmpty_iff.mp hempty, rfl⟩)
    · cases hreceive
  · next event hparse =>
      split at hreceive
      · split at hreceive
        · next hempty =>
            obtain ⟨rfl, rfl⟩ := Prod.mk.inj (Option.some.inj hreceive)
            exact .inr (.inl ⟨List.isEmpty_iff.mp hempty, rfl⟩)
        · cases hreceive
      · next hend =>
          obtain ⟨⟨s₂, result⟩, hnotify, hres⟩ := Option.map_eq_some_iff.mp hreceive
          obtain ⟨rfl, hthrows⟩ := notify_spec hnotify
          have hend : s.ended = false := by simpa using hend
          cases result with
          | some error =>
              obtain ⟨rfl, rfl⟩ := Prod.mk.inj hres
              exact .inr (.inr (.inl ⟨event, error, hparse, hend, hthrows.mp rfl, rfl⟩))
          | none =>
              obtain ⟨rfl, rfl⟩ := Prod.mk.inj hres
              refine .inr (.inr (.inr ⟨event, hparse, hend, ?_, rfl⟩))
              simpa using hthrows.not.mp (by simp)

end State

/-! ## Everything but an event keeps the contents -/

namespace State

variable {s s' : State τ ε} {error : Thrown ε} {event : τ} {iterator : Nat}

/-- Nothing is put and nothing is lost between the two states. -/
structure Keeps (s s' : State τ ε) : Prop where
  ordered : s'.Ordered
  contents : s'.mailbox.contents = s.mailbox.contents
  received : s'.received = s.received
  stays : s.ended = true → s'.ended = true

theorem Keeps.refl (h : s.Ordered) : s.Keeps s := ⟨h, rfl, rfl, id⟩

theorem Keeps.trans {s'' : State τ ε} (h : s.Keeps s') (h' : s'.Keeps s'') : s.Keeps s'' :=
  ⟨h'.ordered, h'.contents.trans h.contents, h'.received.trans h.received, h'.stays ∘ h.stays⟩

@[simp]
theorem ended_finish : s.finish.ended = true := by
  unfold finish
  split
  · assumption
  · rfl

@[simp]
theorem ended_fail : (s.fail error).ended = true := by
  unfold fail
  split
  · assumption
  · rfl

@[simp]
theorem ended_close : s.close.ended = true := by
  unfold close
  split
  · assumption
  · exact ended_finish

@[simp]
theorem received_finish : s.finish.received = s.received := by
  unfold finish
  split <;> rfl

@[simp]
theorem received_fail : (s.fail error).received = s.received := by
  unfold fail
  split <;> rfl

@[simp]
theorem received_close : s.close.received = s.received := by
  unfold close
  split
  · rfl
  · exact received_finish

/-- A stream that has ended with its waiting calls dismissed is in order. -/
theorem Ordered.dismissed (h : s.Ordered) (hend : s'.ended = true)
    (hmail : s'.mailbox = s.mailbox.dismiss) : s'.Ordered where
  fifo := hmail ▸ h.fifo.dismiss
  closed := by
    intro _
    have hw : s'.pending.map Call.id = [] := congrArg Mailbox.waiting hmail
    exact List.map_eq_nil_iff.mp hw
  failed := fun _ => hend

theorem Ordered.keeps_dismiss (h : s.Ordered) (hend : s'.ended = true)
    (hmail : s'.mailbox = s.mailbox.dismiss) (hrec : s'.received = s.received) : s.Keeps s' :=
  ⟨h.dismissed hend hmail, by rw [hmail, Mailbox.contents_dismiss], hrec, fun _ => hend⟩

theorem keeps_finish (h : s.Ordered) : s.Keeps s.finish :=
  h.keeps_dismiss ended_finish (mailbox_finish h) received_finish

theorem keeps_fail (h : s.Ordered) (error : Thrown ε) : s.Keeps (s.fail error) :=
  h.keeps_dismiss ended_fail (mailbox_fail h) received_fail

theorem keeps_close (h : s.Ordered) : s.Keeps s.close :=
  h.keeps_dismiss ended_close (mailbox_close h) received_close

theorem keeps_next (h : s.Ordered) (iterator : Nat) : s.Keeps (s.next iterator) := by
  have hmail := mailbox_next h iterator
  have hcontents : (s.next iterator).mailbox.contents = s.mailbox.contents := by
    rcases hmail with hm | hm
    · rw [hm, Mailbox.contents_take]
    · rw [hm, Mailbox.contents_dismiss, Mailbox.contents_take]
  have hfifo : (s.next iterator).mailbox.Fifo := by
    rcases hmail with hm | hm
    · exact hm ▸ h.fifo.take
    · exact hm ▸ h.fifo.take.dismiss
  obtain ⟨event, rest, hq, hn⟩ | ⟨hq, hf, hn⟩ | ⟨hq, hend, hn⟩ | ⟨hq, hend, hn⟩ :=
    s.next_cases iterator
  · exact ⟨⟨hfifo, by simpa [hn] using h.closed, by simpa [hn] using h.failed⟩, hcontents,
      by rw [hn], by simp [hn]⟩
  · exact ⟨⟨hfifo, by simpa [hn] using h.closed, by simpa [hn] using h.failed⟩, hcontents,
      by rw [hn], by simp [hn]⟩
  · exact ⟨⟨hfifo, by simpa [hn] using h.closed, by simpa [hn] using h.failed⟩, hcontents,
      by rw [hn], by simp [hn]⟩
  · exact ⟨⟨hfifo, by simp [hn, hend], by simpa [hn] using h.failed⟩, hcontents, by rw [hn],
      by simp [hn]⟩

/-- A change that touches neither the mailbox nor the end of the stream. -/
theorem Ordered.keeps_of_eq (h : s.Ordered) (hmail : s'.mailbox = s.mailbox)
    (hpending : s'.pending = s.pending) (hend : s'.ended = s.ended)
    (hfail : s'.failure = s.failure) (hrec : s'.received = s.received) : s.Keeps s' where
  ordered := ⟨hmail ▸ h.fifo, by rw [hpending, hend]; exact h.closed,
    by rw [hfail, hend]; exact h.failed⟩
  contents := by rw [hmail]
  received := hrec
  stays := by rw [hend]; exact id

theorem keeps_return_ (h : s.Ordered) : s.Keeps (s.return_ iterator) :=
  h.keeps_dismiss ended_close (mailbox_return_.trans (mailbox_close h)) received_close

theorem keeps_perform (h : s.Ordered) (op : Op) : s.Keeps (s.perform op) := by
  cases op with
  | next iterator => exact keeps_next h iterator
  | return_ iterator => exact keeps_return_ h
  | close => exact keeps_close h
  | abort =>
      show s.Keeps s.abort
      unfold abort
      split
      · have hsignal : s.Keeps { s with signal := false } := h.keeps_of_eq rfl rfl rfl rfl rfl
        exact hsignal.trans (keeps_close hsignal.ordered)
      · exact Keeps.refl h
  | send encoded =>
      show s.Keeps (s.send encoded)
      unfold send
      split
      · exact Keeps.refl h
      · split <;> exact h.keeps_of_eq rfl rfl rfl rfl rfl
  | onEvent listener =>
      show s.Keeps (s.onEvent listener)
      unfold onEvent
      split
      · exact Keeps.refl h
      · exact h.keeps_of_eq rfl rfl rfl rfl rfl
  | unsubscribe listener => exact h.keeps_of_eq rfl rfl rfl rfl rfl

theorem keeps_foldl_perform (ops : List Op) :
    ∀ {s : State τ ε}, s.Ordered → s.Keeps (ops.foldl perform s) := by
  induction ops with
  | nil => exact Keeps.refl
  | cons op ops ih =>
      intro s h
      have hop := keeps_perform h op
      exact hop.trans (ih hop.ordered)

theorem Ordered.clearHandshake (h : s.Ordered) : s.clearHandshake.Ordered :=
  ⟨h.fifo, h.closed, h.failed⟩

theorem Ordered.arrive (h : s.Ordered) (event : τ) : (s.arrive event).Ordered :=
  ⟨h.fifo, h.closed, h.failed⟩

theorem Ordered.deliver (h : s.Ordered) (event : τ) : (s.deliver event).Ordered where
  fifo := mailbox_deliver ▸ h.fifo.put event
  closed := by
    have hclosed := h.closed
    unfold State.deliver
    split
    · next call rest hp =>
        intro hend
        exact absurd (hclosed hend) (by simp [hp])
    · exact hclosed
  failed := by
    have hfailed := h.failed
    unfold State.deliver
    split <;> exact hfailed

theorem contents_deliver (h : s.Ordered) :
    (s.deliver event).mailbox.contents = s.mailbox.contents ++ [event] := by
  rw [mailbox_deliver, Mailbox.contents_put h.fifo]

@[simp]
theorem received_deliver : (s.deliver event).received = s.received := by
  unfold deliver
  split <;> rfl

theorem keeps_onOpen (h : s.Ordered) (protocol : String) : s.Keeps (s.onOpen protocol) := by
  have hclear : s.Keeps s.clearHandshake := h.keeps_of_eq rfl rfl rfl rfl rfl
  unfold onOpen
  simp only
  split
  · exact hclear.trans (keeps_fail hclear.ordered _)
  · exact h.keeps_of_eq rfl rfl rfl rfl rfl

theorem ordered_init (options : StreamOptions) : (State.init options : State τ ε).Ordered where
  fifo := ⟨.inl rfl, List.Pairwise.nil, fun _ h => absurd h List.not_mem_nil⟩
  closed := fun _ => rfl
  failed := fun h => absurd h (by simp [init])

end State

end FissionPlane.Sdk.StreamingEvents
