/-
# FissionPlane.Sdk.EventSocket -- the Rust SDK's event stream

`EventSocket::poll_event` asks the WebSocket for frames until one of them is worth an answer. The
socket is a list of what its successive polls give, pending ones included, and is at its end after
the last; so the loop is a recursion over that list, and what is left of the list is the socket
that the next poll finds.

`Yields` says which frame is worth which answer, on the JSON of the frame. Polling until the end of
the stream gives those answers, in order, whatever the socket holds.
-/
import FissionPlane.Sdk.StreamEvents

namespace FissionPlane.Sdk.EventSocket

open FissionPlane.Lib FissionPlane.Sdk.StreamEvents FissionPlane.Sdk.StreamEvents.Rust

/-! ## The socket -/

inductive Poll (α : Type*) where
  | pending
  | ready (value : α)
  deriving DecidableEq

/-- A message of the WebSocket library. -/
inductive Message where
  | text (text : List Char)
  | binary (payload : List UInt8)
  | ping (payload : List UInt8)
  | pong (payload : List UInt8)
  | close
  | frame (raw : List UInt8)
  deriving DecidableEq

/-- `Error`, as far as a stream of events can fail; its texts name the stream. -/
inductive Error (ω : Type*) where
  | webSocket (error : ω)
  /-- `{stream_name} expected a JSON text frame` -/
  | expectedText (streamName : String)
  /-- An error of `parse_event_text`. -/
  | protocol (streamName : String) (error : ProtocolError)
  deriving DecidableEq

/-- What each poll of the socket gives, until its end. -/
abbrev Socket (ω : Type*) := List (Poll (Except ω Message))

/-- What one kind of stream passes to `poll_event`. -/
structure EventStream (ε : Type) where
  knownTypes : List String
  streamName : String
  fromValue : List Nat → Fields → Option ε
  validate : ε → Bool

/-- `ProcessAttachment` -/
def ProcessAttachment : EventStream (ProcessStreamEvent Int) :=
  ⟨processTypes, "process stream", processFromValue, validProcessEvent⟩

/-- `FileWatch` -/
def FileWatch : EventStream (FileWatchEvent Int) :=
  ⟨watchTypes, "file watch", watchFromValue, validFileWatchEvent⟩

variable {ε : Type} {ω : Type*} (inRange : Json.Literal → Bool) (stream : EventStream ε)

/-- The parser of text frames. -/
def EventStream.parse (text : List Char) : Except ProtocolError (Option ε) :=
  parseEventText inRange stream.knownTypes stream.fromValue stream.validate text

/-- `poll_event`, and the socket it leaves. -/
def pollEvent : Socket ω → Poll (Option (Except (Error ω) ε)) × Socket ω
  | [] => (.ready none, [])
  | .pending :: rest => (.pending, rest)
  | .ready (.error error) :: rest => (.ready (some (.error (.webSocket error))), rest)
  | .ready (.ok frame) :: rest =>
      match frame with
      | .text text =>
          match stream.parse inRange text with
          | .ok (some event) => (.ready (some (.ok event)), rest)
          | .ok none => pollEvent rest
          | .error error => (.ready (some (.error (.protocol stream.streamName error))), rest)
      | .ping _ | .pong _ => pollEvent rest
      | .close => (.ready none, rest)
      | .binary _ | .frame _ =>
          (.ready (some (.error (.expectedText stream.streamName))), rest)

/-- The answers of up to `n` polls; after the end of the stream it is not polled again. -/
def polls : Nat → Socket ω → List (Poll (Option (Except (Error ω) ε)))
  | 0, _ => []
  | n + 1, socket =>
      match pollEvent inRange stream socket with
      | (.ready none, _) => [.ready none]
      | (answer, rest) => answer :: polls n rest

/-! ## What each frame is worth -/

/-- A text frame is a JSON object of these members, with a `type` that is a string. -/
def Typed (text : List Char) (fields : Fields) (type : List Nat) : Prop :=
  ∃ value, (serdeJson inRange).parse text = .ok value ∧ messageType value = some (fields, type)

/-- A text frame holds a valid event of a known type. -/
def HoldsEvent (text : List Char) (event : ε) : Prop :=
  ∃ fields type, Typed inRange text fields type ∧ isOneOf stream.knownTypes type = true ∧
    stream.fromValue type fields = some event ∧ stream.validate event = true

def UnknownType (text : List Char) : Prop :=
  ∃ fields type, Typed inRange text fields type ∧ isOneOf stream.knownTypes type = false

/-- A text frame that is no JSON, has no type, or holds no valid event of its known type. -/
inductive Malformed (text : List Char) : ProtocolError → Prop
  | json {error : ProtocolError} (h : (serdeJson inRange).parse text = .error error) :
      Malformed text error
  | untyped {value : Json} (hvalue : (serdeJson inRange).parse text = .ok value)
      (h : messageType value = none) : Malformed text .frameType
  | event {fields : Fields} {type : List Nat} (htyped : Typed inRange text fields type)
      (hknown : isOneOf stream.knownTypes type = true)
      (h : ∀ event, stream.fromValue type fields = some event → stream.validate event = false) :
      Malformed text .malformedFrame

/-- **The answers a socket is worth.** One for each valid event, malformed text frame, binary frame
and transport error, in order, until the first close frame or the end of the socket; pending where
the socket is; nothing for pings, pongs and unknown types; and the end of the stream. -/
inductive Yields : Socket ω → List (Poll (Option (Except (Error ω) ε))) → Prop
  | ended : Yields [] [.ready none]
  | close {rest : Socket ω} : Yields (.ready (.ok .close) :: rest) [.ready none]
  | pending {rest answers} (h : Yields rest answers) :
      Yields (.pending :: rest) (.pending :: answers)
  | transport {error : ω} {rest answers} (h : Yields rest answers) :
      Yields (.ready (.error error) :: rest) (.ready (some (.error (.webSocket error))) :: answers)
  | ping {payload : List UInt8} {rest answers} (h : Yields rest answers) :
      Yields (.ready (.ok (.ping payload)) :: rest) answers
  | pong {payload : List UInt8} {rest answers} (h : Yields rest answers) :
      Yields (.ready (.ok (.pong payload)) :: rest) answers
  | binary {payload : List UInt8} {rest answers} (h : Yields rest answers) :
      Yields (.ready (.ok (.binary payload)) :: rest)
        (.ready (some (.error (.expectedText stream.streamName))) :: answers)
  | frame {raw : List UInt8} {rest answers} (h : Yields rest answers) :
      Yields (.ready (.ok (.frame raw)) :: rest)
        (.ready (some (.error (.expectedText stream.streamName))) :: answers)
  | event {text : List Char} {event : ε} {rest answers}
      (htext : HoldsEvent inRange stream text event) (h : Yields rest answers) :
      Yields (.ready (.ok (.text text)) :: rest) (.ready (some (.ok event)) :: answers)
  | unknown {text : List Char} {rest answers} (htext : UnknownType inRange stream text)
      (h : Yields rest answers) : Yields (.ready (.ok (.text text)) :: rest) answers
  | malformed {text : List Char} {error : ProtocolError} {rest answers}
      (htext : Malformed inRange stream text error) (h : Yields rest answers) :
      Yields (.ready (.ok (.text text)) :: rest)
        (.ready (some (.error (.protocol stream.streamName error))) :: answers)

/-! ## The parser decides the class -/

variable {inRange stream} {text : List Char} {fields : Fields} {type : List Nat} {event : ε}
  {error : ProtocolError}

/-- A typed frame, parsed. -/
theorem parse_of_typed (h : Typed inRange text fields type) : stream.parse inRange text =
    if isOneOf stream.knownTypes type = false then .ok none
    else
      match stream.fromValue type fields with
      | none => .error .malformedFrame
      | some event =>
          if stream.validate event then .ok (some event) else .error .malformedFrame := by
  obtain ⟨value, hvalue, htype⟩ := h
  rewrite [EventStream.parse, parseEventText, hvalue]
  dsimp only
  rewrite [htype]
  rfl

theorem parse_of_holdsEvent (h : HoldsEvent inRange stream text event) :
    stream.parse inRange text = .ok (some event) := by
  obtain ⟨fields, type, htyped, hknown, hfrom, hvalid⟩ := h
  rw [parse_of_typed htyped, if_neg (by rw [hknown]; decide), hfrom]
  simp only [hvalid, if_true]

theorem parse_of_unknownType (h : UnknownType inRange stream text) :
    stream.parse inRange text = .ok none := by
  obtain ⟨fields, type, htyped, hunknown⟩ := h
  rw [parse_of_typed htyped, if_pos hunknown]

theorem parse_of_malformed (h : Malformed inRange stream text error) :
    stream.parse inRange text = .error error := by
  cases h with
  | json h => rw [EventStream.parse, parseEventText, h]
  | untyped hvalue h =>
      rw [EventStream.parse, parseEventText, hvalue]
      simp only [h]
  | event htyped hknown h =>
      rw [parse_of_typed htyped, if_neg (by rw [hknown]; decide)]
      split
      · rfl
      · next event hfrom => rw [h event hfrom, if_neg Bool.false_ne_true]

/-- Every text frame is of one of the three classes. -/
theorem text_cases (inRange : Json.Literal → Bool) (stream : EventStream ε) (text : List Char) :
    (∃ event, HoldsEvent inRange stream text event) ∨ UnknownType inRange stream text ∨
      ∃ error, Malformed inRange stream text error := by
  cases hparse : (serdeJson inRange).parse text with
  | error error => exact .inr (.inr ⟨error, .json hparse⟩)
  | ok value =>
      cases htype : messageType value with
      | none => exact .inr (.inr ⟨_, .untyped hparse htype⟩)
      | some found =>
          obtain ⟨fields, type⟩ := found
          have htyped : Typed inRange text fields type := ⟨value, hparse, htype⟩
          cases hknown : isOneOf stream.knownTypes type with
          | false => exact .inr (.inl ⟨fields, type, htyped, hknown⟩)
          | true =>
              by_cases hevent : ∃ event, stream.fromValue type fields = some event ∧
                  stream.validate event = true
              · obtain ⟨event, hfrom, hvalid⟩ := hevent
                exact .inl ⟨event, fields, type, htyped, hknown, hfrom, hvalid⟩
              · refine .inr (.inr ⟨_, .event htyped hknown fun event hfrom => ?_⟩)
                exact eq_false_of_ne_true fun hvalid => hevent ⟨event, hfrom, hvalid⟩

/-! ## Polling to the end -/

variable {socket rest : Socket ω} {answer : Poll (Option (Except (Error ω) ε))}
  {answers answers' : List (Poll (Option (Except (Error ω) ε)))}

/-- A frame that is skipped makes no difference to any poll. -/
theorem polls_of_skip (h : pollEvent inRange stream socket = pollEvent inRange stream rest)
    (n : Nat) : polls inRange stream n socket = polls inRange stream n rest := by
  cases n with
  | zero => rfl
  | succ n =>
      unfold polls
      rw [h]

theorem polls_of_answer (h : pollEvent inRange stream socket = (answer, rest))
    (hanswer : answer ≠ .ready none) (n : Nat) :
    polls inRange stream (n + 1) socket = answer :: polls inRange stream n rest := by
  rw [polls, h]
  split
  · next heq => exact absurd (Prod.mk.inj heq).1 hanswer
  · next heq =>
      obtain ⟨rfl, rfl⟩ := Prod.mk.inj heq
      rfl

theorem polls_of_end (h : pollEvent inRange stream socket = (.ready none, rest)) (n : Nat) :
    polls inRange stream (n + 1) socket = [.ready none] := by
  rw [polls, h]

/-- One more poll, one more answer. -/
theorem take_of_answer (h : pollEvent inRange stream socket = (answer, rest))
    (hanswer : answer ≠ .ready none)
    (ih : ∀ n, polls inRange stream n rest = answers.take n) (n : Nat) :
    polls inRange stream n socket = (answer :: answers).take n := by
  cases n with
  | zero => rfl
  | succ n => rw [polls_of_answer h hanswer, ih, List.take_succ_cons]

theorem take_of_end (h : pollEvent inRange stream socket = (.ready none, rest)) (n : Nat) :
    polls inRange stream n socket = [.ready none].take n := by
  cases n with
  | zero => rfl
  | succ n => rw [polls_of_end h, List.take_succ_cons, List.take_nil]

/-- The induction is on the answers: each frame is skipped, answered or the last. -/
theorem polls_of_yields (h : Yields inRange stream socket answers) (n : Nat) :
    polls inRange stream n socket = answers.take n := by
  induction h generalizing n with
  | ended => exact take_of_end rfl n
  | close => exact take_of_end rfl n
  | pending _ ih => exact take_of_answer rfl (by nofun) ih n
  | transport _ ih => exact take_of_answer rfl (by nofun) ih n
  | ping _ ih => exact (polls_of_skip (by rfl) n).trans (ih n)
  | pong _ ih => exact (polls_of_skip (by rfl) n).trans (ih n)
  | binary _ ih => exact take_of_answer rfl (by nofun) ih n
  | frame _ ih => exact take_of_answer rfl (by nofun) ih n
  | event htext _ ih =>
      refine take_of_answer ?_ (by nofun) ih n
      rw [pollEvent, parse_of_holdsEvent htext]
  | unknown htext _ ih =>
      refine (polls_of_skip ?_ n).trans (ih n)
      rw [pollEvent, parse_of_unknownType htext]
  | malformed htext _ ih =>
      refine take_of_answer ?_ (by nofun) ih n
      rw [pollEvent, parse_of_malformed htext]

/-- Every socket is worth some answers. -/
theorem exists_yields (inRange : Json.Literal → Bool) (stream : EventStream ε)
    (socket : Socket ω) : ∃ answers, Yields inRange stream socket answers := by
  induction socket with
  | nil => exact ⟨_, .ended⟩
  | cons polled rest ih =>
      obtain ⟨answers, h⟩ := ih
      match polled with
      | .pending => exact ⟨_, .pending h⟩
      | .ready (.error error) => exact ⟨_, .transport h⟩
      | .ready (.ok (.binary payload)) => exact ⟨_, .binary h⟩
      | .ready (.ok (.ping payload)) => exact ⟨_, .ping h⟩
      | .ready (.ok (.pong payload)) => exact ⟨_, .pong h⟩
      | .ready (.ok .close) => exact ⟨_, .close⟩
      | .ready (.ok (.frame raw)) => exact ⟨_, .frame h⟩
      | .ready (.ok (.text text)) =>
          obtain ⟨event, htext⟩ | htext | ⟨error, htext⟩ := text_cases inRange stream text
          · exact ⟨_, .event htext h⟩
          · exact ⟨_, .unknown htext h⟩
          · exact ⟨_, .malformed htext h⟩

/-- No other answers than those of the polls. -/
theorem Yields.unique (h : Yields inRange stream socket answers)
    (h' : Yields inRange stream socket answers') : answers = answers' := by
  have htake : ∀ n, answers.take n = answers'.take n := fun n =>
    (polls_of_yields h n).symm.trans (polls_of_yields h' n)
  have hall := htake (max answers.length answers'.length)
  rwa [List.take_of_length_le (Nat.le_max_left _ _),
    List.take_of_length_le (Nat.le_max_right _ _)] at hall

/-- **The event stream is the socket, filtered.** For every kind of stream and every socket, the
answers of any number of polls are as many of the answers the socket is worth, and these are
settled by what it holds. -/
theorem polls_eq_yields (inRange : Json.Literal → Bool) (stream : EventStream ε)
    (socket : Socket ω) : (∃! answers, Yields inRange stream socket answers) ∧
      ∀ answers, Yields inRange stream socket answers →
        ∀ n, polls inRange stream n socket = answers.take n := by
  obtain ⟨answers, h⟩ := exists_yields inRange stream socket
  exact ⟨⟨answers, h, fun _ h' => h'.unique h⟩, fun _ => polls_of_yields⟩

/-- A ping, a frame of another type, an exit event after a wait, and a close frame. -/
example : polls (fun _ => true) ProcessAttachment 9
    ([.ready (.ok (.ping [])), .ready (.ok (.text "\x7b\"type\":\"x\"\x7d".toList)), .pending,
      .ready (.ok (.text "\x7b\"type\":\"exit\",\"sequence\":1,\"exit_code\":0\x7d".toList)),
      .ready (.ok .close), .ready (.ok (.binary []))] : Socket Empty) =
    [.pending, .ready (some (.ok (.exit 1 0))), .ready none] := by
  decide +kernel

end FissionPlane.Sdk.EventSocket
