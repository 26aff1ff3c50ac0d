/-
# FissionPlane.VmSteward.Session -- the server half of the handshake

`accept` reads the first frame of a connection, judges it, writes at most one frame and returns a
session or an error. The judgement and the write are two definitions, because the connection gives
up control between them: `judge` is what happens in one go once the frame is in, `finish` is what
the outcome of the write makes of it.
-/
import FissionPlane.VmProtocol.Codec

namespace FissionPlane.VmSteward

open FissionPlane.Lib.ProtoWire FissionPlane.VmProtocol

/-! ## Identity, sessions and failures -/

/-- Who this agent is, as advertised in `HelloAck`. -/
structure AgentIdentity where
  buildId : String
  capabilities : UInt64
  limits : Limits
  deriving DecidableEq, Repr

/-- The identity of the binary being run; no capability has landed yet. -/
def AgentIdentity.current : AgentIdentity := ⟨"vm-steward/0.0.1", 0, .defaultLocal⟩

/-- An established session. -/
structure Session where
  epoch : UInt64
  limits : Limits
  verdict : EpochVerdict
  deriving DecidableEq, Repr

inductive SessionError where
  | protocol (e : ProtocolError)
  | expectedHello
  | versionMismatch (host peer : UInt32)
  | staleEpoch (current presented : UInt64)
  deriving DecidableEq, Repr

/-! ## Judging the first frame -/

/-- The first frame of a connection must be `Hello` on the session stream. -/
def openingHello (frame : Frame) : Option Hello :=
  match frame.body with
  | some (.hello hello) => if frame.streamId = streamIdSession then some hello else none
  | _ => none

/-- The answer to a lower epoch, tagged with the current one. -/
def staleReply (current : UInt64) (hello : Hello) : Frame where
  streamId := streamIdSession
  epoch := current
  body := some (.error {
    code := ErrorCode.staleEpoch.toInt32
    message := "stale epoch " ++ toString hello.epoch.toNat ++ " (current " ++
      toString current.toNat ++ ")"
    requiredCapability := none })

/-- The answer to an admitted `Hello`: the agent's own limits, not the negotiated ones. -/
def ackReply (identity : AgentIdentity) (hello : Hello) : Frame where
  streamId := streamIdSession
  epoch := hello.epoch
  body := some (.helloAck {
    protocolVersion := protocolVersion
    capabilities := identity.capabilities
    buildId := identity.buildId
    maxFrameSize := identity.limits.maxFrameSize
    chunkSize := identity.limits.chunkSize })

/-- What `accept` is about to do once its first frame is in. -/
inductive Judgement where
  | close (e : SessionError)
  | reject (reply : Frame) (e : SessionError)
  | acknowledge (reply : Frame) (session : Session)
  deriving DecidableEq, Repr

/-- The one frame a judgement writes, if it writes any. -/
def Judgement.reply : Judgement → Option Frame
  | .close _ => none
  | .reject reply _ => some reply
  | .acknowledge reply _ => some reply

/-- The epoch rules; with no epoch held yet the presented one is adopted. -/
def judgeHello (identity : AgentIdentity) (currentEpoch : Option UInt64) (hello : Hello) :
    Judgement :=
  let verdict := match currentEpoch with
    | none => EpochVerdict.join
    | some current => evaluate current hello.epoch
  match currentEpoch, verdict with
  | some current, .rejectStale =>
      .reject (staleReply current hello) (.staleEpoch current hello.epoch)
  | _, verdict =>
      .acknowledge (ackReply identity hello)
        ⟨hello.epoch, Limits.negotiate identity.limits (Limits.fromHello hello), verdict⟩

def judge (identity : AgentIdentity) (currentEpoch : Option UInt64)
    (first : Except ProtocolError Frame) : Judgement :=
  match first with
  | .error e => .close (.protocol e)
  | .ok frame =>
      match openingHello frame with
      | none => .close .expectedHello
      | some hello =>
          if hello.protocolVersion ≠ protocolVersion then
            .close (.versionMismatch protocolVersion hello.protocolVersion)
          else judgeHello identity currentEpoch hello

/-! ## Writing the answer -/

variable (P : Prost)

/-- Writing one frame under the handshake's bound; `delivered` is the outcome of the transport. -/
def send (frame : Frame) (delivered : Bool) : Except ProtocolError Bytes :=
  match writeFrame P frame maxHelloSize with
  | .error e => .error e
  | .ok bytes => if delivered then .ok bytes else .error .io

/-- The error reply is best effort; the acknowledgement is not. -/
def finish (j : Judgement) (delivered : Bool) : Except SessionError Session :=
  match j with
  | .close e => .error e
  | .reject _ e => .error e
  | .acknowledge reply session =>
      match send P reply delivered with
      | .error e => .error (.protocol e)
      | .ok _ => .ok session

/-- The whole handshake over a stream that holds `input`. -/
def accept (identity : AgentIdentity) (currentEpoch : Option UInt64) (input : Bytes)
    (delivered : Bool) : Except SessionError Session :=
  finish P (judge identity currentEpoch (readFrame P input maxHelloSize).1) delivered

/-! ## What each part says -/

/-- The `Hello` a first frame carries, when it is one this agent can talk to. -/
def wellFormedHello (first : Except ProtocolError Frame) : Option Hello :=
  match first with
  | .error _ => none
  | .ok frame => (openingHello frame).filter (·.protocolVersion = protocolVersion)

theorem wellFormedHello_eq_some_iff {first : Except ProtocolError Frame} {hello : Hello} :
    wellFormedHello first = some hello ↔
      ∃ frame, first = .ok frame ∧ openingHello frame = some hello ∧
        hello.protocolVersion = protocolVersion := by
  cases first with
  | error e =>
      constructor
      · intro h
        cases h
      · rintro ⟨_, h, -⟩
        cases h
  | ok frame =>
      rw [wellFormedHello, Option.filter_eq_some_iff]
      constructor
      · rintro ⟨hopen, hversion⟩
        exact ⟨frame, rfl, hopen, of_decide_eq_true hversion⟩
      · rintro ⟨_, hframe, hopen, hversion⟩
        obtain rfl := Except.ok.inj hframe
        exact ⟨hopen, decide_eq_true hversion⟩

/-- A well-formed `Hello` is judged by its epoch alone. -/
theorem judge_of_wellFormed {identity : AgentIdentity} {currentEpoch : Option UInt64}
    {first : Except ProtocolError Frame} {hello : Hello} (h : wellFormedHello first = some hello) :
    judge identity currentEpoch first = judgeHello identity currentEpoch hello := by
  obtain ⟨frame, rfl, hopen, hversion⟩ := wellFormedHello_eq_some_iff.mp h
  simp only [judge, hopen]
  rw [if_neg (not_not.mpr hversion)]

/-- Anything else closes the connection without a reply. -/
theorem judge_of_not_wellFormed {identity : AgentIdentity} {currentEpoch : Option UInt64}
    {first : Except ProtocolError Frame} (h : wellFormedHello first = none) :
    ∃ e, judge identity currentEpoch first = .close e := by
  cases first with
  | error e => exact ⟨_, rfl⟩
  | ok frame =>
      cases hopen : openingHello frame with
      | none => exact ⟨.expectedHello, by simp only [judge, hopen]⟩
      | some hello =>
          have hversion : hello.protocolVersion ≠ protocolVersion := by
            intro heq
            have := wellFormedHello_eq_some_iff.mpr ⟨frame, rfl, hopen, heq⟩
            rw [h] at this
            cases this
          refine ⟨.versionMismatch protocolVersion hello.protocolVersion, ?_⟩
          simp only [judge, hopen]
          rw [if_pos hversion]

/-- With an epoch held, a lower one is rejected and every other is admitted at its own epoch. -/
theorem judgeHello_some (identity : AgentIdentity) (current : UInt64) (hello : Hello) :
    judgeHello identity (some current) hello =
      if hello.epoch < current then
        .reject (staleReply current hello) (.staleEpoch current hello.epoch)
      else .acknowledge (ackReply identity hello)
        ⟨hello.epoch, Limits.negotiate identity.limits (Limits.fromHello hello),
          evaluate current hello.epoch⟩ := by
  split
  · next h => simp only [judgeHello, evaluate_eq_rejectStale_iff.mpr h]
  · next h =>
      have hne : evaluate current hello.epoch ≠ .rejectStale := fun heq =>
        h (evaluate_eq_rejectStale_iff.mp heq)
      simp only [judgeHello]
      split
      · next heq => exact absurd heq hne
      · rfl

/-- With no epoch held, every epoch is admitted. -/
theorem judgeHello_none (identity : AgentIdentity) (hello : Hello) :
    judgeHello identity none hello = .acknowledge (ackReply identity hello)
      ⟨hello.epoch, Limits.negotiate identity.limits (Limits.fromHello hello), .join⟩ := rfl

/-- A session comes of an acknowledgement that was written. -/
theorem send_of_finish_ok {P : Prost} {reply : Frame} {session' session : Session}
    {delivered : Bool} (h : finish P (.acknowledge reply session') delivered = .ok session) :
    session' = session ∧ ∃ bytes, send P reply delivered = .ok bytes := by
  rw [finish] at h
  cases hsend : send P reply delivered with
  | error e =>
      rw [hsend] at h
      cases h
  | ok bytes =>
      rw [hsend] at h
      exact ⟨Except.ok.inj h, bytes, rfl⟩

/-- A session comes from an admitted well-formed `Hello`, at the epoch it presented and under the
limits negotiated with it, and that `Hello` was acknowledged. -/
theorem acknowledged_of_finish_ok {P : Prost} {identity : AgentIdentity}
    {currentEpoch : Option UInt64} {first : Except ProtocolError Frame} {delivered : Bool}
    {session : Session} (h : finish P (judge identity currentEpoch first) delivered = .ok session) :
    ∃ hello, wellFormedHello first = some hello ∧
      (judge identity currentEpoch first).reply = some (ackReply identity hello) ∧
      session.epoch = hello.epoch ∧
      session.limits = Limits.negotiate identity.limits (Limits.fromHello hello) ∧
      ∃ bytes, send P (ackReply identity hello) delivered = .ok bytes := by
  cases hwf : wellFormedHello first with
  | none =>
      have hjudge : ∃ e, judge identity currentEpoch first = .close e :=
        judge_of_not_wellFormed hwf
      obtain ⟨e, he⟩ := hjudge
      rw [he] at h
      cases h
  | some hello =>
      rw [judge_of_wellFormed hwf] at h ⊢
      cases currentEpoch with
      | none =>
          rw [judgeHello_none] at h
          obtain ⟨rfl, hsend⟩ := send_of_finish_ok h
          exact ⟨hello, rfl, rfl, rfl, rfl, hsend⟩
      | some current =>
          rw [judgeHello_some] at h ⊢
          split at h
          · cases h
          · next hlower =>
              obtain ⟨rfl, hsend⟩ := send_of_finish_ok h
              rw [if_neg hlower]
              exact ⟨hello, rfl, rfl, rfl, rfl, hsend⟩

end FissionPlane.VmSteward
