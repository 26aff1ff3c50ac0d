/-
# FissionPlane.VmSteward.Outcomes -- what a handshake leaves behind

`accept` once more, as the source runs it: over a connection that is read from and written to, with
a transport that may refuse any write. It is the judgement of the first frame followed by what the
judgement asks for, so the result and the frames on the connection are decided together: a session
is an acknowledgement that was written, a stale epoch is answered, and nothing else is.
-/
import FissionPlane.VmSteward.Session
import Mathlib.Data.Nat.Digits.Defs

namespace FissionPlane.VmSteward

open FissionPlane.Lib.ProtoWire FissionPlane.VmProtocol

/-! ## A connection -/

/-- The agent's end of a stream: what is left to read, the frames written, the writes tried. -/
structure Connection where
  input : Bytes
  sent : List Frame
  tried : Nat
  deriving DecidableEq, Repr

namespace Connection

variable (P : Prost) (delivers : Nat → Bool)

def readFrame (c : Connection) (maxFrameSize : Nat) : Except ProtocolError Frame × Connection :=
  let read := VmProtocol.readFrame P c.input maxFrameSize
  (read.1, { c with input := read.2 })

/-- A write that reaches the transport delivers the whole frame, or fails and leaves nothing. -/
def writeFrame (c : Connection) (frame : Frame) (maxFrameSize : Nat) :
    Except ProtocolError Unit × Connection :=
  match VmProtocol.writeFrame P frame maxFrameSize with
  | .error e => (.error e, c)
  | .ok _ =>
      if delivers c.tried then
        (.ok (), { c with sent := c.sent ++ [frame], tried := c.tried + 1 })
      else (.error .io, { c with tried := c.tried + 1 })

/-- `accept` -/
def accept (identity : AgentIdentity) (currentEpoch : Option UInt64) (c : Connection) :
    Except SessionError Session × Connection :=
  match c.readFrame P maxHelloSize with
  | (.error e, c) => (.error (.protocol e), c)
  | (.ok frame, c) =>
      match openingHello frame with
      | none => (.error .expectedHello, c)
      | some hello =>
          if hello.protocolVersion ≠ protocolVersion then
            (.error (.versionMismatch protocolVersion hello.protocolVersion), c)
          else
            let verdict := match currentEpoch with
              | none => EpochVerdict.join
              | some current => evaluate current hello.epoch
            match currentEpoch, verdict with
            | some current, .rejectStale =>
                -- best effort: the outcome of the write is dropped
                let c := (c.writeFrame P delivers (staleReply current hello) maxHelloSize).2
                (.error (.staleEpoch current hello.epoch), c)
            | _, verdict =>
                match c.writeFrame P delivers (ackReply identity hello) maxHelloSize with
                | (.error e, c) => (.error (.protocol e), c)
                | (.ok (), c) =>
                    (.ok ⟨hello.epoch,
                      Limits.negotiate identity.limits (Limits.fromHello hello), verdict⟩, c)

/-- What a judgement has the agent do. -/
def conclude (c : Connection) : Judgement → Except SessionError Session × Connection
  | .close e => (.error e, c)
  | .reject reply e => (.error e, (c.writeFrame P delivers reply maxHelloSize).2)
  | .acknowledge reply session =>
      match c.writeFrame P delivers reply maxHelloSize with
      | (.error e, c) => (.error (.protocol e), c)
      | (.ok (), c) => (.ok session, c)

variable {P delivers} {identity : AgentIdentity} {currentEpoch : Option UInt64} {c : Connection}

/-- The agent judges the first frame and acts on the judgement. -/
theorem accept_eq_conclude : c.accept P delivers identity currentEpoch =
    (c.readFrame P maxHelloSize).2.conclude P delivers
      (judge identity currentEpoch (c.readFrame P maxHelloSize).1) := by
  unfold accept
  generalize c.readFrame P maxHelloSize = read
  obtain ⟨first, c'⟩ := read
  cases first with
  | error e => rfl
  | ok frame =>
      simp only [judge]
      cases openingHello frame with
      | none => rfl
      | some hello =>
          simp only
          split
          · rfl
          · cases currentEpoch with
            | none => rfl
            | some current =>
                simp only [judgeHello]
                generalize evaluate current hello.epoch = verdict
                cases verdict <;> rfl

theorem conclude_result (c : Connection) (j : Judgement) :
    (c.conclude P delivers j).1 = finish P j (delivers c.tried) := by
  cases j with
  | close e => rfl
  | reject reply e => rfl
  | acknowledge reply session =>
      simp only [conclude, finish, send, writeFrame]
      cases VmProtocol.writeFrame P reply maxHelloSize with
      | error e => rfl
      | ok bytes =>
          by_cases hdelivers : delivers c.tried = true
          · simp only [if_pos hdelivers]
          · simp only [if_neg hdelivers]

/-- The result is the one of the handshake over the same input and transport. -/
theorem accept_result : (c.accept P delivers identity currentEpoch).1 =
    VmSteward.accept P identity currentEpoch c.input (delivers c.tried) := by
  rw [accept_eq_conclude, conclude_result]
  rfl

/-- A write leaves nothing, or the frame if it succeeds. -/
theorem writeFrame_cases (P : Prost) (delivers : Nat → Bool) (c : Connection) (frame : Frame) :
    (∃ e, (c.writeFrame P delivers frame maxHelloSize).1 = .error e ∧
      (c.writeFrame P delivers frame maxHelloSize).2.sent = c.sent) ∨
    ((c.writeFrame P delivers frame maxHelloSize).1 = .ok () ∧
      (c.writeFrame P delivers frame maxHelloSize).2.sent = c.sent ++ [frame]) := by
  unfold writeFrame
  split
  · exact .inl ⟨_, rfl, rfl⟩
  · split
    · exact .inr ⟨rfl, rfl⟩
    · exact .inl ⟨_, rfl, rfl⟩

/-- A frame that fits is written whenever the transport takes it. -/
theorem sent_writeFrame {frame : Frame} (hfits : P.encodedLen frame ≤ maxHelloSize)
    (hdelivers : delivers c.tried = true) :
    (c.writeFrame P delivers frame maxHelloSize).2.sent = c.sent ++ [frame] := by
  have hu32 : P.encodedLen frame ≤ u32Max := Nat.le_trans hfits (by decide)
  have hw := writeFrame_eq_ok_iff.mpr ⟨hfits, hu32, rfl⟩
  rw [writeFrame, hw]
  simp only [hdelivers, if_true]

end Connection

/-! ## The size of the stale reply -/

/-- Sixty-three characters at most, and the frame around them. -/
theorem encodedLen_staleReply_le (current : UInt64) (hello : Hello) :
    vmProto.encodedLen (staleReply current hello) ≤ maxHelloSize := by
  have hdigits : ∀ x : UInt64, (stringBytes (toString x.toNat)).length ≤ 4 * 20 := by
    intro x
    have hx : x.toNat < 10 ^ 20 := Nat.lt_of_lt_of_le x.toNat_lt (by decide)
    have hrepr : (toString x.toNat).length ≤ 20 := Nat.repr_length _ 20 (by decide) hx
    have hbytes := length_stringBytes_le (toString x.toNat)
    omega
  have hpresented := hdigits hello.epoch
  have hcurrent := hdigits current
  have hstale : (stringBytes "stale epoch ").length ≤ 4 * 12 := length_stringBytes_le _
  have hopen : (stringBytes " (current ").length ≤ 4 * 10 := length_stringBytes_le _
  have hclose : (stringBytes ")").length ≤ 4 := length_stringBytes_le _
  show (encodeFields ((optVarint 1 streamIdSession.toNat ++ optVarint 2 current.toNat) ++
    [⟨7, .len (encodeFields ((optVarint 1 (varintOfI32 ErrorCode.staleEpoch.toInt32) ++
      optLen 2 (stringBytes ("stale epoch " ++ toString hello.epoch.toNat ++ " (current " ++
        toString current.toNat ++ ")"))) ++ []))⟩])).length ≤ maxHelloSize
  rw [length_encodeFields_append, length_encodeFields_append, List.append_nil]
  have hstream := length_optVarint_le 1 streamIdSession.toNat
  have hepoch := length_optVarint_le 2 current.toNat
  have hcode := length_optVarint_le 1 (varintOfI32 ErrorCode.staleEpoch.toInt32)
  have hmessage := length_optLen_le 2 (stringBytes ("stale epoch " ++
    toString hello.epoch.toNat ++ " (current " ++ toString current.toNat ++ ")"))
  rw [length_stringBytes_append, length_stringBytes_append, length_stringBytes_append,
    length_stringBytes_append] at hmessage
  have hbody := length_encodeField_len_le 7
    (encodeFields (optVarint 1 (varintOfI32 ErrorCode.staleEpoch.toInt32) ++
      optLen 2 (stringBytes ("stale epoch " ++ toString hello.epoch.toNat ++ " (current " ++
        toString current.toNat ++ ")"))))
  rw [length_encodeFields_append] at hbody
  rw [encodeFields_cons, List.length_append]
  show _ + ((encodeField _).length + 0) ≤ 65536
  omega

/-! ## The outcome table -/

/-- The first frame is a `Hello` of the right version on the session stream. -/
def FirstHello (P : Prost) (input : Bytes) (hello : Hello) : Prop :=
  (∃ epoch, (readFrame P input maxHelloSize).1 =
    .ok ⟨streamIdSession, epoch, some (.hello hello)⟩) ∧
  hello.protocolVersion = protocolVersion

theorem openingHello_eq_some_iff {frame : Frame} {hello : Hello} :
    openingHello frame = some hello ↔
      ∃ epoch, frame = ⟨streamIdSession, epoch, some (.hello hello)⟩ := by
  obtain ⟨streamId, epoch, body⟩ := frame
  constructor
  · intro h
    unfold openingHello at h
    split at h
    · next hello' hbody =>
        split at h
        · next hstream =>
            obtain rfl := Option.some.inj h
            obtain rfl : streamId = streamIdSession := hstream
            obtain rfl : body = _ := hbody
            exact ⟨epoch, rfl⟩
        · cases h
    · cases h
  · rintro ⟨epoch', heq⟩
    rw [heq]
    rfl

theorem wellFormedHello_iff {P : Prost} {input : Bytes} {hello : Hello} :
    wellFormedHello (readFrame P input maxHelloSize).1 = some hello ↔
      FirstHello P input hello := by
  rw [wellFormedHello_eq_some_iff]
  constructor
  · rintro ⟨frame, hok, hopen, hversion⟩
    obtain ⟨epoch, rfl⟩ := openingHello_eq_some_iff.mp hopen
    exact ⟨⟨epoch, hok⟩, hversion⟩
  · rintro ⟨⟨epoch, hok⟩, hversion⟩
    exact ⟨_, hok, openingHello_eq_some_iff.mpr ⟨epoch, rfl⟩, hversion⟩

/-- The `Hello` that comes first presents an epoch below the current one. -/
def StaleHello (P : Prost) (currentEpoch : Option UInt64) (input : Bytes) : Prop :=
  ∃ current hello, currentEpoch = some current ∧ FirstHello P input hello ∧ hello.epoch < current

/-- What a handshake may end in: its result, and the frames it has written. -/
structure Outcome (P : Prost) (delivers : Nat → Bool) (currentEpoch : Option UInt64)
    (input : Bytes) (result : Except SessionError Session) (sent : List Frame) : Prop where
  /-- A session is one acknowledgement, and nothing else. -/
  session_iff : (∃ session, result = .ok session) ↔
    ∃ epoch ack, sent = [⟨streamIdSession, epoch, some (.helloAck ack)⟩]
  /-- It has the epoch presented, which is none below the current one. -/
  session : ∀ session, result = .ok session → ∃ hello, FirstHello P input hello ∧
    session.epoch = hello.epoch ∧
    (∀ current, currentEpoch = some current → current ≤ hello.epoch) ∧
    (session.verdict = .supersede ↔
      ∃ current, currentEpoch = some current ∧ current < hello.epoch) ∧
    (session.verdict = .join ↔ ¬ ∃ current, currentEpoch = some current ∧ current < hello.epoch)
  /-- A stale epoch is answered by one error or by nothing; by the error, if it fits a frame and
  the transport takes it. -/
  stale : ∀ current hello, currentEpoch = some current → FirstHello P input hello →
    hello.epoch < current → ∃ error : Error, error.code = ErrorCode.staleEpoch.toInt32 ∧
      (sent = [] ∨ sent = [⟨streamIdSession, current, some (.error error)⟩]) ∧
      (P.encodedLen (staleReply current hello) ≤ maxHelloSize → delivers 0 = true →
        sent = [⟨streamIdSession, current, some (.error error)⟩])
  /-- Every other failure is silent. -/
  silent : (∃ e, result = .error e) → ¬ StaleHello P currentEpoch input → sent = []

section

variable {P : Prost} {delivers : Nat → Bool} {identity : AgentIdentity}
  {currentEpoch : Option UInt64} {input : Bytes} {result : Except SessionError Session}
  {sent : List Frame} {hello : Hello}

/-- The connection is closed without a word. -/
theorem Outcome.of_close {e : SessionError} (hstale : ¬ StaleHello P currentEpoch input) :
    Outcome P delivers currentEpoch input (.error e) [] := by
  refine ⟨⟨?_, ?_⟩, nofun, ?_, fun _ _ => rfl⟩
  · rintro ⟨session, h⟩
    cases h
  · rintro ⟨epoch, ack, h⟩
    cases h
  · intro current hello hcurrent hfirst hlt
    exact absurd ⟨current, hello, hcurrent, hfirst, hlt⟩ hstale

theorem FirstHello.unique {hello' : Hello} (h : FirstHello P input hello)
    (h' : FirstHello P input hello') : hello = hello' :=
  Option.some.inj ((wellFormedHello_iff.mpr h).symm.trans (wellFormedHello_iff.mpr h'))

/-- The epoch is admitted: the outcome is that of the write. -/
theorem Outcome.of_admitted (hfirst : FirstHello P input hello)
    (hadmitted : ∀ current, currentEpoch = some current → current ≤ hello.epoch)
    {limits : Limits} {verdict : EpochVerdict}
    (hsupersede : verdict = .supersede ↔
      ∃ current, currentEpoch = some current ∧ current < hello.epoch)
    (hjoin : verdict = .join ↔
      ¬ ∃ current, currentEpoch = some current ∧ current < hello.epoch)
    (h : (∃ e, result = .error e ∧ sent = []) ∨
      (result = .ok ⟨hello.epoch, limits, verdict⟩ ∧ sent = [ackReply identity hello])) :
    Outcome P delivers currentEpoch input result sent := by
  have hstale : ¬ StaleHello P currentEpoch input := by
    rintro ⟨current, hello', hcurrent, hfirst', hlt⟩
    obtain rfl := hfirst.unique hfirst'
    have hle := UInt64.le_iff_toNat_le.mp (hadmitted current hcurrent)
    exact absurd (UInt64.lt_iff_toNat_lt.mp hlt) (Nat.not_lt.mpr hle)
  obtain ⟨e, rfl, rfl⟩ | ⟨rfl, rfl⟩ := h
  · exact .of_close hstale
  · refine ⟨⟨fun _ => ⟨_, _, rfl⟩, fun _ => ⟨_, rfl⟩⟩, ?_, ?_, ?_⟩
    · intro session h
      obtain rfl := Except.ok.inj h
      exact ⟨hello, hfirst, rfl, hadmitted, hsupersede, hjoin⟩
    · intro current hello' hcurrent hfirst' hlt
      exact absurd ⟨current, hello', hcurrent, hfirst', hlt⟩ hstale
    · rintro ⟨e, h⟩
      cases h

/-- The epoch is stale: the session is refused, with an answer or without. -/
theorem Outcome.of_stale {current : UInt64} {e : SessionError}
    (hsent : sent = [] ∨ sent = [staleReply current hello])
    (hdelivered : P.encodedLen (staleReply current hello) ≤ maxHelloSize → delivers 0 = true →
      sent = [staleReply current hello])
    (hfirst : FirstHello P input hello) (hlt : hello.epoch < current) :
    Outcome P delivers (some current) input (.error e) sent := by
  refine ⟨⟨?_, ?_⟩, nofun, ?_, ?_⟩
  · rintro ⟨session, h⟩
    cases h
  · rintro ⟨epoch, ack, hack⟩
    obtain rfl | rfl := hsent
    · cases hack
    · cases hack
  · intro current' hello' hcurrent hfirst' _
    obtain rfl := Option.some.inj hcurrent
    obtain rfl := hfirst.unique hfirst'
    exact ⟨_, rfl, hsent, hdelivered⟩
  · intro _ hstale
    exact absurd ⟨current, hello, rfl, hfirst, hlt⟩ hstale

/-- What follows the acknowledgement of a `Hello`. -/
theorem Connection.conclude_acknowledge (c : Connection) (reply : Frame) (session : Session) :
    (∃ e, (c.conclude P delivers (.acknowledge reply session)).1 = .error e ∧
      (c.conclude P delivers (.acknowledge reply session)).2.sent = c.sent) ∨
    ((c.conclude P delivers (.acknowledge reply session)).1 = .ok session ∧
      (c.conclude P delivers (.acknowledge reply session)).2.sent = c.sent ++ [reply]) := by
  have hcases := c.writeFrame_cases P delivers reply
  simp only [Connection.conclude]
  generalize c.writeFrame P delivers reply maxHelloSize = outcome at hcases
  obtain ⟨written, c'⟩ := outcome
  obtain ⟨e, rfl, hsent⟩ | ⟨rfl, hsent⟩ := hcases
  · exact .inl ⟨_, rfl, hsent⟩
  · exact .inr ⟨rfl, hsent⟩

end

theorem evaluate_admitted {current presented : UInt64} (h : ¬ presented < current) :
    evaluate current presented = if current < presented then .supersede else .join := by
  rw [evaluate, if_neg h]

/-- **The outcome table of `accept`.** Whatever the stream holds, whoever the agent is, whatever
epoch it holds and whatever the transport does, a handshake ends as the table says; and the schema's
encoding of a stale reply always fits. -/
theorem accept_outcome (P : Prost) (delivers : Nat → Bool) (identity : AgentIdentity)
    (currentEpoch : Option UInt64) (input : Bytes) :
    Outcome P delivers currentEpoch input
      (Connection.accept P delivers identity currentEpoch ⟨input, [], 0⟩).1
      (Connection.accept P delivers identity currentEpoch ⟨input, [], 0⟩).2.sent ∧
    ∀ current hello, vmProto.encodedLen (staleReply current hello) ≤ maxHelloSize := by
  refine ⟨?_, encodedLen_staleReply_le⟩
  rw [Connection.accept_eq_conclude]
  show Outcome P delivers currentEpoch input
    (Connection.conclude P delivers ⟨(readFrame P input maxHelloSize).2, [], 0⟩ (judge identity
      currentEpoch (readFrame P input maxHelloSize).1)).1
    (Connection.conclude P delivers ⟨(readFrame P input maxHelloSize).2, [], 0⟩ (judge identity
      currentEpoch (readFrame P input maxHelloSize).1)).2.sent
  generalize hc : (⟨(readFrame P input maxHelloSize).2, [], 0⟩ : Connection) = c
  have hempty : c.sent = [] := by rw [← hc]
  have htried : c.tried = 0 := by rw [← hc]
  cases hwf : wellFormedHello (readFrame P input maxHelloSize).1 with
  | none =>
      have hclose : ∃ e, judge identity currentEpoch _ = .close e := judge_of_not_wellFormed hwf
      obtain ⟨e, he⟩ := hclose
      rw [he]
      show Outcome P delivers currentEpoch input (.error e) c.sent
      rw [hempty]
      refine .of_close ?_
      rintro ⟨current, hello, -, hfirst, -⟩
      cases hwf.symm.trans (wellFormedHello_iff.mpr hfirst)
  | some hello =>
      have hfirst := wellFormedHello_iff.mp hwf
      rw [judge_of_wellFormed hwf]
      cases currentEpoch with
      | none =>
          rw [judgeHello_none]
          refine .of_admitted hfirst nofun ?_ ?_ (hempty ▸ c.conclude_acknowledge _ _)
          · simp
          · simp
      | some current =>
          rw [judgeHello_some]
          split
          · next hlt =>
              refine .of_stale ?_ (fun hfits hdelivers => ?_) hfirst hlt
              · have hcases := c.writeFrame_cases P delivers (staleReply current hello)
                rw [hempty] at hcases
                exact hcases.imp (fun h => h.choose_spec.2) And.right
              · have hsent := Connection.sent_writeFrame (c := c) hfits (htried ▸ hdelivers)
                rwa [hempty] at hsent
          · next hlt =>
              have hle : current ≤ hello.epoch := by
                rw [UInt64.le_iff_toNat_le]
                exact Nat.not_lt.mp (UInt64.lt_iff_toNat_lt.not.mp hlt)
              rw [evaluate_admitted hlt]
              refine .of_admitted hfirst ?_ ?_ ?_ (hempty ▸ c.conclude_acknowledge _ _)
              · intro current' hcurrent
                obtain rfl := Option.some.inj hcurrent
                exact hle
              · by_cases hgt : current < hello.epoch <;> simp [hgt]
              · by_cases hgt : current < hello.epoch <;> simp [hgt]

end FissionPlane.VmSteward
