/-
# FissionPlane.VmSteward.Handshake -- the two ends of the handshake

The host writes its `Hello`, the guest runs `accept`, and the host reads what the guest has written.
Each end then knows the other's limits, the guest from the `Hello` and the host from the `HelloAck`,
and each negotiates for itself. They come to the same session.
-/
import FissionPlane.VmSteward.Session

namespace FissionPlane.VmSteward

open FissionPlane.Lib.ProtoWire FissionPlane.Lib.ByteStream FissionPlane.VmProtocol

/-- The bytes `accept` leaves on the stream for the host. -/
def written (P : Prost) (identity : AgentIdentity) (currentEpoch : Option UInt64) (input : Bytes)
    (delivered : Bool) : Bytes :=
  match (judge identity currentEpoch (readFrame P input maxHelloSize).1).reply with
  | none => []
  | some reply =>
      match send P reply delivered with
      | .error _ => []
      | .ok bytes => bytes

/-! ## Ceilings -/

variable {P : Prost}

/-- What fits one ceiling is written alike under any that it fits. -/
theorem writeFrame_of_le {frame : Frame} {max max' : Nat} {out : Bytes}
    (hw : writeFrame P frame max = .ok out) (h : P.encodedLen frame ≤ max') :
    writeFrame P frame max' = .ok out := by
  obtain ⟨-, hu32, hout⟩ := writeFrame_eq_ok_iff.mp hw
  exact writeFrame_eq_ok_iff.mpr ⟨h, hu32, hout⟩

/-- A frame that was written is too large for a reader only when it is longer than its ceiling. -/
theorem lt_of_frameTooLarge {frame : Frame} {max max' len m : Nat} {out suffix : Bytes}
    (hw : writeFrame P frame max = .ok out)
    (h : (readFrame P (out ++ suffix) max').1 = .error (.frameTooLarge len m)) :
    max' < P.encodedLen frame := by
  by_contra hle
  rw [readFrame_writeFrame (writeFrame_of_le hw (Nat.le_of_not_lt hle))] at h
  split at h <;> cases h

/-- A frame that was written is read as itself, or not at all. -/
theorem eq_of_readFrame_ok {frame read : Frame} {max max' : Nat} {out suffix : Bytes}
    (hw : writeFrame P frame max = .ok out)
    (h : (readFrame P (out ++ suffix) max').1 = .ok read) : read = frame := by
  by_cases hle : P.encodedLen frame ≤ max'
  · rw [readFrame_writeFrame (writeFrame_of_le hw hle)] at h
    split at h
    · cases h
    · exact (Except.ok.inj h).symm
  · obtain ⟨-, hu32, rfl⟩ := writeFrame_eq_ok_iff.mp hw
    have hlength : fromBeBytes (putU32 (P.encodedLen frame)) = P.encodedLen frame :=
      fromBeBytes_putU32 (Nat.lt_of_le_of_lt hu32 (by decide))
    rw [readFrame, List.append_assoc, readExact_append (n := lengthPrefixBytes) (length_putU32 _)]
      at h
    dsimp only at h
    rw [hlength, if_pos (Nat.lt_of_not_le hle)] at h
    cases h

/-! ## Agreement -/

theorem toNat_min (a b : UInt32) : (min a b).toNat = min a.toNat b.toNat := by
  change (if a ≤ b then a else b).toNat = _
  split
  · next h => exact (Nat.min_eq_left (UInt32.le_iff_toNat_le.mp h)).symm
  · next h =>
      have hlt : b.toNat < a.toNat := Nat.lt_of_not_le (UInt32.le_iff_toNat_le.not.mp h)
      exact (Nat.min_eq_right (Nat.le_of_lt hlt)).symm

theorem negotiate_comm (a b : Limits) : Limits.negotiate a b = Limits.negotiate b a := by
  have hcomm : ∀ x y : UInt32, min x y = min y x := by
    intro x y
    rw [← UInt32.toNat_inj, toNat_min, toNat_min, Nat.min_comm]
  rw [Limits.negotiate, Limits.negotiate, hcomm a.maxFrameSize, hcomm a.chunkSize]

theorem negotiate_le (a b : Limits) :
    (Limits.negotiate a b).maxFrameSize.toNat ≤ a.maxFrameSize.toNat := by
  rw [Limits.negotiate, toNat_min]
  exact Nat.min_le_left _ _

/-- The guest has read the `Hello` that the host wrote. -/
theorem hello_of_accept_ok {frame : Frame} {hello : Hello} {max : Nat} {bytes rest : Bytes}
    {read : Hello} (hbody : frame.body = some (.hello hello))
    (hw : writeFrame P frame max = .ok bytes)
    (hread : wellFormedHello (readFrame P (bytes ++ rest) maxHelloSize).1 = some read) :
    read = hello := by
  obtain ⟨frame', hok, hopen, -⟩ := wellFormedHello_eq_some_iff.mp hread
  obtain rfl := eq_of_readFrame_ok hw hok
  unfold openingHello at hopen
  rw [hbody] at hopen
  simp only at hopen
  split at hopen
  · exact (Option.some.inj hopen).symm
  · cases hopen

/-- The host writes a `Hello` of its limits, and the guest ends up with a session. Then the host
reads an acknowledgement tagged with the epoch that it presented and the session holds; negotiating
its own limits with the ones it reads gives the session's; and within those neither side's ceiling
refuses a frame. -/
theorem handshake_agrees {frame : Frame} {hello : Hello} {max : Nat} {bytes : Bytes}
    (hbody : frame.body = some (.hello hello)) (hw : writeFrame P frame max = .ok bytes)
    (identity : AgentIdentity) (currentEpoch : Option UInt64) (rest : Bytes) (delivered : Bool)
    {session : Session}
    (haccept : accept P identity currentEpoch (bytes ++ rest) delivered = .ok session) :
    ∃ ackFrame ack,
      (∀ later, readFrame P (written P identity currentEpoch (bytes ++ rest) delivered ++ later)
        maxHelloSize = (.ok ackFrame, later)) ∧
      ackFrame.body = some (.helloAck ack) ∧
      ackFrame.epoch = hello.epoch ∧ session.epoch = hello.epoch ∧
      Limits.negotiate (Limits.fromHello hello) (Limits.fromHelloAck ack) = session.limits ∧
      ∀ f out ceiling, writeFrame P f ceiling = .ok out →
        P.encodedLen f ≤ session.limits.maxFrameSize.toNat →
        ∀ later len m,
          (readFrame P (out ++ later) hello.maxFrameSize.toNat).1 ≠ .error (.frameTooLarge len m) ∧
          (readFrame P (out ++ later) ack.maxFrameSize.toNat).1 ≠
            .error (.frameTooLarge len m) := by
  obtain ⟨read, hread, hreply, hepoch, hlimits, sent, hsent⟩ := acknowledged_of_finish_ok haccept
  obtain rfl := hello_of_accept_ok hbody hw hread
  have hwritten : writeFrame P (ackReply identity read) maxHelloSize = .ok sent := by
    unfold send at hsent
    split at hsent
    · cases hsent
    · next bytes' hbytes =>
        split at hsent
        · rw [hbytes, hsent]
        · cases hsent
  refine ⟨ackReply identity read, _, fun later => ?_, rfl, rfl, hepoch, ?_, ?_⟩
  · have hstream : written P identity currentEpoch (bytes ++ rest) delivered = sent := by
      simp only [written, hreply, hsent]
    rw [hstream, readFrame_writeFrame hwritten, if_neg]
    exact fun hdefault => by cases congrArg Frame.body hdefault
  · rw [hlimits, negotiate_comm]
    rfl
  · intro f out ceiling hf hle later len m
    rw [hlimits] at hle
    have hguest := negotiate_le identity.limits (Limits.fromHello read)
    have hhost := negotiate_le (Limits.fromHello read) identity.limits
    rw [negotiate_comm] at hhost
    refine ⟨fun herror => ?_, fun herror => ?_⟩
    · have hlt := lt_of_frameTooLarge hf herror
      exact absurd (Nat.le_trans hle hhost) (Nat.not_le_of_lt hlt)
    · have hlt := lt_of_frameTooLarge hf herror
      exact absurd (Nat.le_trans hle hguest) (Nat.not_le_of_lt hlt)

/-- A host of half the agent's limits, at epoch 7. -/
theorem handshake_agrees_seven :
    let hello : Hello := ⟨protocolVersion, 7, 2 * 1024 * 1024, 512 * 1024⟩
    let bytes : Bytes := [0, 0, 0, 15, 26, 13, 8, 1, 16, 7, 24, 128, 128, 128, 1, 32, 128, 128, 32]
    writeFrame vmProto ⟨streamIdSession, 0, some (.hello hello)⟩ maxHelloSize = .ok bytes ∧
      ∃ ackFrame ack,
        (∀ later, readFrame vmProto (written vmProto .current none (bytes ++ []) true ++ later)
          maxHelloSize = (.ok ackFrame, later)) ∧
        ackFrame.body = some (.helloAck ack) ∧ ackFrame.epoch = 7 ∧
        Limits.negotiate (Limits.fromHello hello) (Limits.fromHelloAck ack) =
          ⟨2 * 1024 * 1024, 512 * 1024⟩ := by
  intro hello bytes
  have hw : writeFrame vmProto ⟨streamIdSession, 0, some (.hello hello)⟩ maxHelloSize =
      .ok bytes := by decide +kernel
  have haccept : accept vmProto .current none (bytes ++ []) true =
      .ok ⟨7, ⟨2 * 1024 * 1024, 512 * 1024⟩, .join⟩ := by decide +kernel
  obtain ⟨ackFrame, ack, hread, hbody, hepoch, -, hlimits, -⟩ :=
    handshake_agrees rfl hw .current none [] true haccept
  exact ⟨hw, ackFrame, ack, hread, hbody, hepoch, hlimits⟩

end FissionPlane.VmSteward
