/-
# FissionPlane.VmProtocol.Codec -- wire framing

A frame travels as a big-endian length prefix followed by its encoding. `readFrame` checks the
prefix against the ceiling before it reads a body; `writeFrame` checks the same ceiling before it
encodes. Both are stated over what a stream holds: the reader returns what is left unread, the
writer the bytes it hands to the stream.

The two ceilings agree, the two notions of "empty" do not: the reader takes a zero prefix for a
frame without a body, and the writer writes that prefix for the frame all of whose fields hold
their default. That frame is the whole difference between what is written and what is read back.
-/
import FissionPlane.Lib.ByteStream
import FissionPlane.VmProtocol.Session

namespace FissionPlane.VmProtocol

open FissionPlane.Lib.ProtoWire FissionPlane.Lib.ByteStream

/-! ## Errors of the framing layer -/

inductive ProtocolError where
  | io
  | frameTooLarge (len max : Nat)
  | emptyFrame
  | decode
  | encode
  deriving DecidableEq, Repr

/-! ## Reading and writing one frame -/

/-- Width of the length prefix, in bytes. -/
def lengthPrefixBytes : Nat := 4

variable (P : Prost)

/-- The body of `readFrame`, once the prefix is in and has passed both checks. -/
def readBody (input : Bytes) (len : Nat) : Except ProtocolError Frame × Bytes :=
  match readExact len input with
  | (none, rest) => (.error .io, rest)
  | (some body, rest) =>
      match P.decode body with
      | none => (.error .decode, rest)
      | some frame => (.ok frame, rest)

/-- Read one frame, enforcing the ceiling before the body is read. -/
def readFrame (input : Bytes) (maxFrameSize : Nat) : Except ProtocolError Frame × Bytes :=
  match readExact lengthPrefixBytes input with
  | (none, rest) => (.error .io, rest)
  | (some bytes, rest) =>
      let len := fromBeBytes bytes
      if maxFrameSize < len then (.error (.frameTooLarge len maxFrameSize), rest)
      -- the writer makes no such check
      else if len = 0 then (.error .emptyFrame, rest)
      else readBody P rest len

/-- The bytes one frame is written as; the second check is the conversion to `u32`. -/
def writeFrame (frame : Frame) (maxFrameSize : Nat) : Except ProtocolError Bytes :=
  let len := P.encodedLen frame
  if maxFrameSize < len then .error (.frameTooLarge len maxFrameSize)
  else if u32Max < len then .error (.frameTooLarge len maxFrameSize)
  else .ok (putU32 len ++ P.encode frame)

/-! ## Sequences of frames -/

/-- The bytes left on a stream by writing frame after frame, if every write succeeds. -/
def writeFrames (frames : List Frame) (maxFrameSize : Nat) : Except ProtocolError Bytes :=
  match frames with
  | [] => .ok []
  | frame :: frames =>
      match writeFrame P frame maxFrameSize with
      | .error e => .error e
      | .ok bytes => (writeFrames frames maxFrameSize).map (bytes ++ ·)

/-- Read `n` frames, stopping at the first failure. -/
def readFrames (n : Nat) (input : Bytes) (maxFrameSize : Nat) :
    Except ProtocolError (List Frame) × Bytes :=
  match n with
  | 0 => (.ok [], input)
  | n + 1 =>
      match readFrame P input maxFrameSize with
      | (.error e, rest) => (.error e, rest)
      | (.ok frame, rest) =>
          match readFrames n rest maxFrameSize with
          | (.error e, rest) => (.error e, rest)
          | (.ok frames, rest) => (.ok (frame :: frames), rest)

/-! ## What a write says, and what a read makes of it -/

variable {P}

/-- A write succeeds exactly within both bounds, and then writes prefix and encoding. -/
theorem writeFrame_eq_ok_iff {frame : Frame} {max : Nat} {out : Bytes} :
    writeFrame P frame max = .ok out ↔
      P.encodedLen frame ≤ max ∧ P.encodedLen frame ≤ u32Max ∧
        out = putU32 (P.encodedLen frame) ++ P.encode frame := by
  unfold writeFrame
  dsimp only
  split
  · next h => exact ⟨fun heq => (by cases heq), fun hok => absurd hok.1 (Nat.not_le.mpr h)⟩
  · next hmax =>
      split
      · next h =>
          exact ⟨fun heq => (by cases heq), fun hok => absurd hok.2.1 (Nat.not_le.mpr h)⟩
      · next hu32 =>
          refine ⟨fun heq => ⟨Nat.not_lt.mp hmax, Nat.not_lt.mp hu32, ?_⟩, fun hok => ?_⟩
          · exact (Except.ok.inj heq).symm
          · rw [hok.2.2]

theorem writeFrames_cons_eq_ok_iff {frame : Frame} {frames : List Frame} {max : Nat}
    {out : Bytes} :
    writeFrames P (frame :: frames) max = .ok out ↔
      ∃ bytes rest, writeFrame P frame max = .ok bytes ∧ writeFrames P frames max = .ok rest ∧
        out = bytes ++ rest := by
  rw [writeFrames]
  cases hw : writeFrame P frame max with
  | error e =>
      constructor
      · intro h
        cases h
      · rintro ⟨_, _, h, -⟩
        cases h
  | ok bytes =>
      cases hws : writeFrames P frames max with
      | error e =>
          constructor
          · intro h
            cases h
          · rintro ⟨_, _, -, h, -⟩
            cases h
      | ok rest =>
          constructor
          · intro h
            exact ⟨bytes, rest, rfl, rfl, (Except.ok.inj h).symm⟩
          · rintro ⟨_, _, hb, hr, rfl⟩
            obtain rfl := Except.ok.inj hb
            obtain rfl := Except.ok.inj hr
            rfl

/-- A body of the announced length is read whole and decoded. -/
theorem readBody_encode {frame : Frame} (hlen : P.encodedLen frame ≤ u32Max) (rest : Bytes) :
    readBody P (P.encode frame ++ rest) (P.encodedLen frame) = (.ok frame, rest) := by
  have hread : readExact (P.encodedLen frame) (P.encode frame ++ rest) =
      (some (P.encode frame), rest) := readExact_append rfl rest
  rw [readBody, hread]
  dsimp only
  rw [P.decode_encode frame hlen]

/-- Reading what was written: the frame itself, but for a frame of no bytes. -/
theorem readFrame_writeFrame {frame : Frame} {max : Nat} {out : Bytes}
    (hw : writeFrame P frame max = .ok out) (rest : Bytes) :
    readFrame P (out ++ rest) max =
      if frame = Frame.default then (.error .emptyFrame, rest) else (.ok frame, rest) := by
  obtain ⟨hmax, hu32, rfl⟩ := writeFrame_eq_ok_iff.mp hw
  have hlength : fromBeBytes (putU32 (P.encodedLen frame)) = P.encodedLen frame :=
    fromBeBytes_putU32 (Nat.lt_of_le_of_lt hu32 (by decide))
  rw [readFrame, List.append_assoc, readExact_append (n := lengthPrefixBytes) (length_putU32 _)]
  dsimp only
  rw [hlength, if_neg (Nat.not_lt.mpr hmax)]
  by_cases hdefault : frame = Frame.default
  · have hzero : P.encodedLen frame = 0 := (P.encodedLen_eq_zero_iff frame).mpr hdefault
    have hnil : P.encode frame = [] := List.length_eq_zero_iff.mp hzero
    rw [if_pos hzero, if_pos hdefault, hnil, List.nil_append]
  · have hpos : ¬ P.encodedLen frame = 0 := fun h =>
      hdefault ((P.encodedLen_eq_zero_iff frame).mp h)
    rw [if_neg hpos, if_neg hdefault, readBody_encode hu32]

/-- Frames without the all-default one are read back in order, up to the suffix. -/
theorem readFrames_of_ne_default {max : Nat} (suffix : Bytes) :
    ∀ {frames : List Frame} {out : Bytes}, writeFrames P frames max = .ok out →
      (∀ f ∈ frames, f ≠ Frame.default) →
      readFrames P frames.length (out ++ suffix) max = (.ok frames, suffix)
  | [], out, hw, _ => by
      obtain rfl := Except.ok.inj hw
      rfl
  | frame :: frames, out, hw, hne => by
      obtain ⟨bytes, rest, hb, hr, rfl⟩ := writeFrames_cons_eq_ok_iff.mp hw
      have hframe : frame ≠ Frame.default := hne frame List.mem_cons_self
      have ih := readFrames_of_ne_default suffix hr fun f hf => hne f (List.mem_cons_of_mem _ hf)
      rw [List.length_cons, readFrames, List.append_assoc, readFrame_writeFrame hb,
        if_neg hframe]
      dsimp only
      rw [ih]

/-- A read that gives the frames back met no all-default frame. -/
theorem ne_default_of_readFrames {max : Nat} (suffix : Bytes) :
    ∀ {frames : List Frame} {out rest : Bytes}, writeFrames P frames max = .ok out →
      readFrames P frames.length (out ++ suffix) max = (.ok frames, rest) →
      ∀ f ∈ frames, f ≠ Frame.default
  | [], _, _, _, _ => fun f hf => absurd hf List.not_mem_nil
  | frame :: frames, out, rest, hw, hread => by
      obtain ⟨bytes, tail, hb, hr, rfl⟩ := writeFrames_cons_eq_ok_iff.mp hw
      rw [List.length_cons, readFrames, List.append_assoc, readFrame_writeFrame hb] at hread
      by_cases hdefault : frame = Frame.default
      · rw [if_pos hdefault] at hread
        cases hread
      · rw [if_neg hdefault] at hread
        dsimp only at hread
        cases hrest : readFrames P frames.length (tail ++ suffix) max with
        | mk result left =>
            rw [hrest] at hread
            cases result with
            | error e => cases hread
            | ok read =>
                dsimp only at hread
                have hread' : read = frames := by
                  have := Except.ok.inj (Prod.mk.inj hread).1
                  exact (List.cons.inj this).2
                subst hread'
                have ih := ne_default_of_readFrames suffix hr hrest
                intro f hf
                rcases List.mem_cons.mp hf with rfl | hf
                · exact hdefault
                · exact ih f hf

/-- Written frames come back exactly, with exactly the suffix left, when and only when the
all-default frame is not among them. -/
theorem readFrames_writeFrames_iff {max : Nat} {frames : List Frame} {out : Bytes}
    (hw : writeFrames P frames max = .ok out) (suffix : Bytes) :
    readFrames P frames.length (out ++ suffix) max = (.ok frames, suffix) ↔
      ∀ f ∈ frames, f ≠ Frame.default :=
  ⟨ne_default_of_readFrames suffix hw, readFrames_of_ne_default suffix hw⟩

/-- A `Ping` at epoch 7 and a frame with no body on stream 3. -/
theorem writeFrames_small :
    writeFrames vmProto [⟨0, 7, some (.ping ⟨0⟩)⟩, ⟨3, 0, none⟩] maxHelloSize =
      .ok [0, 0, 0, 4, 16, 7, 42, 0, 0, 0, 0, 2, 8, 3] := rfl

theorem readFrames_small :
    readFrames vmProto 2 ([0, 0, 0, 4, 16, 7, 42, 0, 0, 0, 0, 2, 8, 3] ++ [1, 2, 3])
      maxHelloSize = (.ok [⟨0, 7, some (.ping ⟨0⟩)⟩, ⟨3, 0, none⟩], [1, 2, 3]) := by
  have h := readFrames_writeFrames_iff writeFrames_small [1, 2, 3]
  exact h.mpr (by decide)

/-- The frame with no body on the session stream at epoch 0 is written and not read back. -/
theorem readFrames_default :
    writeFrames vmProto [Frame.default] maxHelloSize = .ok [0, 0, 0, 0] ∧
      readFrames vmProto 1 ([0, 0, 0, 0] ++ [9]) maxHelloSize = (.error .emptyFrame, [9]) :=
  ⟨rfl, by decide +kernel⟩

end FissionPlane.VmProtocol
