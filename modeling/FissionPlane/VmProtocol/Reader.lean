/-
# FissionPlane.VmProtocol.Reader -- one frame off a hostile stream

`Codec.readFrame` says what is read and what is left. What a peer can make the reader reserve is a
second question, so here a reader also keeps the size of every buffer it has set aside: four bytes
for the prefix, and then, only once the announced length has passed both checks, that many for the
body.

The four ways a read can go are told apart by the announced length and by how much follows it.
Each of them has one equation below, and every statement about hostile input is read off those.
-/
import FissionPlane.VmProtocol.Codec

namespace FissionPlane.VmProtocol

open FissionPlane.Lib.ProtoWire FissionPlane.Lib.ByteStream

/-! ## A reader and its buffers -/

/-- The bytes still to be read, and the size of every buffer reserved so far, oldest first. -/
structure Reader where
  input : Bytes
  buffers : List Nat
  deriving DecidableEq, Repr

namespace Reader

/-- Reserve a buffer of `len` bytes and read until it is full. -/
def fill (r : Reader) (len : Nat) : Option Bytes × Reader :=
  ((readExact len r.input).1, ⟨(readExact len r.input).2, r.buffers ++ [len]⟩)

variable (P : Prost)

/-- The body as a frame, or the decoder's failure. -/
def decodeFrame (body : Bytes) : Except ProtocolError Frame :=
  match P.decode body with
  | none => .error .decode
  | some frame => .ok frame

/-- `Codec.readFrame` with the buffers it reserves: the second one against a checked length. -/
def readFrame (r : Reader) (maxFrameSize : Nat) : Except ProtocolError Frame × Reader :=
  match r.fill lengthPrefixBytes with
  | (none, r) => (.error .io, r)
  | (some bytes, r) =>
      let len := fromBeBytes bytes
      if maxFrameSize < len then (.error (.frameTooLarge len maxFrameSize), r)
      else if len = 0 then (.error .emptyFrame, r)
      else
        match r.fill len with
        | (none, r) => (.error .io, r)
        | (some body, r) => (decodeFrame P body, r)

/-- Keeping the buffers changes neither what is read nor what is left. -/
theorem readFrame_eq (r : Reader) (max : Nat) :
    ((r.readFrame P max).1, (r.readFrame P max).2.input) = VmProtocol.readFrame P r.input max := by
  unfold readFrame VmProtocol.readFrame fill
  rcases readExact lengthPrefixBytes r.input with ⟨_ | bytes, rest⟩
  · rfl
  · dsimp only
    split
    · rfl
    · split
      · rfl
      · unfold readBody
        rcases readExact (fromBeBytes bytes) rest with ⟨_ | body, left⟩
        · rfl
        · dsimp only [decodeFrame]
          cases P.decode body <;> rfl

/-- Frame after frame, stopping at the first failure. -/
def readFrames (n : Nat) (r : Reader) (maxFrameSize : Nat) :
    Except ProtocolError (List Frame) × Reader :=
  match n with
  | 0 => (.ok [], r)
  | n + 1 =>
      match r.readFrame P maxFrameSize with
      | (.error e, r) => (.error e, r)
      | (.ok frame, r) =>
          match readFrames n r maxFrameSize with
          | (.error e, r) => (.error e, r)
          | (.ok frames, r) => (.ok (frame :: frames), r)

/-! ## The four ways a read goes -/

/-- The length the next four bytes announce. -/
def announced (r : Reader) : Nat := fromBeBytes (r.input.take lengthPrefixBytes)

/-- What stands behind the prefix. -/
def body (r : Reader) : Bytes := (r.input.drop lengthPrefixBytes).take r.announced

theorem fill_of_le {r : Reader} {len : Nat} (h : len ≤ r.input.length) :
    r.fill len = (some (r.input.take len), ⟨r.input.drop len, r.buffers ++ [len]⟩) := by
  unfold fill readExact
  rw [if_pos h]

theorem fill_of_lt {r : Reader} {len : Nat} (h : r.input.length < len) :
    r.fill len = (none, ⟨[], r.buffers ++ [len]⟩) := by
  unfold fill readExact
  rw [if_neg (Nat.not_le.mpr h)]

variable {P} {r : Reader} {max : Nat}

/-- The prefix itself is cut short. -/
theorem readFrame_of_short (h : r.input.length < lengthPrefixBytes) :
    r.readFrame P max = (.error .io, ⟨[], r.buffers ++ [lengthPrefixBytes]⟩) := by
  unfold readFrame
  rw [fill_of_lt h]

/-- The failure for a length that is not let through. -/
def refusal (len max : Nat) : ProtocolError :=
  if max < len then .frameTooLarge len max else .emptyFrame

/-- A length of zero or above the ceiling: nothing is read or reserved after the prefix. -/
theorem readFrame_of_refused (h : lengthPrefixBytes ≤ r.input.length)
    (hlen : r.announced = 0 ∨ max < r.announced) :
    r.readFrame P max = (.error (refusal r.announced max),
      ⟨r.input.drop lengthPrefixBytes, r.buffers ++ [lengthPrefixBytes]⟩) := by
  unfold readFrame refusal announced at *
  rw [fill_of_le h]
  dsimp only
  by_cases hmax : max < fromBeBytes (r.input.take lengthPrefixBytes)
  · rw [if_pos hmax, if_pos hmax]
  · have hzero : fromBeBytes (r.input.take lengthPrefixBytes) = 0 := by omega
    rw [if_neg hmax, if_neg hmax, if_pos hzero]

/-- Past both checks, the read is that of the body. -/
theorem readFrame_of_admitted (h : lengthPrefixBytes ≤ r.input.length)
    (hpos : 1 ≤ r.announced) (hmax : r.announced ≤ max) :
    r.readFrame P max =
      match (Reader.mk (r.input.drop lengthPrefixBytes)
          (r.buffers ++ [lengthPrefixBytes])).fill r.announced with
      | (none, r) => (.error .io, r)
      | (some body, r) => (decodeFrame P body, r) := by
  unfold readFrame announced at *
  rw [fill_of_le h]
  dsimp only
  rw [if_neg (by omega), if_neg (by omega)]

/-- The body is cut short. -/
theorem readFrame_of_cut (h : lengthPrefixBytes ≤ r.input.length) (hpos : 1 ≤ r.announced)
    (hmax : r.announced ≤ max) (hcut : r.input.length < lengthPrefixBytes + r.announced) :
    r.readFrame P max = (.error .io, ⟨[], r.buffers ++ [lengthPrefixBytes] ++ [r.announced]⟩) := by
  have hbody : (r.input.drop lengthPrefixBytes).length < r.announced := by
    rw [List.length_drop]
    omega
  rw [readFrame_of_admitted h hpos hmax, fill_of_lt hbody]

/-- The whole body is there, and goes to the decoder. -/
theorem readFrame_of_whole (hpos : 1 ≤ r.announced) (hmax : r.announced ≤ max)
    (hwhole : lengthPrefixBytes + r.announced ≤ r.input.length) :
    r.readFrame P max = (decodeFrame P r.body,
      ⟨r.input.drop (lengthPrefixBytes + r.announced),
        r.buffers ++ [lengthPrefixBytes] ++ [r.announced]⟩) := by
  have h : lengthPrefixBytes ≤ r.input.length := by omega
  have hbody : r.announced ≤ (r.input.drop lengthPrefixBytes).length := by
    rw [List.length_drop]
    omega
  rw [readFrame_of_admitted h hpos hmax, fill_of_le hbody]
  dsimp only
  rw [List.drop_drop]
  rfl

/-! ## Hostile input -/

theorem decode_of_decodeFrame {body : Bytes} {frame : Frame}
    (h : decodeFrame P body = .ok frame) : P.decode body = some frame := by
  unfold decodeFrame at h
  cases hdecode : P.decode body with
  | none =>
      rw [hdecode] at h
      cases h
  | some found =>
      rw [hdecode] at h
      rw [Except.ok.inj h]

/-- The prefix and the body of one frame, as they stand on the stream. -/
structure Framed (max : Nat) (header body : Bytes) : Prop where
  width : header.length = lengthPrefixBytes
  announced : fromBeBytes header = body.length
  nonempty : 1 ≤ body.length
  admitted : body.length ≤ max

/-- The input split where the reader splits it. -/
theorem input_eq_of_whole (r : Reader) :
    r.input = r.input.take lengthPrefixBytes ++ r.body ++
      r.input.drop (lengthPrefixBytes + r.announced) := by
  unfold body
  rw [← List.drop_drop, List.append_assoc, List.take_append_drop, List.take_append_drop]

theorem framed_of_whole (hpos : 1 ≤ r.announced) (hmax : r.announced ≤ max)
    (hwhole : lengthPrefixBytes + r.announced ≤ r.input.length) :
    Framed max (r.input.take lengthPrefixBytes) r.body := by
  have hlength : r.body.length = r.announced := by
    unfold body
    rw [List.length_take, List.length_drop]
    omega
  refine ⟨?_, hlength.symm, ?_, ?_⟩
  · rw [List.length_take]
    omega
  · omega
  · omega

/-- The announced length of a stream that starts with a prefix. -/
theorem announced_of_append {header rest : Bytes} (hinput : r.input = header ++ rest)
    (hwidth : header.length = lengthPrefixBytes) : r.announced = fromBeBytes header := by
  unfold announced
  rw [hinput, ← hwidth, List.take_left]

/-- Whatever comes out of the decoder was a whole, admitted frame, and just that is consumed. -/
theorem framed_of_readFrame
    (h : (∃ frame, (r.readFrame P max).1 = .ok frame) ∨
      (r.readFrame P max).1 = .error .decode) :
    ∃ header body, r.input = header ++ body ++ (r.readFrame P max).2.input ∧
      Framed max header body ∧ (r.readFrame P max).1 = decodeFrame P body := by
  by_cases hshort : r.input.length < lengthPrefixBytes
  · rw [readFrame_of_short hshort] at h
    rcases h with ⟨_, h⟩ | h
    · cases h
    · cases h
  have hprefix : lengthPrefixBytes ≤ r.input.length := by omega
  by_cases hlen : r.announced = 0 ∨ max < r.announced
  · rw [readFrame_of_refused hprefix hlen] at h
    dsimp only [refusal] at h
    split at h
    · rcases h with ⟨_, h⟩ | h
      · cases h
      · cases h
    · rcases h with ⟨_, h⟩ | h
      · cases h
      · cases h
  have hpos : 1 ≤ r.announced := by omega
  have hmax : r.announced ≤ max := by omega
  by_cases hcut : r.input.length < lengthPrefixBytes + r.announced
  · rw [readFrame_of_cut hprefix hpos hmax hcut] at h
    rcases h with ⟨_, h⟩ | h
    · cases h
    · cases h
  have hwhole : lengthPrefixBytes + r.announced ≤ r.input.length := by omega
  rw [readFrame_of_whole hpos hmax hwhole]
  exact ⟨_, _, input_eq_of_whole r, framed_of_whole hpos hmax hwhole, rfl⟩

/-- Only the prefix is reserved for before the length is checked, and the body never past the
ceiling. -/
theorem buffers_readFrame (r : Reader) (max : Nat) :
    ∃ bodies, (r.readFrame P max).2.buffers = r.buffers ++ lengthPrefixBytes :: bodies ∧
      ∀ size ∈ bodies, size ≤ max := by
  have hnone : ∀ size ∈ ([] : List Nat), size ≤ max := fun _ h => absurd h List.not_mem_nil
  by_cases hshort : r.input.length < lengthPrefixBytes
  · rw [readFrame_of_short hshort]
    exact ⟨[], rfl, hnone⟩
  have hprefix : lengthPrefixBytes ≤ r.input.length := by omega
  by_cases hlen : r.announced = 0 ∨ max < r.announced
  · rw [readFrame_of_refused hprefix hlen]
    exact ⟨[], rfl, hnone⟩
  have hpos : 1 ≤ r.announced := by omega
  have hmax : r.announced ≤ max := by omega
  have hone : ∀ size ∈ [r.announced], size ≤ max := by
    intro size hsize
    rw [List.mem_singleton.mp hsize]
    exact hmax
  by_cases hcut : r.input.length < lengthPrefixBytes + r.announced
  · rw [readFrame_of_cut hprefix hpos hmax hcut]
    exact ⟨[r.announced], List.append_assoc .., hone⟩
  · rw [readFrame_of_whole hpos hmax (by omega)]
    exact ⟨[r.announced], List.append_assoc .., hone⟩

/-- A length that is not let through fails with nothing consumed but the prefix. -/
theorem readFrame_refused {header rest : Bytes} (hinput : r.input = header ++ rest)
    (hwidth : header.length = lengthPrefixBytes)
    (hlen : fromBeBytes header = 0 ∨ max < fromBeBytes header) :
    (r.readFrame P max).1 = .error (refusal (fromBeBytes header) max) ∧
      (r.readFrame P max).2.input = rest := by
  have hprefix : lengthPrefixBytes ≤ r.input.length := by
    rw [hinput, List.length_append]
    omega
  have hannounced := announced_of_append hinput hwidth
  rw [← hannounced] at hlen ⊢
  rw [readFrame_of_refused hprefix hlen]
  refine ⟨rfl, ?_⟩
  show r.input.drop lengthPrefixBytes = rest
  rw [hinput, ← hwidth, List.drop_left]

/-- A stream that ends inside the prefix or inside an admitted body is an I/O failure. -/
theorem readFrame_io
    (h : r.input.length < lengthPrefixBytes ∨ ∃ header rest, r.input = header ++ rest ∧
      header.length = lengthPrefixBytes ∧ 1 ≤ fromBeBytes header ∧ fromBeBytes header ≤ max ∧
      rest.length < fromBeBytes header) :
    (r.readFrame P max).1 = .error .io := by
  rcases h with hshort | ⟨header, rest, hinput, hwidth, hpos, hmax, hrest⟩
  · rw [readFrame_of_short hshort]
  · have hlength : r.input.length = header.length + rest.length := by
      rw [hinput, List.length_append]
    have hannounced := announced_of_append hinput hwidth
    rw [readFrame_of_cut (by omega) (by omega) (by omega) (by omega)]

/-- A whole admitted body that decodes is returned. -/
theorem readFrame_framed {header body rest : Bytes} (hinput : r.input = header ++ body ++ rest)
    (hframed : Framed max header body) : (r.readFrame P max).1 = decodeFrame P body := by
  obtain ⟨hwidth, hannounces, hpos, hmax⟩ := hframed
  have hannounced : r.announced = body.length :=
    (announced_of_append (hinput.trans (List.append_assoc ..)) hwidth).trans hannounces
  have hbody : r.body = body := by
    unfold Reader.body
    rw [hannounced, hinput, ← hwidth, List.append_assoc, List.drop_left, List.take_left]
  have hwhole : lengthPrefixBytes + r.announced ≤ r.input.length := by
    rw [hinput, List.length_append, List.length_append]
    omega
  rw [readFrame_of_whole (by omega) (by omega) hwhole, hbody]

/-- Reads that succeed one after another take the stream apart frame by frame. -/
theorem framed_of_readFrames :
    ∀ {n : Nat} {r r' : Reader} {frames : List Frame},
      r.readFrames P n max = (.ok frames, r') →
      ∃ parts : List (Bytes × Bytes),
        r.input = (parts.flatMap fun part => part.1 ++ part.2) ++ r'.input ∧
        List.Forall₂ (fun part frame => Framed max part.1 part.2 ∧
          P.decode part.2 = some frame) parts frames
  | 0, r, r', frames, h => by
      obtain ⟨hframes, rfl⟩ := Prod.mk.inj h
      obtain rfl := Except.ok.inj hframes
      exact ⟨[], rfl, .nil⟩
  | n + 1, r, r', frames, h => by
      rw [readFrames] at h
      cases hfirst : r.readFrame P max with
      | mk result left =>
          rw [hfirst] at h
          cases result with
          | error e => cases h
          | ok frame =>
              dsimp only at h
              cases hrest : left.readFrames P n max with
              | mk results last =>
                  rw [hrest] at h
                  cases results with
                  | error e => cases h
                  | ok rest =>
                      obtain ⟨hframes, rfl⟩ := Prod.mk.inj h
                      obtain rfl := Except.ok.inj hframes
                      obtain ⟨parts, hparts, hall⟩ := framed_of_readFrames hrest
                      obtain ⟨header, body, hinput, hframed, hdecode⟩ :=
                        framed_of_readFrame (Or.inl ⟨frame, by rw [hfirst]⟩)
                      rw [hfirst] at hinput hdecode
                      refine ⟨(header, body) :: parts, ?_, .cons ⟨hframed, ?_⟩ hall⟩
                      · rw [hinput, hparts, List.flatMap_cons, List.append_assoc (header ++ body)]
                      · exact decode_of_decodeFrame hdecode.symm

/-- Reading off a hostile stream: what makes it succeed, what each outcome consumes, and what is
reserved on the way. -/
theorem readFrame_hostile (P : Prost) (r : Reader) (max : Nat) :
    (∀ frame, (r.readFrame P max).1 = .ok frame ↔ ∃ header body rest,
      r.input = header ++ body ++ rest ∧ Framed max header body ∧ P.decode body = some frame) ∧
    ((∃ frame, (r.readFrame P max).1 = .ok frame) ∨ (r.readFrame P max).1 = .error .decode →
      ∃ header body, r.input = header ++ body ++ (r.readFrame P max).2.input ∧
        Framed max header body) ∧
    (∀ header rest, r.input = header ++ rest → header.length = lengthPrefixBytes →
      fromBeBytes header = 0 ∨ max < fromBeBytes header →
      (r.readFrame P max).1 = .error (refusal (fromBeBytes header) max) ∧
        (r.readFrame P max).2.input = rest) ∧
    ((r.input.length < lengthPrefixBytes ∨ ∃ header rest, r.input = header ++ rest ∧
        header.length = lengthPrefixBytes ∧ 1 ≤ fromBeBytes header ∧ fromBeBytes header ≤ max ∧
        rest.length < fromBeBytes header) →
      (r.readFrame P max).1 = .error .io) ∧
    (∃ bodies, (r.readFrame P max).2.buffers = r.buffers ++ lengthPrefixBytes :: bodies ∧
      ∀ size ∈ bodies, size ≤ max) ∧
    (∀ n frames r', r.readFrames P n max = (.ok frames, r') →
      ∃ parts : List (Bytes × Bytes),
        r.input = (parts.flatMap fun part => part.1 ++ part.2) ++ r'.input ∧
        List.Forall₂ (fun part frame => Framed max part.1 part.2 ∧
          P.decode part.2 = some frame) parts frames) := by
  refine ⟨fun frame => ⟨fun h => ?_, ?_⟩, fun h => ?_, fun header rest hinput hwidth hlen => ?_,
    readFrame_io, buffers_readFrame r max, fun n frames r' => framed_of_readFrames⟩
  · obtain ⟨header, body, hinput, hframed, hdecode⟩ := framed_of_readFrame (Or.inl ⟨frame, h⟩)
    exact ⟨header, body, _, hinput, hframed, decode_of_decodeFrame (hdecode.symm.trans h)⟩
  · rintro ⟨header, body, rest, hinput, hframed, hdecode⟩
    rw [readFrame_framed hinput hframed, decodeFrame, hdecode]
  · obtain ⟨header, body, hinput, hframed, -⟩ := framed_of_readFrame h
    exact ⟨header, body, hinput, hframed⟩
  · exact readFrame_refused hinput hwidth hlen

/-- A prefix one above the ceiling, and the largest one there is: the body is left alone. -/
example : (Reader.mk [0, 0, 0, 3, 9, 9, 9] []).readFrame vmProto 2 =
    (.error (.frameTooLarge 3 2), ⟨[9, 9, 9], [4]⟩) := by decide +kernel

example : (Reader.mk [255, 255, 255, 255] []).readFrame vmProto 0 =
    (.error (.frameTooLarge 4294967295 0), ⟨[], [4]⟩) := by decide +kernel

end Reader

end FissionPlane.VmProtocol
