/-
# FissionPlane.VmProtocol.Chunks -- reading a frame as its bytes come in

`readFrame` over a list takes its bytes as if they were all there. On a connection they come in
pieces of the network's choosing: the read of the prefix, and then that of the body, is suspended
until its buffer is full, and each piece is at most what the buffer has room for. Here the reader
is a state machine over these pieces.

`Stands` says what the machine has made of the bytes received so far, from those bytes alone; one
step keeps it. So however the stream is cut, the machine ends where `readFrame` ends, with the same
bytes left, after at most one poll for each byte and one for the end of the stream.
-/
import FissionPlane.Lib.Transition
import FissionPlane.VmProtocol.Reader

namespace FissionPlane.VmProtocol.Chunks

open FissionPlane.Lib.ProtoWire FissionPlane.Lib.ByteStream FissionPlane.Lib.Transition

/-! ## The suspended reader -/

/-- Where the read of a frame is suspended, with what its buffer holds; or how it ended. -/
inductive Reading where
  | lengthPrefix (filled : Bytes)
  | body (len : Nat) (filled : Bytes)
  | done (result : Except ProtocolError Frame)
  deriving DecidableEq

/-- What a poll of the stream comes back with. -/
inductive Arrival where
  | chunk (bytes : Bytes)
  | endOfStream
  deriving DecidableEq

def Arrival.bytes : Arrival → Bytes
  | .chunk bytes => bytes
  | .endOfStream => []

def Reading.start : Reading := .lengthPrefix []

/-- What the buffer being filled has room for. -/
def Reading.room : Reading → Nat
  | .lengthPrefix filled => lengthPrefixBytes - filled.length
  | .body len filled => len - filled.length
  | .done _ => 0

/-- The prefix is in: both checks come before a buffer for the body. -/
def afterPrefix (maxFrameSize : Nat) (header : Bytes) : Reading :=
  let len := fromBeBytes header
  if maxFrameSize < len then .done (.error (.frameTooLarge len maxFrameSize))
  else if len = 0 then .done (.error .emptyFrame)
  else .body len []

variable (P : Prost) (max : Nat)

/-- One poll. A chunk holds a byte at least, and no more than there is room for. -/
def step (s : Reading) : Arrival → Option Reading
  | .chunk bytes =>
      if bytes = [] ∨ s.room < bytes.length then none
      else match s with
        | .lengthPrefix filled =>
            if bytes.length < s.room then some (.lengthPrefix (filled ++ bytes))
            else some (afterPrefix max (filled ++ bytes))
        | .body len filled =>
            if bytes.length < s.room then some (.body len (filled ++ bytes))
            else some (.done (Reader.decodeFrame P (filled ++ bytes)))
        | .done _ => none
  | .endOfStream =>
      match s with
      | .done _ => none
      | _ => some (.done (.error .io))

section

variable (len : Nat) (filled bytes : Bytes)

theorem step_lengthPrefix :
    step P max (.lengthPrefix filled) (.chunk bytes) =
      if bytes = [] ∨ lengthPrefixBytes - filled.length < bytes.length then none
      else if bytes.length < lengthPrefixBytes - filled.length then
        some (.lengthPrefix (filled ++ bytes))
      else some (afterPrefix max (filled ++ bytes)) := rfl

theorem step_body :
    step P max (.body len filled) (.chunk bytes) =
      if bytes = [] ∨ len - filled.length < bytes.length then none
      else if bytes.length < len - filled.length then some (.body len (filled ++ bytes))
      else some (.done (Reader.decodeFrame P (filled ++ bytes))) := rfl

theorem step_done (result : Except ProtocolError Frame) :
    step P max (.done result) (.chunk bytes) = none := by
  unfold step
  dsimp only
  split <;> rfl

end

/-! ## What the reader makes of the bytes received -/

/-- The state of the reader after these bytes of a stream that has not ended. -/
def Stands (received : Bytes) : Reading → Prop
  | .lengthPrefix filled => filled = received ∧ received.length < lengthPrefixBytes
  | .body len filled =>
      ∃ header, received = header ++ filled ∧ header.length = lengthPrefixBytes ∧
        fromBeBytes header = len ∧ len ≤ max ∧ len ≠ 0 ∧ filled.length < len
  | .done result => ∀ rest, readFrame P (received ++ rest) max = (result, rest)

theorem stands_start : Stands P max [] .start := ⟨rfl, by decide⟩

variable {P max}

/-- The frame on a stream whose prefix is in. -/
theorem readFrame_header {header : Bytes} (h : header.length = lengthPrefixBytes) (rest : Bytes) :
    readFrame P (header ++ rest) max =
      if max < fromBeBytes header then
        (.error (.frameTooLarge (fromBeBytes header) max), rest)
      else if fromBeBytes header = 0 then (.error .emptyFrame, rest)
      else readBody P rest (fromBeBytes header) := by
  rw [readFrame, readExact_append h]

/-- A full body goes to the decoder. -/
theorem readBody_full (body rest : Bytes) :
    readBody P (body ++ rest) body.length = (Reader.decodeFrame P body, rest) := by
  rw [readBody, readExact_append rfl, Reader.decodeFrame]
  dsimp only
  cases P.decode body <;> rfl

theorem stands_afterPrefix {header : Bytes} (h : header.length = lengthPrefixBytes) :
    Stands P max header (afterPrefix max header) := by
  unfold afterPrefix
  dsimp only
  split
  · next hlarge =>
      intro rest
      rw [readFrame_header h, if_pos hlarge]
  · next hmax =>
      split
      · next hempty =>
          intro rest
          rw [readFrame_header h, if_neg hmax, if_pos hempty]
      · next hpos =>
          refine ⟨header, by simp, h, rfl, Nat.not_lt.mp hmax, hpos, ?_⟩
          exact Nat.pos_of_ne_zero hpos

/-- A chunk takes the reader from what it makes of the bytes before to what it makes of all. -/
theorem stands_chunk {received bytes : Bytes} {s s' : Reading} (hs : Stands P max received s)
    (h : step P max s (.chunk bytes) = some s') : Stands P max (received ++ bytes) s' := by
  cases s with
  | lengthPrefix filled =>
      obtain ⟨rfl, hshort⟩ := hs
      rw [step_lengthPrefix] at h
      split at h
      · cases h
      · next hroom =>
          obtain ⟨hne, hfits⟩ := not_or.mp hroom
          split at h
          · next hmore =>
              obtain rfl := Option.some.inj h
              refine ⟨rfl, ?_⟩
              rw [List.length_append]
              omega
          · next hfull =>
              obtain rfl := Option.some.inj h
              apply stands_afterPrefix
              rw [List.length_append]
              omega
  | body len filled =>
      obtain ⟨header, rfl, hheader, hlen, hmax, hpos, hshort⟩ := hs
      rw [step_body] at h
      split at h
      · cases h
      · next hroom =>
          obtain ⟨hne, hfits⟩ := not_or.mp hroom
          split at h
          · next hmore =>
              obtain rfl := Option.some.inj h
              refine ⟨header, by rw [List.append_assoc], hheader, hlen, hmax, hpos, ?_⟩
              rw [List.length_append]
              omega
          · next hfull =>
              obtain rfl := Option.some.inj h
              have hbody : (filled ++ bytes).length = len := by
                rw [List.length_append]
                omega
              intro rest
              rw [List.append_assoc, List.append_assoc, readFrame_header hheader, hlen,
                if_neg (Nat.not_lt.mpr hmax), if_neg hpos, ← List.append_assoc, ← hbody,
                readBody_full]
  | done result =>
      rw [step_done] at h
      cases h

/-- A reader that is not done has room, and would meet the end of the stream in an I/O failure. -/
theorem Stands.waiting {received : Bytes} {s : Reading} (hs : Stands P max received s)
    (hdone : ∀ result, s ≠ .done result) :
    0 < s.room ∧ readFrame P received max = (.error .io, []) ∧
      step P max s .endOfStream = some (.done (.error .io)) := by
  cases s with
  | lengthPrefix filled =>
      obtain ⟨rfl, hshort⟩ := hs
      refine ⟨by simp only [Reading.room]; omega, ?_, rfl⟩
      rw [readFrame, readExact, if_neg (Nat.not_le.mpr hshort)]
  | body len filled =>
      obtain ⟨header, rfl, hheader, hlen, hmax, hpos, hshort⟩ := hs
      refine ⟨by simp only [Reading.room]; omega, ?_, rfl⟩
      rw [readFrame_header hheader, hlen, if_neg (Nat.not_lt.mpr hmax), if_neg hpos, readBody,
        readExact, if_neg (Nat.not_le.mpr hshort)]
  | done result => exact absurd rfl (hdone result)

/-- The end of the stream comes to a reader that is not done, and ends it. -/
theorem step_endOfStream {s s' : Reading} (h : step P max s .endOfStream = some s') :
    (∀ result, s ≠ .done result) ∧ s' = .done (.error .io) := by
  cases s with
  | lengthPrefix filled => exact ⟨nofun, (Option.some.inj h).symm⟩
  | body len filled => exact ⟨nofun, (Option.some.inj h).symm⟩
  | done result => cases h

/-! ## Polling a stream -/

/-- A stream under a suspended reader: what it will still hand over. -/
structure Polled where
  left : Bytes
  reading : Reading
  deriving DecidableEq

variable (P max) in
/-- A poll that gets `n` bytes. None at all is how a stream says that it has ended. -/
def poll (s : Polled) (n : Nat) : Option Polled :=
  if n = 0 then
    if s.left = [] then (step P max s.reading .endOfStream).map (⟨[], ·⟩) else none
  else if n ≤ s.left.length then
    (step P max s.reading (.chunk (s.left.take n))).map (⟨s.left.drop n, ·⟩)
  else none

/-- What is left of the input, and what the reader makes of the rest of it. -/
def Inv (P : Prost) (max : Nat) (input : Bytes) (s : Polled) : Prop :=
  (∃ received, input = received ++ s.left ∧ Stands P max received s.reading) ∨
    (s.left = [] ∧ s.reading = .done (.error .io) ∧ readFrame P input max = (.error .io, []))

variable {input : Bytes} {s s' : Polled} {n : Nat}

/-- The two ways in which a poll comes back. -/
theorem poll_cases (h : poll P max s n = some s') :
    (s.left = [] ∧ step P max s.reading .endOfStream = some s'.reading ∧ s'.left = []) ∨
    (0 < n ∧ n ≤ s.left.length ∧
      step P max s.reading (.chunk (s.left.take n)) = some s'.reading ∧
      s'.left = s.left.drop n) := by
  unfold poll at h
  split at h
  · split at h
    · next hleft =>
        obtain ⟨reading, hstep, rfl⟩ := Option.map_eq_some_iff.mp h
        exact .inl ⟨hleft, hstep, rfl⟩
    · cases h
  · next hn =>
      split at h
      · next hle =>
          obtain ⟨reading, hstep, rfl⟩ := Option.map_eq_some_iff.mp h
          exact .inr ⟨Nat.pos_of_ne_zero hn, hle, hstep, rfl⟩
      · cases h

theorem inv_poll (hinv : Inv P max input s) (h : poll P max s n = some s') :
    Inv P max input s' := by
  obtain ⟨hleft, hstep, hleft'⟩ | ⟨-, -, hstep, hleft'⟩ := poll_cases h
  · obtain ⟨hdone, hreading⟩ := step_endOfStream hstep
    rcases hinv with ⟨received, hinput, hs⟩ | ⟨-, hreading, -⟩
    · refine .inr ⟨hleft', hreading, ?_⟩
      rw [hinput, hleft, List.append_nil]
      exact (hs.waiting hdone).2.1
    · exact absurd hreading (hdone _)
  · rcases hinv with ⟨received, hinput, hs⟩ | ⟨-, hreading, -⟩
    · refine .inl ⟨received ++ s.left.take n, ?_, stands_chunk hs hstep⟩
      rw [hleft', List.append_assoc, List.take_append_drop, hinput]
    · rw [hreading, step_done] at hstep
      cases hstep

/-- The polls there can still be: one for each byte, and one for the end of the stream. -/
def Polled.pollsLeft (s : Polled) : Nat :=
  match s.reading with
  | .done _ => 0
  | _ => s.left.length + 1

theorem pollsLeft_le (s : Polled) : s.pollsLeft ≤ s.left.length + 1 := by
  unfold Polled.pollsLeft
  split <;> omega

theorem pollsLeft_poll (h : poll P max s n = some s') : s'.pollsLeft < s.pollsLeft := by
  have hreading : ∀ result, s.reading ≠ .done result := by
    intro result hdone
    obtain ⟨-, hstep, -⟩ | ⟨-, -, hstep, -⟩ := poll_cases h
    · exact (step_endOfStream hstep).1 _ hdone
    · rw [hdone, step_done] at hstep
      cases hstep
  have hpolls : s.pollsLeft = s.left.length + 1 := by
    unfold Polled.pollsLeft
    split
    · next hdone => exact absurd hdone (hreading _)
    · rfl
  obtain ⟨-, hstep, -⟩ | ⟨hpos, hle, -, hleft⟩ := poll_cases h
  · rw [hpolls, Polled.pollsLeft, (step_endOfStream hstep).2]
    exact Nat.succ_pos _
  · have hlength : s'.left.length = s.left.length - n := by rw [hleft, List.length_drop]
    have := pollsLeft_le s'
    omega

theorem length_le_pollsLeft : ∀ {polls : List Nat} {s t : Polled},
    run (poll P max) s polls = some t → polls.length + t.pollsLeft ≤ s.pollsLeft
  | [], _, _, h => by
      obtain rfl := Option.some.inj h
      simp
  | n :: polls, s, t, h => by
      obtain ⟨s', hs', ht⟩ := run_cons_eq_some.mp h
      have := pollsLeft_poll hs'
      have := length_le_pollsLeft ht
      rw [List.length_cons]
      omega

/-- A reader that has not ended can be polled further. -/
theorem Inv.poll_enabled (hinv : Inv P max input s) (hdone : ∀ result, s.reading ≠ .done result) :
    ∃ n s', poll P max s n = some s' := by
  rcases hinv with ⟨received, -, hs⟩ | ⟨-, hreading, -⟩
  · obtain ⟨hroom, -, heof⟩ := hs.waiting hdone
    by_cases hleft : s.left = []
    · refine ⟨0, ⟨[], .done (.error .io)⟩, ?_⟩
      rw [poll, if_pos rfl, if_pos hleft, heof]
      rfl
    · -- a single byte always fits
      obtain ⟨b, rest, hcons⟩ := List.exists_cons_of_ne_nil hleft
      have hstep : ∃ reading, step P max s.reading (.chunk [b]) = some reading := by
        cases hr : s.reading with
        | lengthPrefix filled =>
            rw [hr] at hroom
            rw [step_lengthPrefix,
              if_neg (by simpa [Reading.room] using Nat.pos_iff_ne_zero.mp hroom)]
            split <;> exact ⟨_, rfl⟩
        | body len filled =>
            rw [hr] at hroom
            rw [step_body, if_neg (by simpa [Reading.room] using Nat.pos_iff_ne_zero.mp hroom)]
            split <;> exact ⟨_, rfl⟩
        | done result => exact absurd hr (hdone result)
      obtain ⟨reading, hstep⟩ := hstep
      refine ⟨1, ⟨s.left.drop 1, reading⟩, ?_⟩
      have htake : s.left.take 1 = [b] := by rw [hcons]; rfl
      rw [poll, if_neg (by decide), if_pos (by rw [hcons]; simp), htake, hstep]
      rfl
  · exact absurd hreading (hdone _)

/-- A reader that has ended did so as `readFrame` does. -/
theorem Inv.result (hinv : Inv P max input s) {result : Except ProtocolError Frame}
    (hreading : s.reading = .done result) : readFrame P input max = (result, s.left) := by
  rcases hinv with ⟨received, hinput, hs⟩ | ⟨hleft, hio, hread⟩
  · rw [hreading] at hs
    rw [hinput]
    exact hs s.left
  · obtain rfl := Reading.done.inj (hreading.symm.trans hio)
    rw [hread, hleft]

variable (P max) in
theorem inv_start (input : Bytes) : Inv P max input ⟨input, .start⟩ :=
  .inl ⟨[], rfl, stands_start P max⟩

/-- A reader has ended, or it has not. -/
theorem reading_cases (r : Reading) :
    (∃ result, r = .done result) ∨ ∀ result, r ≠ .done result := by
  cases r with
  | done result => exact .inl ⟨result, rfl⟩
  | lengthPrefix filled => exact .inr nofun
  | body len filled => exact .inr nofun

/-- However a stream is polled, the read of a frame ends within as many polls as the stream has
bytes and one more, never stuck before that, and it ends as `readFrame` does, with the same bytes
left on the stream. -/
theorem readFrame_polled (input : Bytes) {polls : List Nat} {s : Polled}
    (h : run (poll P max) ⟨input, .start⟩ polls = some s) :
    polls.length ≤ input.length + 1 ∧
      ((∃ n s', poll P max s n = some s') ∨
        ∃ result, s.reading = .done result ∧ readFrame P input max = (result, s.left)) := by
  have hinv : Inv P max input s := run_inv inv_poll (inv_start P max input) h
  constructor
  · have := length_le_pollsLeft h
    have := pollsLeft_le (⟨input, .start⟩ : Polled)
    dsimp only at this
    omega
  · rcases reading_cases s.reading with ⟨result, hreading⟩ | hdone
    · exact .inr ⟨result, hreading, hinv.result hreading⟩
    · exact .inl (hinv.poll_enabled hdone)

/-- A frame of two bytes that comes in three pieces, the first of them half a prefix. -/
theorem readFrame_polled_pieces :
    run (poll vmProto maxHelloSize) ⟨[0, 0, 0, 2, 8, 3, 9], .start⟩ [2, 2, 2] =
        some ⟨[9], .done (.ok ⟨3, 0, none⟩)⟩ ∧
      readFrame vmProto [0, 0, 0, 2, 8, 3, 9] maxHelloSize = (.ok ⟨3, 0, none⟩, [9]) := by
  have hrun : run (poll vmProto maxHelloSize) ⟨[0, 0, 0, 2, 8, 3, 9], .start⟩ [2, 2, 2] =
      some ⟨[9], .done (.ok ⟨3, 0, none⟩)⟩ := by decide +kernel
  refine ⟨hrun, ?_⟩
  obtain ⟨-, ⟨n, s', hs'⟩ | ⟨result, hresult, hread⟩⟩ :=
    readFrame_polled [0, 0, 0, 2, 8, 3, 9] hrun
  · have := pollsLeft_poll hs'
    cases this
  · obtain rfl := Reading.done.inj hresult
    exact hread

/-! ## Some way for a frame to come in -/

/-- Polling on comes to an end. -/
theorem exists_done {s : Polled} (hinv : Inv P max input s) :
    ∃ polls t result, run (poll P max) s polls = some t ∧ t.reading = .done result := by
  rcases reading_cases s.reading with ⟨result, hreading⟩ | hdone
  · exact ⟨[], s, result, rfl, hreading⟩
  · obtain ⟨n, s', hs'⟩ := hinv.poll_enabled hdone
    have hless := pollsLeft_poll hs'
    obtain ⟨polls, t, result, ht, hreading⟩ := exists_done (inv_poll hinv hs')
    exact ⟨n :: polls, t, result, run_cons_eq_some.mpr ⟨s', hs', ht⟩, hreading⟩
termination_by s.pollsLeft

theorem arrivals_of_polls : ∀ {polls : List Nat} {s t : Polled},
    run (poll P max) s polls = some t →
      ∃ arrivals, run (step P max) s.reading arrivals = some t.reading
  | [], _, _, h => by
      obtain rfl := Option.some.inj h
      exact ⟨[], rfl⟩
  | n :: polls, s, t, h => by
      obtain ⟨s', hs', ht⟩ := run_cons_eq_some.mp h
      obtain ⟨arrivals, harrivals⟩ := arrivals_of_polls ht
      obtain ⟨-, hstep, -⟩ | ⟨-, -, hstep, -⟩ := poll_cases hs'
      · exact ⟨_, run_cons_eq_some.mpr ⟨_, hstep, harrivals⟩⟩
      · exact ⟨_, run_cons_eq_some.mpr ⟨_, hstep, harrivals⟩⟩

variable (P max) in
/-- Any input can come in, in some pieces. -/
theorem exists_arrivals (input : Bytes) :
    ∃ arrivals, run (step P max) .start arrivals = some (.done (readFrame P input max).1) := by
  obtain ⟨polls, t, result, hrun, hreading⟩ := exists_done (inv_start P max input)
  obtain ⟨arrivals, harrivals⟩ := arrivals_of_polls hrun
  have hresult := (run_inv inv_poll (inv_start P max input) hrun).result hreading
  refine ⟨arrivals, ?_⟩
  rw [harrivals, hreading, hresult]

end FissionPlane.VmProtocol.Chunks
