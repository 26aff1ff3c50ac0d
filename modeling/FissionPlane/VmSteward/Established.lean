/-
# FissionPlane.VmSteward.Established -- what has gone out, and what the host makes of it

What a connection has been sent is at every moment the beginning of the answer to what it has
received. A session is held only once the whole acknowledgement has gone out, and nothing that has
gone out reads as a frame before that; the capabilities in it are the agent's, whatever the host
then subtracts.
-/
import FissionPlane.VmProtocol.Capability
import FissionPlane.VmSteward.Chunks
import FissionPlane.VmSteward.Handshake

namespace FissionPlane.VmSteward.Chunks

open FissionPlane.Lib.ProtoWire FissionPlane.Lib.ByteStream FissionPlane.Lib.Transition
open FissionPlane.Lib.BitSet FissionPlane.VmProtocol
open FissionPlane.VmProtocol.Chunks (Arrival Reading Stands)

variable {P : Prost} {identity : AgentIdentity} {s s' : State} {a : Action}

/-! ## A frame that is in stays the frame that is read -/

theorem readFrame_ok_append {input rest : Bytes} {frame : Frame} {max : Nat}
    (h : readFrame P input max = (.ok frame, rest)) (more : Bytes) :
    readFrame P (input ++ more) max = (.ok frame, rest ++ more) := by
  by_cases hshort : input.length < lengthPrefixBytes
  · rw [readFrame, readExact, if_neg (Nat.not_le.mpr hshort)] at h
    cases h
  · have hheader : (input.take lengthPrefixBytes).length = lengthPrefixBytes := by
      rw [List.length_take]
      omega
    rw [← List.take_append_drop lengthPrefixBytes input,
      VmProtocol.Chunks.readFrame_header hheader] at h
    rw [← List.take_append_drop lengthPrefixBytes input, List.append_assoc,
      VmProtocol.Chunks.readFrame_header hheader]
    generalize fromBeBytes (input.take lengthPrefixBytes) = len at h ⊢
    generalize input.drop lengthPrefixBytes = tail at h ⊢
    by_cases hmax : max < len
    · rw [if_pos hmax] at h
      cases h
    by_cases hpos : len = 0
    · rw [if_neg hmax, if_pos hpos] at h
      cases h
    rw [if_neg hmax, if_neg hpos] at h ⊢
    by_cases hbody : len ≤ tail.length
    · obtain ⟨body, after, rfl, rfl⟩ : ∃ body after, tail = body ++ after ∧ body.length = len :=
        ⟨_, _, (List.take_append_drop len tail).symm, List.length_take_of_le hbody⟩
      rw [VmProtocol.Chunks.readBody_full] at h
      obtain ⟨hframe, rfl⟩ := Prod.mk.inj h
      rw [List.append_assoc, VmProtocol.Chunks.readBody_full, hframe]
    · rw [readBody, readExact, if_neg hbody] at h
      cases h

/-! ## What has gone out -/

/-- The answer to what a connection has received, and how much of it has gone out. -/
def Answering (P : Prost) (identity : AgentIdentity) (c : Conn) : Prop :=
  let j := judge identity none (readFrame P c.received maxHelloSize).1
  match c.task with
  | .reading reading => Stands P maxHelloSize c.received reading ∧ c.sent = []
  | .writing j' pending => j' = j ∧ c.sent ++ pending = replyBytes P j
  | .done result =>
      c.sent <+: replyBytes P j ∧ ∃ delivered, result = finish P j delivered ∧
        (delivered = true → c.sent = replyBytes P j)

section

variable {received sent : Bytes}

theorem answering_reading {reading : Reading} :
    Answering P identity ⟨received, sent, .reading reading⟩ ↔
      Stands P maxHelloSize received reading ∧ sent = [] := Iff.rfl

theorem answering_writing {j : Judgement} {pending : Bytes} :
    Answering P identity ⟨received, sent, .writing j pending⟩ ↔
      j = judge identity none (readFrame P received maxHelloSize).1 ∧
        sent ++ pending =
          replyBytes P (judge identity none (readFrame P received maxHelloSize).1) := Iff.rfl

end

theorem answering_arrive {received : Bytes} {r r' : Reading} {arrival : Arrival}
    (hs : Stands P maxHelloSize received r)
    (h : VmProtocol.Chunks.step P maxHelloSize r arrival = some r') :
    Answering P identity ⟨received ++ arrival.bytes, [], .next P identity r'⟩ := by
  cases r' with
  | done first =>
      have hfirst : (readFrame P (received ++ arrival.bytes ++ []) maxHelloSize).1 = first :=
        first_of_arrival hs h fun _ => rfl
      rw [List.append_nil] at hfirst
      rw [Answering]
      dsimp only
      rw [hfirst]
      exact ⟨rfl, rfl⟩
  | lengthPrefix filled =>
      cases arrival with
      | chunk bytes => exact ⟨VmProtocol.Chunks.stands_chunk hs h, rfl⟩
      | endOfStream => cases (VmProtocol.Chunks.step_endOfStream h).2
  | body len filled =>
      cases arrival with
      | chunk bytes => exact ⟨VmProtocol.Chunks.stands_chunk hs h, rfl⟩
      | endOfStream => cases (VmProtocol.Chunks.step_endOfStream h).2

theorem answering_step
    (hinv : ∀ (i : Nat) (c : Conn), s.conns[i]? = some c → Answering P identity c)
    (h : step P identity s a = some s') :
    ∀ (i : Nat) (c : Conn), s'.conns[i]? = some c → Answering P identity c := by
  intro i c hc
  obtain ⟨-, rfl⟩ | ⟨conn, arrival, received, sent, r, r', -, hconn, hstep, rfl⟩ |
    ⟨conn, n, received, sent, j, pending, -, -, hconn, rfl⟩ |
    ⟨conn, delivered, received, sent, j, pending, hflushed, hconn, rfl⟩ := step_cases h
  · rcases getElem?_append_cases hc with ⟨-, rfl⟩ | hc
    · exact ⟨VmProtocol.Chunks.stands_start P maxHelloSize, rfl⟩
    · exact hinv i c hc
  · rcases getElem?_set_cases hconn hc with ⟨rfl, rfl⟩ | ⟨-, hc⟩
    · obtain ⟨hs, rfl⟩ := answering_reading.mp (hinv _ _ hconn)
      exact answering_arrive hs hstep
    · exact hinv i c hc
  · rcases getElem?_set_cases hconn hc with ⟨rfl, rfl⟩ | ⟨-, hc⟩
    · obtain ⟨rfl, hsent⟩ := answering_writing.mp (hinv _ _ hconn)
      refine answering_writing.mpr ⟨rfl, ?_⟩
      rw [List.append_assoc, List.take_append_drop, hsent]
    · exact hinv i c hc
  · rcases getElem?_set_cases hconn hc with ⟨rfl, rfl⟩ | ⟨-, hc⟩
    · obtain ⟨rfl, hsent⟩ := answering_writing.mp (hinv _ _ hconn)
      refine ⟨⟨pending, hsent⟩, delivered, rfl, fun hdelivered => ?_⟩
      obtain rfl := hflushed hdelivered
      dsimp only
      rw [← hsent, List.append_nil]
    · exact hinv i c hc

theorem answering_run {as : List Action} {t : State}
    (h : run (step P identity) State.init as = some t) :
    ∀ (i : Nat) (c : Conn), t.conns[i]? = some c → Answering P identity c :=
  run_inv answering_step (fun _ _ hc => by cases hc) h

/-- Of an answer, no more than the whole of it is out. -/
theorem Answering.sent_le {c : Conn} (h : Answering P identity c) :
    c.sent <+: replyBytes P (judge identity none (readFrame P c.received maxHelloSize).1) := by
  obtain ⟨received, sent, task⟩ := c
  cases task with
  | reading reading =>
      obtain ⟨-, rfl⟩ := answering_reading.mp h
      exact List.nil_prefix
  | writing j pending => exact ⟨pending, h.2⟩
  | done result => exact h.1

/-! ## What the host makes of it -/

/-- The main loop holds no epoch, so an answer is an acknowledgement. -/
theorem judge_none_cases (identity : AgentIdentity) (first : Except ProtocolError Frame) :
    (∃ hello, wellFormedHello first = some hello ∧
      judge identity none first = .acknowledge (ackReply identity hello)
        ⟨hello.epoch, Limits.negotiate identity.limits (Limits.fromHello hello), .join⟩) ∨
    ∃ e, judge identity none first = .close e := by
  cases hwf : wellFormedHello first with
  | none => exact .inr (judge_of_not_wellFormed hwf)
  | some hello =>
      refine .inl ⟨hello, rfl, ?_⟩
      rw [judge_of_wellFormed hwf, judgeHello_none]

/-- A whole acknowledgement is read as what it is. -/
theorem readFrame_acknowledgement {hello : Hello} {bytes : Bytes}
    (hw : writeFrame P (ackReply identity hello) maxHelloSize = .ok bytes) (later : Bytes) :
    readFrame P (bytes ++ later) maxHelloSize = (.ok (ackReply identity hello), later) := by
  rw [readFrame_writeFrame hw, if_neg]
  exact fun hdefault => by cases congrArg Frame.body hdefault

theorem replyBytes_acknowledge {hello : Hello} {session : Session} {bytes : Bytes}
    (hw : writeFrame P (ackReply identity hello) maxHelloSize = .ok bytes) :
    replyBytes P (.acknowledge (ackReply identity hello) session) = bytes := by
  rw [replyBytes, Judgement.reply]
  dsimp only
  rw [hw]

/-- A session comes of an acknowledgement that the writer let through and the transport took. -/
theorem writeFrame_of_finish_ok {reply : Frame} {session' session : Session} {delivered : Bool}
    (h : finish P (.acknowledge reply session') delivered = .ok session) :
    session' = session ∧ delivered = true ∧
      ∃ bytes, writeFrame P reply maxHelloSize = .ok bytes := by
  obtain ⟨hsession, bytes, hsend⟩ := send_of_finish_ok h
  rw [send] at hsend
  cases hw : writeFrame P reply maxHelloSize with
  | error e =>
      rw [hw] at hsend
      cases hsend
  | ok written =>
      rw [hw] at hsend
      cases delivered with
      | false => cases hsend
      | true => exact ⟨hsession, rfl, written, rfl⟩

/-- What the host can read off a connection is the whole acknowledgement of what it sent. -/
theorem Answering.read {c : Conn} (h : Answering P identity c) {frame : Frame} {rest : Bytes}
    (hread : readFrame P c.sent maxHelloSize = (.ok frame, rest)) :
    rest = [] ∧ ∃ hello, wellFormedHello (readFrame P c.received maxHelloSize).1 = some hello ∧
      frame = ackReply identity hello := by
  have hnil : ∀ {f : Frame}, readFrame P ([] : Bytes) maxHelloSize ≠ (.ok f, rest) := by
    intro f hf
    rw [readFrame, readExact, if_neg (by decide)] at hf
    cases hf
  obtain ⟨pending, hsent⟩ := h.sent_le
  have hall := readFrame_ok_append hread pending
  rw [hsent] at hall
  rcases judge_none_cases identity (readFrame P c.received maxHelloSize).1 with
    ⟨hello, hwf, hjudge⟩ | ⟨e, hjudge⟩
  · rw [hjudge] at hall hsent
    cases hw : writeFrame P (ackReply identity hello) maxHelloSize with
    | error e =>
        have hempty : replyBytes P (.acknowledge (ackReply identity hello)
            ⟨hello.epoch, Limits.negotiate identity.limits (Limits.fromHello hello), .join⟩) =
            [] := by
          rw [replyBytes, Judgement.reply]
          dsimp only
          rw [hw]
        rw [hempty] at hsent
        rw [(List.append_eq_nil_iff.mp hsent).1] at hread
        exact absurd hread hnil
    | ok bytes =>
        have hwhole := readFrame_acknowledgement hw []
        rw [List.append_nil, ← replyBytes_acknowledge hw, hall] at hwhole
        obtain ⟨hframe, hrest⟩ := Prod.mk.inj hwhole
        exact ⟨(List.append_eq_nil_iff.mp hrest).1, hello, hwf, Except.ok.inj hframe⟩
  · rw [hjudge] at hsent
    rw [(List.append_eq_nil_iff.mp hsent).1] at hread
    exact absurd hread hnil

/-- In every run of the steward, whatever the pieces and the order in which they come and go: a
session is held only when the whole acknowledgement of what was received has gone out, so that the
host reads it whatever follows; and the host reads no frame off a connection before that. -/
theorem established {as : List Action} {t : State}
    (hrun : run (step P identity) State.init as = some t) {i : Nat} {c : Conn}
    (hc : t.conns[i]? = some c) :
    (∀ session, c.task = .done (.ok session) →
      ∃ hello, wellFormedHello (readFrame P c.received maxHelloSize).1 = some hello ∧
        session = ⟨hello.epoch, Limits.negotiate identity.limits (Limits.fromHello hello), .join⟩ ∧
        ∀ later, readFrame P (c.sent ++ later) maxHelloSize =
          (.ok (ackReply identity hello), later)) ∧
    ∀ frame rest, readFrame P c.sent maxHelloSize = (.ok frame, rest) →
      rest = [] ∧ ∃ hello, wellFormedHello (readFrame P c.received maxHelloSize).1 = some hello ∧
        frame = ackReply identity hello := by
  have hanswering := answering_run hrun i c hc
  refine ⟨fun session htask => ?_, fun frame rest hread => hanswering.read hread⟩
  obtain ⟨received, sent, task⟩ := c
  obtain rfl : task = .done (.ok session) := htask
  obtain ⟨-, delivered, hresult, hwhole⟩ := hanswering
  dsimp only at hresult hwhole ⊢
  rcases judge_none_cases identity (readFrame P received maxHelloSize).1 with
    ⟨hello, hwf, hjudge⟩ | ⟨e, hjudge⟩
  · rw [hjudge] at hresult hwhole
    obtain ⟨hsession, hdelivered, bytes, hw⟩ := writeFrame_of_finish_ok hresult.symm
    refine ⟨hello, hwf, hsession.symm, fun later => ?_⟩
    rw [hwhole hdelivered, replyBytes_acknowledge hw, readFrame_acknowledgement hw]
  · rw [hjudge] at hresult
    cases hresult

/-- An agent with two capabilities, and a handshake with it: the `Hello` comes in two pieces, the
acknowledgement goes out in two. -/
def twoCapabilities : AgentIdentity := ⟨"vm-steward/0.0.1", 5, .defaultLocal⟩

def handshakeInPieces : List Action :=
  [.connect, .arrive 0 (.chunk ((helloBytes 9).take 4)), .arrive 0 (.chunk ((helloBytes 9).drop 4)),
    .accepted 0 7, .accepted 0 32, .flushed 0]

def acknowledgement : Bytes :=
  [0, 0, 0, 35, 16, 9, 34, 31, 8, 1, 16, 5, 26, 16, 118, 109, 45, 115, 116, 101, 119, 97, 114, 100,
    47, 48, 46, 48, 46, 49, 32, 128, 128, 128, 2, 40, 128, 128, 64]

theorem run_handshakeInPieces :
    run (step vmProto twoCapabilities) State.init handshakeInPieces =
      some ⟨[⟨helloBytes 9, acknowledgement, .done (.ok (helloSession 9))⟩],
        [.finished 0 (.ok (helloSession 9)), .processed 0 (.ok (helloFrame 9))
          (some (ackReply twoCapabilities ⟨protocolVersion, 9, 1024, 512⟩))]⟩ := by
  decide +kernel

theorem established_inPieces :
    readFrame vmProto (acknowledgement ++ [7]) maxHelloSize =
      (.ok (ackReply twoCapabilities ⟨protocolVersion, 9, 1024, 512⟩), [7]) := by
  obtain ⟨hello, hwf, -, hread⟩ :=
    (established run_handshakeInPieces (i := 0) rfl).1 (helloSession 9) rfl
  obtain rfl := Option.some.inj (hwf.symm.trans (by decide +kernel :
    wellFormedHello (readFrame vmProto (helloBytes 9) maxHelloSize).1 =
      some ⟨protocolVersion, 9, 1024, 512⟩))
  exact hread [7]

/-! ## Quarantine -/

/-- The host subtracts from what it has read, whatever it likes and in any order: it is left with
the agent's capabilities but those, and never holds one that the agent does not have. -/
theorem quarantined {as : List Action} {t : State}
    (hrun : run (step P identity) State.init as = some t) {i : Nat} {c : Conn}
    (hc : t.conns[i]? = some c) {frame : Frame} {ack : HelloAck} {rest : Bytes}
    (hread : readFrame P c.sent maxHelloSize = (.ok frame, rest))
    (hack : frame.body = some (.helloAck ack)) (quarantine : List UInt64) :
    let effective := quarantine.foldl Capabilities.without (.fromBits ack.capabilities)
    effective.positions =
        (Capabilities.fromBits identity.capabilities).positions \
          ⋃ bits ∈ quarantine, members bits.toBitVec ∧
      ∀ bit, effective.contains bit = true →
        (Capabilities.fromBits identity.capabilities).contains bit = true := by
  obtain ⟨-, hello, -, rfl⟩ := (answering_run hrun i c hc).read hread
  obtain rfl := Body.helloAck.inj (Option.some.inj hack)
  have hpositions := Capabilities.positions_foldl_without
    (.fromBits identity.capabilities) quarantine
  refine ⟨hpositions, fun bit hbit => ?_⟩
  rw [Capabilities.contains_iff] at hbit ⊢
  apply hbit.mono
  apply Set.inter_subset_inter_left
  rw [hpositions]
  exact Set.sdiff_subset

/-- Of bits 0 and 2, the latter in quarantine. -/
theorem quarantined_inPieces :
    2 ∉ (([4] : List UInt64).foldl Capabilities.without (.fromBits 5)).positions := by
  have hread : readFrame vmProto acknowledgement maxHelloSize =
      (.ok (ackReply twoCapabilities ⟨protocolVersion, 9, 1024, 512⟩), []) := by decide +kernel
  intro h
  have hleft := (quarantined run_handshakeInPieces (i := 0) rfl hread rfl [4]).1.subset h
  apply hleft.2
  rw [Set.mem_iUnion₂]
  exact ⟨4, List.mem_singleton_self 4, rfl⟩

end FissionPlane.VmSteward.Chunks
