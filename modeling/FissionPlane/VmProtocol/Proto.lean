/-
# FissionPlane.VmProtocol.Proto -- the messages of vm.proto

The wire envelope `Frame` and the five bodies it can carry, field by field as the schema declares
them, with the limits and constants of the session layer that are written in these types.

The encoder and the decoder are generated code of a third party, so the codec above them takes
them as a parameter: a `Prost` is an `encode`/`decode` pair with the two laws the codec relies on
(a message whose encoding fits a length prefix decodes to itself; the all-default message, none of
whose fields has presence, encodes to nothing). `vmProto` is one such pair, written over the wire
format of `FissionPlane.Lib.ProtoWire`: proto3 field by field, in field-number order.
-/
import FissionPlane.Lib.ProtoWire

namespace FissionPlane.VmProtocol

open FissionPlane.Lib.ProtoWire

/-! ## Messages -/

/-- host -> guest: the first frame of a connection. -/
structure Hello where
  protocolVersion : UInt32
  epoch : UInt64
  maxFrameSize : UInt32
  chunkSize : UInt32
  deriving DecidableEq, Repr, Inhabited

/-- guest -> host: the reply to `Hello`. -/
structure HelloAck where
  protocolVersion : UInt32
  capabilities : UInt64
  buildId : String
  maxFrameSize : UInt32
  chunkSize : UInt32
  deriving DecidableEq, Repr, Inhabited

structure Ping where
  nonce : UInt64
  deriving DecidableEq, Repr, Inhabited

structure Pong where
  nonce : UInt64
  deriving DecidableEq, Repr, Inhabited

inductive ErrorCode where
  | unspecified
  | unsupported
  | staleEpoch
  | notFound
  | permission
  | invalidArgument
  | resourceExhausted
  | failedPrecondition
  | internal
  deriving DecidableEq, Repr

/-- The schema's number of an error code. -/
def ErrorCode.toInt32 : ErrorCode → Int32
  | .unspecified => 0
  | .unsupported => 1
  | .staleEpoch => 2
  | .notFound => 3
  | .permission => 4
  | .invalidArgument => 5
  | .resourceExhausted => 6
  | .failedPrecondition => 7
  | .internal => 8

/-- `code` is an open enumeration: a decoder keeps numbers it does not know. -/
structure Error where
  code : Int32
  message : String
  requiredCapability : Option UInt64
  deriving DecidableEq, Repr, Inhabited

inductive Body where
  | hello (m : Hello)
  | helloAck (m : HelloAck)
  | ping (m : Ping)
  | pong (m : Pong)
  | error (m : Error)
  deriving DecidableEq, Repr

/-- The single wire envelope. Stream 0 is the session stream. -/
structure Frame where
  streamId : UInt64
  epoch : UInt64
  body : Option Body
  deriving DecidableEq, Repr, Inhabited

/-- The frame all of whose fields hold their default: session stream, epoch 0, no body. -/
def Frame.default : Frame := ⟨0, 0, none⟩

def Hello.default : Hello := ⟨0, 0, 0, 0⟩
def HelloAck.default : HelloAck := ⟨0, 0, "", 0, 0⟩
def Ping.default : Ping := ⟨0⟩
def Pong.default : Pong := ⟨0⟩
def Error.default : Error := ⟨0, "", none⟩

/-! ## The generated codec, as a parameter -/

/-- The largest length a `u32` prefix can carry. -/
def u32Max : Nat := 4294967295

/-- What the framing layer relies on in the generated encoder and decoder. -/
structure Prost where
  encode : Frame → Bytes
  decode : Bytes → Option Frame
  decode_encode : ∀ f, (encode f).length ≤ u32Max → decode (encode f) = some f
  encode_default : encode Frame.default = []

namespace Prost

variable (P : Prost)

/-- The size the encoder announces before it writes. -/
def encodedLen (f : Frame) : Nat := (P.encode f).length

/-- Only the all-default frame has an empty encoding. -/
theorem encodedLen_eq_zero_iff (f : Frame) : P.encodedLen f = 0 ↔ f = Frame.default := by
  constructor
  · intro h
    have hnil : P.encode f = [] := List.length_eq_zero_iff.mp h
    have hf : P.decode [] = some f := by
      rw [← hnil]
      exact P.decode_encode f (by rw [hnil]; exact Nat.zero_le _)
    have hd : P.decode [] = some Frame.default := by
      rw [← P.encode_default]
      exact P.decode_encode Frame.default (by rw [P.encode_default]; exact Nat.zero_le _)
    exact Option.some.inj (hf.symm.trans hd)
  · rintro rfl
    rw [encodedLen, P.encode_default, List.length_nil]

end Prost

/-! ## proto3 encoding of the messages -/

/-- A 32-bit field decoded from a varint keeps its low 32 bits. -/
def u32OfVarint (n : Nat) : UInt32 := UInt32.ofNat n

def u64OfVarint (n : Nat) : UInt64 := UInt64.ofNat n

/-- An `int32` travels as its 64-bit sign extension. -/
def varintOfI32 (code : Int32) : Nat := code.toInt64.toUInt64.toNat

def i32OfVarint (n : Nat) : Int32 := (UInt64.ofNat n).toInt64.toInt32

def stringBytes (s : String) : Bytes := s.toUTF8.data.toList

def stringOfBytes (bs : Bytes) : Option String := String.fromUTF8? ⟨bs.toArray⟩

def Hello.fields (m : Hello) : List Field :=
  optVarint 1 m.protocolVersion.toNat ++ optVarint 2 m.epoch.toNat ++
    optVarint 3 m.maxFrameSize.toNat ++ optVarint 4 m.chunkSize.toNat

/-- A known field of another wire type is a decode error; an unknown field is skipped. -/
def Hello.merge (m : Hello) : Field → Option Hello
  | ⟨1, .varint n⟩ => some { m with protocolVersion := u32OfVarint n }
  | ⟨2, .varint n⟩ => some { m with epoch := u64OfVarint n }
  | ⟨3, .varint n⟩ => some { m with maxFrameSize := u32OfVarint n }
  | ⟨4, .varint n⟩ => some { m with chunkSize := u32OfVarint n }
  | ⟨number, _⟩ => if number ≤ 4 then none else some m

def HelloAck.fields (m : HelloAck) : List Field :=
  optVarint 1 m.protocolVersion.toNat ++ optVarint 2 m.capabilities.toNat ++
    optLen 3 (stringBytes m.buildId) ++ optVarint 4 m.maxFrameSize.toNat ++
    optVarint 5 m.chunkSize.toNat

def HelloAck.merge (m : HelloAck) : Field → Option HelloAck
  | ⟨1, .varint n⟩ => some { m with protocolVersion := u32OfVarint n }
  | ⟨2, .varint n⟩ => some { m with capabilities := u64OfVarint n }
  | ⟨3, .len bs⟩ => (stringOfBytes bs).map fun s => { m with buildId := s }
  | ⟨4, .varint n⟩ => some { m with maxFrameSize := u32OfVarint n }
  | ⟨5, .varint n⟩ => some { m with chunkSize := u32OfVarint n }
  | ⟨number, _⟩ => if number ≤ 5 then none else some m

def Ping.fields (m : Ping) : List Field := optVarint 1 m.nonce.toNat

def Ping.merge (m : Ping) : Field → Option Ping
  | ⟨1, .varint n⟩ => some { m with nonce := u64OfVarint n }
  | ⟨number, _⟩ => if number ≤ 1 then none else some m

def Pong.fields (m : Pong) : List Field := optVarint 1 m.nonce.toNat

def Pong.merge (m : Pong) : Field → Option Pong
  | ⟨1, .varint n⟩ => some { m with nonce := u64OfVarint n }
  | ⟨number, _⟩ => if number ≤ 1 then none else some m

/-- `required_capability` has presence: it is written whenever it is there, zero or not. -/
def Error.fields (m : Error) : List Field :=
  optVarint 1 (varintOfI32 m.code) ++ optLen 2 (stringBytes m.message) ++
    m.requiredCapability.toList.map fun bit => ⟨3, .varint bit.toNat⟩

def Error.merge (m : Error) : Field → Option Error
  | ⟨1, .varint n⟩ => some { m with code := i32OfVarint n }
  | ⟨2, .len bs⟩ => (stringOfBytes bs).map fun s => { m with message := s }
  | ⟨3, .varint n⟩ => some { m with requiredCapability := some (u64OfVarint n) }
  | ⟨number, _⟩ => if number ≤ 3 then none else some m

/-- A body is written whenever it is there, even when its own encoding is empty. -/
def Body.field : Body → Field
  | .hello m => ⟨3, .len (encodeFields m.fields)⟩
  | .helloAck m => ⟨4, .len (encodeFields m.fields)⟩
  | .ping m => ⟨5, .len (encodeFields m.fields)⟩
  | .pong m => ⟨6, .len (encodeFields m.fields)⟩
  | .error m => ⟨7, .len (encodeFields m.fields)⟩

def Frame.fields (f : Frame) : List Field :=
  optVarint 1 f.streamId.toNat ++ optVarint 2 f.epoch.toNat ++ f.body.toList.map Body.field

/-- A body of the kind already held is merged into it, one of another kind replaces it. -/
def Frame.merge (f : Frame) : Field → Option Frame
  | ⟨1, .varint n⟩ => some { f with streamId := u64OfVarint n }
  | ⟨2, .varint n⟩ => some { f with epoch := u64OfVarint n }
  | ⟨3, .len bs⟩ =>
      let held := match f.body with | some (.hello m) => m | _ => Hello.default
      (decodeWith Hello.merge held bs).map fun m => { f with body := some (.hello m) }
  | ⟨4, .len bs⟩ =>
      let held := match f.body with | some (.helloAck m) => m | _ => HelloAck.default
      (decodeWith HelloAck.merge held bs).map fun m => { f with body := some (.helloAck m) }
  | ⟨5, .len bs⟩ =>
      let held := match f.body with | some (.ping m) => m | _ => Ping.default
      (decodeWith Ping.merge held bs).map fun m => { f with body := some (.ping m) }
  | ⟨6, .len bs⟩ =>
      let held := match f.body with | some (.pong m) => m | _ => Pong.default
      (decodeWith Pong.merge held bs).map fun m => { f with body := some (.pong m) }
  | ⟨7, .len bs⟩ =>
      let held := match f.body with | some (.error m) => m | _ => Error.default
      (decodeWith Error.merge held bs).map fun m => { f with body := some (.error m) }
  | ⟨number, _⟩ => if number ≤ 7 then none else some f

def encodeFrame (f : Frame) : Bytes := encodeFields f.fields

def decodeFrame (bs : Bytes) : Option Frame := decodeWith Frame.merge Frame.default bs

/-! ## The round trip of each message -/

theorem u32_eq_zero {x : UInt32} (h : x.toNat = 0) : 0 = x := (UInt32.toNat_inj.mp h).symm

theorem u64_eq_zero {x : UInt64} (h : x.toNat = 0) : 0 = x := (UInt64.toNat_inj.mp h).symm

@[simp]
theorem u32OfVarint_toNat (x : UInt32) : u32OfVarint x.toNat = x := UInt32.ofNat_toNat

@[simp]
theorem u64OfVarint_toNat (x : UInt64) : u64OfVarint x.toNat = x := UInt64.ofNat_toNat

@[simp]
theorem i32OfVarint_varintOfI32 (x : Int32) : i32OfVarint (varintOfI32 x) = x := by
  simp [i32OfVarint, varintOfI32]

theorem i32_eq_zero {x : Int32} (h : varintOfI32 x = 0) : 0 = x := by
  rw [← i32OfVarint_varintOfI32 x, h]
  rfl

@[simp]
theorem stringOfBytes_stringBytes (s : String) : stringOfBytes (stringBytes s) = some s := by
  have hbytes : (⟨(stringBytes s).toArray⟩ : ByteArray) = s.toByteArray := by
    simp [stringBytes]
  rw [stringOfBytes, hbytes, String.fromUTF8?, dif_pos s.isValidUTF8]
  rfl

theorem length_stringBytes_append (s t : String) :
    (stringBytes (s ++ t)).length = (stringBytes s).length + (stringBytes t).length := by
  simp [stringBytes]

/-- A character takes four bytes at most. -/
theorem length_stringBytes_le (s : String) : (stringBytes s).length ≤ 4 * s.length := by
  have hs : stringBytes s = s.toList.flatMap String.utf8EncodeChar := by
    have h := congrArg (fun b : ByteArray => b.data.toList) (String.utf8Encode_toList (b := s))
    simpa [stringBytes, List.utf8Encode] using h.symm
  rw [hs, ← String.length_toList]
  induction s.toList with
  | nil => exact Nat.le_refl 0
  | cons c cs ih =>
      have hc : (String.utf8EncodeChar c).length ≤ 4 := by
        rw [String.length_utf8EncodeChar]
        exact c.utf8Size_le_four
      rw [List.flatMap_cons, List.length_append, List.length_cons]
      omega

theorem string_eq_empty {s : String} (h : stringBytes s = []) : "" = s := by
  have hs := stringOfBytes_stringBytes s
  rw [h] at hs
  exact Option.some.inj (hs.symm.trans (stringOfBytes_stringBytes "")) |>.symm

theorem u32_toNat_lt (x : UInt32) : x.toNat < 2 ^ 64 := Nat.lt_trans x.toNat_lt (by decide)

theorem Hello.foldlM_fields (m : Hello) : m.fields.foldlM Hello.merge Hello.default = some m := by
  have h1 : (optVarint 1 m.protocolVersion.toNat).foldlM Hello.merge Hello.default =
      some ⟨m.protocolVersion, 0, 0, 0⟩ :=
    foldlM_optVarint (fun h => by rw [← u32_eq_zero h]; rfl) (by simp [Hello.merge, Hello.default])
  have h2 : (optVarint 2 m.epoch.toNat).foldlM Hello.merge ⟨m.protocolVersion, 0, 0, 0⟩ =
      some ⟨m.protocolVersion, m.epoch, 0, 0⟩ :=
    foldlM_optVarint (fun h => by rw [← u64_eq_zero h]) (by simp [Hello.merge])
  have h3 : (optVarint 3 m.maxFrameSize.toNat).foldlM Hello.merge
      ⟨m.protocolVersion, m.epoch, 0, 0⟩ = some ⟨m.protocolVersion, m.epoch, m.maxFrameSize, 0⟩ :=
    foldlM_optVarint (fun h => by rw [← u32_eq_zero h]) (by simp [Hello.merge])
  have h4 : (optVarint 4 m.chunkSize.toNat).foldlM Hello.merge
      ⟨m.protocolVersion, m.epoch, m.maxFrameSize, 0⟩ = some m :=
    foldlM_optVarint (fun h => by rw [u32_eq_zero h]) (by simp [Hello.merge])
  simp only [Hello.fields, List.foldlM_append, h1, h2, h3, h4, Option.bind_eq_bind,
    Option.bind_some]

theorem HelloAck.foldlM_fields (m : HelloAck) :
    m.fields.foldlM HelloAck.merge HelloAck.default = some m := by
  have h1 : (optVarint 1 m.protocolVersion.toNat).foldlM HelloAck.merge HelloAck.default =
      some ⟨m.protocolVersion, 0, "", 0, 0⟩ :=
    foldlM_optVarint (fun h => by rw [← u32_eq_zero h]; rfl)
      (by simp [HelloAck.merge, HelloAck.default])
  have h2 : (optVarint 2 m.capabilities.toNat).foldlM HelloAck.merge
      ⟨m.protocolVersion, 0, "", 0, 0⟩ = some ⟨m.protocolVersion, m.capabilities, "", 0, 0⟩ :=
    foldlM_optVarint (fun h => by rw [← u64_eq_zero h]) (by simp [HelloAck.merge])
  have h3 : (optLen 3 (stringBytes m.buildId)).foldlM HelloAck.merge
      ⟨m.protocolVersion, m.capabilities, "", 0, 0⟩ =
      some ⟨m.protocolVersion, m.capabilities, m.buildId, 0, 0⟩ :=
    foldlM_optLen (fun h => by rw [← string_eq_empty h]) (by simp [HelloAck.merge])
  have h4 : (optVarint 4 m.maxFrameSize.toNat).foldlM HelloAck.merge
      ⟨m.protocolVersion, m.capabilities, m.buildId, 0, 0⟩ =
      some ⟨m.protocolVersion, m.capabilities, m.buildId, m.maxFrameSize, 0⟩ :=
    foldlM_optVarint (fun h => by rw [← u32_eq_zero h]) (by simp [HelloAck.merge])
  have h5 : (optVarint 5 m.chunkSize.toNat).foldlM HelloAck.merge
      ⟨m.protocolVersion, m.capabilities, m.buildId, m.maxFrameSize, 0⟩ = some m :=
    foldlM_optVarint (fun h => by rw [u32_eq_zero h]) (by simp [HelloAck.merge])
  simp only [HelloAck.fields, List.foldlM_append, h1, h2, h3, h4, h5, Option.bind_eq_bind,
    Option.bind_some]

theorem Ping.foldlM_fields (m : Ping) : m.fields.foldlM Ping.merge Ping.default = some m :=
  foldlM_optVarint (fun h => by rw [Ping.default, u64_eq_zero h]) (by simp [Ping.merge])

theorem Pong.foldlM_fields (m : Pong) : m.fields.foldlM Pong.merge Pong.default = some m :=
  foldlM_optVarint (fun h => by rw [Pong.default, u64_eq_zero h]) (by simp [Pong.merge])

theorem Error.foldlM_fields (m : Error) : m.fields.foldlM Error.merge Error.default = some m := by
  have h1 : (optVarint 1 (varintOfI32 m.code)).foldlM Error.merge Error.default =
      some ⟨m.code, "", none⟩ :=
    foldlM_optVarint (fun h => by rw [← i32_eq_zero h]; rfl) (by simp [Error.merge, Error.default])
  have h2 : (optLen 2 (stringBytes m.message)).foldlM Error.merge ⟨m.code, "", none⟩ =
      some ⟨m.code, m.message, none⟩ :=
    foldlM_optLen (fun h => by rw [← string_eq_empty h]) (by simp [Error.merge])
  have h3 : (m.requiredCapability.toList.map fun bit : UInt64 =>
      (⟨3, .varint bit.toNat⟩ : Field)).foldlM Error.merge ⟨m.code, m.message, none⟩ = some m := by
    obtain ⟨code, message, requiredCapability⟩ := m
    cases requiredCapability with
    | none => rfl
    | some bit => simp [Error.merge]
  simp only [Error.fields, List.foldlM_append, h1, h2, h3, Option.bind_eq_bind, Option.bind_some]

/-! ## Keys and sizes -/

theorem wellKeyed_append {fs gs : List Field} (hf : ∀ f ∈ fs, f.WellKeyed)
    (hg : ∀ f ∈ gs, f.WellKeyed) : ∀ f ∈ fs ++ gs, f.WellKeyed := by
  intro f h
  rcases List.mem_append.mp h with h | h
  · exact hf f h
  · exact hg f h

theorem u32_wellKeyed {number : Nat} (hpos : 0 < number) (hlt : number < 2 ^ 29) (x : UInt32) :
    ∀ f ∈ optVarint number x.toNat, f.WellKeyed :=
  optVarint_wellKeyed hpos hlt (u32_toNat_lt x)

theorem u64_wellKeyed {number : Nat} (hpos : 0 < number) (hlt : number < 2 ^ 29) (x : UInt64) :
    ∀ f ∈ optVarint number x.toNat, f.WellKeyed :=
  optVarint_wellKeyed hpos hlt x.toNat_lt

theorem Hello.fields_wellKeyed (m : Hello) : ∀ f ∈ m.fields, f.WellKeyed :=
  wellKeyed_append (wellKeyed_append (wellKeyed_append
    (u32_wellKeyed (by decide) (by decide) _) (u64_wellKeyed (by decide) (by decide) _))
    (u32_wellKeyed (by decide) (by decide) _)) (u32_wellKeyed (by decide) (by decide) _)

theorem HelloAck.fields_wellKeyed (m : HelloAck) : ∀ f ∈ m.fields, f.WellKeyed :=
  wellKeyed_append (wellKeyed_append (wellKeyed_append (wellKeyed_append
    (u32_wellKeyed (by decide) (by decide) _) (u64_wellKeyed (by decide) (by decide) _))
    (optLen_wellKeyed (by decide) (by decide))) (u32_wellKeyed (by decide) (by decide) _))
    (u32_wellKeyed (by decide) (by decide) _)

theorem Error.fields_wellKeyed (m : Error) : ∀ f ∈ m.fields, f.WellKeyed := by
  refine wellKeyed_append (wellKeyed_append (optVarint_wellKeyed (by decide) (by decide) ?_)
    (optLen_wellKeyed (by decide) (by decide))) ?_
  · exact UInt64.toNat_lt _
  · intro f hf
    obtain ⟨bit, -, rfl⟩ := List.mem_map.mp hf
    refine ⟨?_, ?_, .inr bit.toNat_lt⟩
    · show 0 < 3
      decide
    · show 3 < 2 ^ 29
      decide

theorem Body.field_wellKeyed (b : Body) : b.field.WellKeyed := by
  cases b <;> refine ⟨?_, ?_, .inl ⟨_, rfl⟩⟩ <;> simp only [Body.field] <;> decide

theorem Frame.fields_wellKeyed (f : Frame) : ∀ g ∈ f.fields, g.WellKeyed := by
  refine wellKeyed_append (wellKeyed_append (u64_wellKeyed (by decide) (by decide) _)
    (u64_wellKeyed (by decide) (by decide) _)) ?_
  intro g hg
  obtain ⟨b, -, rfl⟩ := List.mem_map.mp hg
  exact b.field_wellKeyed

/-- Merging a body's field into a frame that holds none sets that body. -/
theorem Frame.merge_bodyField (streamId epoch : UInt64) (b : Body)
    (hlen : (encodeField b.field).length < 2 ^ 64) :
    Frame.merge ⟨streamId, epoch, none⟩ b.field = some ⟨streamId, epoch, some b⟩ := by
  cases b with
  | hello m =>
      have hpayload := Nat.lt_of_le_of_lt (length_payload_le rfl) hlen
      simp only [Body.field, Frame.merge, decodeWith_encodeFields m.fields_wellKeyed hpayload,
        m.foldlM_fields, Option.map_some]
  | helloAck m =>
      have hpayload := Nat.lt_of_le_of_lt (length_payload_le rfl) hlen
      simp only [Body.field, Frame.merge, decodeWith_encodeFields m.fields_wellKeyed hpayload,
        m.foldlM_fields, Option.map_some]
  | ping m =>
      have hpayload := Nat.lt_of_le_of_lt (length_payload_le rfl) hlen
      have hkeys : ∀ f ∈ m.fields, f.WellKeyed := u64_wellKeyed (by decide) (by decide) _
      simp only [Body.field, Frame.merge, decodeWith_encodeFields hkeys hpayload,
        m.foldlM_fields, Option.map_some]
  | pong m =>
      have hpayload := Nat.lt_of_le_of_lt (length_payload_le rfl) hlen
      have hkeys : ∀ f ∈ m.fields, f.WellKeyed := u64_wellKeyed (by decide) (by decide) _
      simp only [Body.field, Frame.merge, decodeWith_encodeFields hkeys hpayload,
        m.foldlM_fields, Option.map_some]
  | error m =>
      have hpayload := Nat.lt_of_le_of_lt (length_payload_le rfl) hlen
      simp only [Body.field, Frame.merge, decodeWith_encodeFields m.fields_wellKeyed hpayload,
        m.foldlM_fields, Option.map_some]

theorem Frame.foldlM_fields (f : Frame) (hlen : (encodeFrame f).length < 2 ^ 64) :
    f.fields.foldlM Frame.merge Frame.default = some f := by
  have h1 : (optVarint 1 f.streamId.toNat).foldlM Frame.merge Frame.default =
      some ⟨f.streamId, 0, none⟩ :=
    foldlM_optVarint (fun h => by rw [← u64_eq_zero h]; rfl) (by simp [Frame.merge, Frame.default])
  have h2 : (optVarint 2 f.epoch.toNat).foldlM Frame.merge ⟨f.streamId, 0, none⟩ =
      some ⟨f.streamId, f.epoch, none⟩ :=
    foldlM_optVarint (fun h => by rw [← u64_eq_zero h]) (by simp [Frame.merge])
  have h3 : (f.body.toList.map Body.field).foldlM Frame.merge ⟨f.streamId, f.epoch, none⟩ =
      some f := by
    obtain ⟨streamId, epoch, body⟩ := f
    cases body with
    | none => rfl
    | some b =>
        have hfield : b.field ∈ (Frame.mk streamId epoch (some b)).fields := by
          simp [Frame.fields]
        have hb := Nat.lt_of_le_of_lt (length_encodeField_le hfield) hlen
        simp only [Option.toList_some, List.map_cons, List.map_nil, List.foldlM_cons,
          Frame.merge_bodyField streamId epoch b hb, List.foldlM_nil, Option.bind_eq_bind,
          Option.bind_some, Option.pure_def]
  simp only [Frame.fields, List.foldlM_append, h1, h2, h3, Option.bind_eq_bind, Option.bind_some]

/-- Every frame whose encoding a length prefix can announce decodes to itself. -/
theorem decodeFrame_encodeFrame (f : Frame) (h : (encodeFrame f).length ≤ u32Max) :
    decodeFrame (encodeFrame f) = some f := by
  have hlen : (encodeFrame f).length < 2 ^ 64 := Nat.lt_of_le_of_lt h (by decide)
  rw [decodeFrame, encodeFrame, decodeWith_encodeFields f.fields_wellKeyed hlen]
  exact f.foldlM_fields hlen

/-- The schema's own codec is a codec the framing layer can stand on. -/
def vmProto : Prost where
  encode := encodeFrame
  decode := decodeFrame
  decode_encode := decodeFrame_encodeFrame
  encode_default := rfl

end FissionPlane.VmProtocol
