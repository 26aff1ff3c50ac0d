/-
# FissionPlane.Lib.ProtoWire -- the protobuf wire format

Base-128 varints, keys and the fields of a message, as byte lists. A message is a list of fields on
the wire; what its fields mean is a `merge` function of the message type, folded over that list
from the all-default value (`decodeWith`), so that a later occurrence of a field wins and an unknown
field can be skipped. A field without presence that holds its default is omitted by the encoder
(`optVarint`, `optLen`).

The results used elsewhere: a varint and a field decode to themselves whatever follows them
(`decodeVarint_encodeVarint`, `decodeField_encodeField`), hence so does a list of fields
(`decodeFields_encodeFields`), and a message type's own round trip is one `foldlM` equation
(`decodeWith_encodeFields`). Wire types 3 and 4 (the deprecated groups) are refused.
-/
import Mathlib.Algebra.Group.Nat.Defs
import Mathlib.Data.List.Basic
import Mathlib.Tactic.Common

namespace FissionPlane.Lib.ProtoWire

abbrev Bytes := List UInt8

/-! ## Varints -/

/-- Little-endian base-128 digits, continuation bit on all but the last, `fuel` bytes at most. -/
def encodeVarintAux : Nat → Nat → Bytes
  | 0, _ => []
  | fuel + 1, n =>
      if n < 128 then [UInt8.ofNat n]
      else UInt8.ofNat (n % 128 + 128) :: encodeVarintAux fuel (n / 128)

/-- The varint of a 64-bit value: ten bytes at most. -/
def encodeVarint (n : Nat) : Bytes := encodeVarintAux 10 n

/-- Read at most `fuel` bytes. The last byte allowed may only carry one bit, which is what keeps a
ten-byte varint below `2 ^ 64`. -/
def decodeVarintAux : Nat → Bytes → Option (Nat × Bytes)
  | 0, _ => none
  | _ + 1, [] => none
  | fuel + 1, b :: rest =>
      if b.toNat < 128 then
        if fuel = 0 ∧ 2 ≤ b.toNat then none else some (b.toNat, rest)
      else (decodeVarintAux fuel rest).map fun r => (b.toNat - 128 + 128 * r.1, r.2)

def decodeVarint (bs : Bytes) : Option (Nat × Bytes) := decodeVarintAux 10 bs

theorem decodeVarintAux_encodeVarintAux (fuel n : Nat) (rest : Bytes) (h : n < 2 * 128 ^ fuel) :
    decodeVarintAux (fuel + 1) (encodeVarintAux (fuel + 1) n ++ rest) = some (n, rest) := by
  induction fuel generalizing n with
  | zero =>
      have hn : n < 2 := by simpa using h
      have hbyte : (UInt8.ofNat n).toNat = n := by rw [UInt8.toNat_ofNat']; omega
      rw [encodeVarintAux, if_pos (by omega), List.singleton_append, decodeVarintAux, hbyte,
        if_pos (by omega), if_neg (by omega)]
  | succ fuel ih =>
      rw [encodeVarintAux]
      by_cases hsmall : n < 128
      · have hbyte : (UInt8.ofNat n).toNat = n := by rw [UInt8.toNat_ofNat']; omega
        rw [if_pos hsmall, List.singleton_append, decodeVarintAux, hbyte, if_pos hsmall,
          if_neg (by omega)]
      · have hbyte : (UInt8.ofNat (n % 128 + 128)).toNat = n % 128 + 128 := by
          rw [UInt8.toNat_ofNat']; omega
        have hdiv : n / 128 < 2 * 128 ^ fuel := by
          rw [Nat.div_lt_iff_lt_mul (by decide)]
          calc n < 2 * 128 ^ (fuel + 1) := h
            _ = 2 * 128 ^ fuel * 128 := by rw [Nat.pow_succ, Nat.mul_assoc]
        rw [if_neg hsmall, List.cons_append, decodeVarintAux, hbyte, if_neg (by omega), ih _ hdiv]
        simp only [Option.map_some, Option.some.injEq, Prod.mk.injEq, and_true]
        omega

/-- A 64-bit varint decodes to itself and leaves whatever follows it. -/
theorem decodeVarint_encodeVarint (n : Nat) (rest : Bytes) (h : n < 2 ^ 64) :
    decodeVarint (encodeVarint n ++ rest) = some (n, rest) :=
  decodeVarintAux_encodeVarintAux 9 n rest (by
    calc n < 2 ^ 64 := h
      _ = 2 * 128 ^ 9 := by decide)

theorem encodeVarint_ne_nil (n : Nat) : encodeVarint n ≠ [] := by
  rw [encodeVarint, encodeVarintAux]
  split <;> simp

theorem length_encodeVarintAux_le (fuel n : Nat) : (encodeVarintAux fuel n).length ≤ fuel := by
  induction fuel generalizing n with
  | zero => exact Nat.le_refl 0
  | succ fuel ih =>
      rw [encodeVarintAux]
      split
      · exact Nat.succ_le_succ (Nat.zero_le fuel)
      · exact Nat.succ_le_succ (ih _)

theorem length_encodeVarint_le (n : Nat) : (encodeVarint n).length ≤ 10 :=
  length_encodeVarintAux_le 10 n

/-! ## Fields -/

/-- What a field carries on the wire, by wire type. -/
inductive Value where
  | varint (n : Nat)
  | fixed64 (raw : Bytes)
  | len (payload : Bytes)
  | fixed32 (raw : Bytes)
  deriving DecidableEq, Repr

def Value.wireType : Value → Nat
  | .varint _ => 0
  | .fixed64 _ => 1
  | .len _ => 2
  | .fixed32 _ => 5

/-- The payload fits what its wire type can say. -/
def Value.Valid : Value → Prop
  | .varint n => n < 2 ^ 64
  | .fixed64 raw => raw.length = 8
  | .len payload => payload.length < 2 ^ 64
  | .fixed32 raw => raw.length = 4

structure Field where
  number : Nat
  value : Value
  deriving DecidableEq, Repr

/-- A field number is at least one and its key fits 32 bits. -/
def Field.Valid (f : Field) : Prop := 0 < f.number ∧ f.number < 2 ^ 29 ∧ f.value.Valid

/-- `Valid` up to the length of a length-delimited payload, which the length of a whole message
bounds (`valid_of_wellKeyed`). -/
def Field.WellKeyed (f : Field) : Prop :=
  0 < f.number ∧ f.number < 2 ^ 29 ∧ ((∃ payload, f.value = .len payload) ∨ f.value.Valid)

def encodeValue : Value → Bytes
  | .varint n => encodeVarint n
  | .fixed64 raw => raw
  | .len payload => encodeVarint payload.length ++ payload
  | .fixed32 raw => raw

def encodeField (f : Field) : Bytes :=
  encodeVarint (f.number * 8 + f.value.wireType) ++ encodeValue f.value

def encodeFields (fs : List Field) : Bytes := fs.flatMap encodeField

/-- The next `n` bytes, when there are that many. -/
def takeBytes (n : Nat) (bs : Bytes) : Option (Bytes × Bytes) :=
  if n ≤ bs.length then some (bs.take n, bs.drop n) else none

def decodeValue (wireType : Nat) (bs : Bytes) : Option (Value × Bytes) :=
  match wireType with
  | 0 => (decodeVarint bs).map fun r => (.varint r.1, r.2)
  | 1 => (takeBytes 8 bs).map fun r => (.fixed64 r.1, r.2)
  | 2 => (decodeVarint bs).bind fun n => (takeBytes n.1 n.2).map fun r => (.len r.1, r.2)
  | 5 => (takeBytes 4 bs).map fun r => (.fixed32 r.1, r.2)
  | _ => none

def decodeField (bs : Bytes) : Option (Field × Bytes) :=
  (decodeVarint bs).bind fun key =>
    if 2 ^ 32 ≤ key.1 ∨ key.1 / 8 = 0 then none
    else (decodeValue (key.1 % 8) key.2).map fun r => (⟨key.1 / 8, r.1⟩, r.2)

/-- Fields until the input ends; `fuel` bounds their number. -/
def decodeFieldsAux : Nat → Bytes → Option (List Field)
  | _, [] => some []
  | 0, _ :: _ => none
  | fuel + 1, b :: bs =>
      (decodeField (b :: bs)).bind fun r => (decodeFieldsAux fuel r.2).map (r.1 :: ·)

/-- Every field takes at least one byte, so the input's length is fuel enough. -/
def decodeFields (bs : Bytes) : Option (List Field) := decodeFieldsAux bs.length bs

@[simp]
theorem takeBytes_append (bs rest : Bytes) :
    takeBytes bs.length (bs ++ rest) = some (bs, rest) := by
  simp [takeBytes]

theorem takeBytes_append_of_length {n : Nat} {bs : Bytes} (h : bs.length = n) (rest : Bytes) :
    takeBytes n (bs ++ rest) = some (bs, rest) := by
  rw [← h, takeBytes_append]

theorem decodeValue_encodeValue (v : Value) (rest : Bytes) (h : v.Valid) :
    decodeValue v.wireType (encodeValue v ++ rest) = some (v, rest) := by
  cases v with
  | varint n =>
      simp only [Value.wireType, encodeValue, decodeValue, decodeVarint_encodeVarint n rest h,
        Option.map_some]
  | fixed64 raw =>
      simp only [Value.wireType, encodeValue, decodeValue, takeBytes_append_of_length h,
        Option.map_some]
  | len payload =>
      simp only [Value.wireType, encodeValue, decodeValue, List.append_assoc,
        decodeVarint_encodeVarint _ _ h, Option.bind_some, takeBytes_append, Option.map_some]
  | fixed32 raw =>
      simp only [Value.wireType, encodeValue, decodeValue, takeBytes_append_of_length h,
        Option.map_some]

theorem Value.wireType_lt (v : Value) : v.wireType < 8 := by
  cases v <;> simp [Value.wireType]

/-- A field decodes to itself and leaves whatever follows it. -/
theorem decodeField_encodeField (f : Field) (rest : Bytes) (h : f.Valid) :
    decodeField (encodeField f ++ rest) = some (f, rest) := by
  obtain ⟨hpos, hlt, hvalue⟩ := h
  have hw := f.value.wireType_lt
  have hkey : f.number * 8 + f.value.wireType < 2 ^ 64 := by omega
  have hnumber : (f.number * 8 + f.value.wireType) / 8 = f.number := by omega
  have htype : (f.number * 8 + f.value.wireType) % 8 = f.value.wireType := by omega
  simp only [decodeField, encodeField, List.append_assoc, decodeVarint_encodeVarint _ _ hkey,
    Option.bind_some, hnumber, htype, decodeValue_encodeValue _ _ hvalue, Option.map_some]
  rw [if_neg (by omega)]

theorem encodeField_ne_nil (f : Field) : encodeField f ≠ [] := by
  intro h
  exact encodeVarint_ne_nil _ (List.append_eq_nil_iff.mp h).1

theorem encodeFields_cons (f : Field) (fs : List Field) :
    encodeFields (f :: fs) = encodeField f ++ encodeFields fs := rfl

theorem length_le_encodeFields (fs : List Field) : fs.length ≤ (encodeFields fs).length := by
  induction fs with
  | nil => simp
  | cons f fs ih =>
      have hpos : 0 < (encodeField f).length := List.length_pos_of_ne_nil (encodeField_ne_nil f)
      rw [encodeFields_cons, List.length_append, List.length_cons]
      omega

theorem length_payload_le {f : Field} {payload : Bytes} (h : f.value = .len payload) :
    payload.length ≤ (encodeField f).length := by
  simp only [encodeField, h, encodeValue, List.length_append]
  omega

theorem length_encodeField_le {f : Field} {fs : List Field} (h : f ∈ fs) :
    (encodeField f).length ≤ (encodeFields fs).length := by
  induction fs with
  | nil => simp at h
  | cons g fs ih =>
      rw [encodeFields_cons, List.length_append]
      rcases List.mem_cons.mp h with rfl | h
      · omega
      · have := ih h
        omega

theorem length_encodeFields_append (fs gs : List Field) :
    (encodeFields (fs ++ gs)).length = (encodeFields fs).length + (encodeFields gs).length := by
  rw [encodeFields, List.flatMap_append, List.length_append]
  rfl

/-- A payload costs a key and a length, of ten bytes each at most. -/
theorem length_encodeField_len_le (number : Nat) (payload : Bytes) :
    (encodeField ⟨number, .len payload⟩).length ≤ 20 + payload.length := by
  have hkey := length_encodeVarint_le (number * 8 + (Value.len payload).wireType)
  have hlength := length_encodeVarint_le payload.length
  simp only [encodeField, encodeValue, List.length_append]
  omega

/-- In a message shorter than `2 ^ 64` bytes no payload is too long for its length prefix. -/
theorem valid_of_wellKeyed {fs : List Field} (h : ∀ f ∈ fs, f.WellKeyed)
    (hlen : (encodeFields fs).length < 2 ^ 64) : ∀ f ∈ fs, f.Valid := by
  intro f hf
  obtain ⟨hpos, hlt, ⟨payload, hpayload⟩ | hvalue⟩ := h f hf
  · have hle := Nat.le_trans (length_payload_le hpayload) (length_encodeField_le hf)
    refine ⟨hpos, hlt, ?_⟩
    rw [hpayload]
    exact Nat.lt_of_le_of_lt hle hlen
  · exact ⟨hpos, hlt, hvalue⟩

theorem decodeFieldsAux_encodeFields (fs : List Field) (h : ∀ f ∈ fs, f.Valid) (fuel : Nat)
    (hfuel : fs.length ≤ fuel) : decodeFieldsAux fuel (encodeFields fs) = some fs := by
  induction fs generalizing fuel with
  | nil => cases fuel <;> rfl
  | cons f fs ih =>
      obtain ⟨fuel, rfl⟩ : ∃ k, fuel = k + 1 := ⟨fuel - 1, by simp at hfuel; omega⟩
      have hhead := decodeField_encodeField f (encodeFields fs) (h f (by simp))
      have htail := ih (fun g hg => h g (by simp [hg])) fuel (by simpa using hfuel)
      rw [encodeFields_cons]
      cases hbytes : encodeField f ++ encodeFields fs with
      | nil => exact absurd (List.append_eq_nil_iff.mp hbytes).1 (encodeField_ne_nil f)
      | cons b bs =>
          rw [decodeFieldsAux, ← hbytes, hhead, Option.bind_some, htail, Option.map_some]

theorem decodeFields_encodeFields (fs : List Field) (h : ∀ f ∈ fs, f.Valid) :
    decodeFields (encodeFields fs) = some fs :=
  decodeFieldsAux_encodeFields fs h _ (length_le_encodeFields fs)

/-! ## Messages -/

section Message

variable {M : Type*}

/-- Decode a message: its fields, folded in order into the all-default value. -/
def decodeWith (merge : M → Field → Option M) (init : M) (bs : Bytes) : Option M :=
  (decodeFields bs).bind fun fs => fs.foldlM merge init

/-- An integer field without presence: omitted when it is zero. -/
def optVarint (number n : Nat) : List Field :=
  if n = 0 then [] else [⟨number, .varint n⟩]

/-- A length-delimited field without presence: omitted when it is empty. -/
def optLen (number : Nat) (payload : Bytes) : List Field :=
  if payload = [] then [] else [⟨number, .len payload⟩]

theorem decodeWith_encodeFields {merge : M → Field → Option M} {init : M} {fs : List Field}
    (h : ∀ f ∈ fs, f.WellKeyed) (hlen : (encodeFields fs).length < 2 ^ 64) :
    decodeWith merge init (encodeFields fs) = fs.foldlM merge init := by
  rw [decodeWith, decodeFields_encodeFields fs (valid_of_wellKeyed h hlen), Option.bind_some]

/-- Merging an integer field, present or omitted, sets it. -/
theorem foldlM_optVarint {merge : M → Field → Option M} {m m' : M} {number n : Nat}
    (hzero : n = 0 → m = m') (hset : merge m ⟨number, .varint n⟩ = some m') :
    (optVarint number n).foldlM merge m = some m' := by
  unfold optVarint
  split
  · rename_i hn
    rw [hzero hn]
    rfl
  · rw [List.foldlM_cons, hset]
    rfl

/-- Merging a length-delimited field, present or omitted, sets it. -/
theorem foldlM_optLen {merge : M → Field → Option M} {m m' : M} {number : Nat} {payload : Bytes}
    (hnil : payload = [] → m = m') (hset : merge m ⟨number, .len payload⟩ = some m') :
    (optLen number payload).foldlM merge m = some m' := by
  unfold optLen
  split
  · rename_i hp
    rw [hnil hp]
    rfl
  · rw [List.foldlM_cons, hset]
    rfl

theorem length_optVarint_le (number n : Nat) :
    (encodeFields (optVarint number n)).length ≤ 20 := by
  unfold optVarint
  split
  · exact Nat.zero_le _
  · have hkey := length_encodeVarint_le (number * 8 + (Value.varint n).wireType)
    have hvalue := length_encodeVarint_le n
    show (encodeField ⟨number, .varint n⟩ ++ []).length ≤ 20
    simp only [encodeField, encodeValue, List.length_append, List.length_nil]
    omega

theorem length_optLen_le (number : Nat) (payload : Bytes) :
    (encodeFields (optLen number payload)).length ≤ 20 + payload.length := by
  unfold optLen
  split
  · exact Nat.zero_le _
  · show (encodeField ⟨number, .len payload⟩ ++ []).length ≤ 20 + payload.length
    rw [List.append_nil]
    exact length_encodeField_len_le number payload

theorem optVarint_wellKeyed {number n : Nat} (hpos : 0 < number) (hlt : number < 2 ^ 29)
    (hn : n < 2 ^ 64) : ∀ f ∈ optVarint number n, f.WellKeyed := by
  intro f hf
  unfold optVarint at hf
  split at hf
  · simp at hf
  · obtain rfl := List.mem_singleton.mp hf
    exact ⟨hpos, hlt, .inr hn⟩

theorem optLen_wellKeyed {number : Nat} {payload : Bytes} (hpos : 0 < number)
    (hlt : number < 2 ^ 29) : ∀ f ∈ optLen number payload, f.WellKeyed := by
  intro f hf
  unfold optLen at hf
  split at hf
  · simp at hf
  · obtain rfl := List.mem_singleton.mp hf
    exact ⟨hpos, hlt, .inl ⟨payload, rfl⟩⟩

end Message

end FissionPlane.Lib.ProtoWire
