/-
# FissionPlane.Sdk.ClientDocuments -- the frames a process attachment sends

A process attachment writes to the process by JSON frames: input, the end of input, the size of the
terminal, a signal. Each SDK writes them with the JSON of its language, and Python escapes whatever
is not ASCII. What the agent reads in a frame is the message it was written for, and no other.
-/
import FissionPlane.Lib.JsonRecord
import FissionPlane.Sdk.ListFilter

namespace FissionPlane.Sdk.ClientDocuments

open FissionPlane.Lib
open FissionPlane.Lib.Json
open FissionPlane.Sdk.ListFilter (Client)

/-! ## Messages -/

/-- `ProcessClientMessage`, over the numbers of a language; a text is its code units. -/
inductive ProcessClientMessage (ν : Type) where
  | input (data : List UInt16)
  | closeStdin
  | resize (cols rows : ν)
  | signal (name : List UInt16)

def ProcessClientMessage.map {ν μ : Type} (f : ν → μ) :
    ProcessClientMessage ν → ProcessClientMessage μ
  | .input data => .input data
  | .closeStdin => .closeStdin
  | .resize cols rows => .resize (f cols) (f rows)
  | .signal name => .signal name

/-- An integer a JavaScript number holds exactly, and prints digit by digit. -/
def SafeInteger : Type := { n : Int // n.natAbs < 2 ^ 53 }

/-- The dimension of a terminal in each client. -/
def Dimension : Client → Type
  | .rust => UInt16
  | .typeScript => SafeInteger
  | .python => Int

def Dimension.toInt : (client : Client) → Dimension client → Int
  | .rust, n => n.toNat
  | .typeScript, n => n.val
  | .python, n => n

/-- The members of a message, the tag first. -/
def members : ProcessClientMessage Int → Members
  | .input data =>
      [("type", some (Wire.text.write "input".toList)), ("data", some (.string data))]
  | .closeStdin => [("type", some (Wire.text.write "close_stdin".toList))]
  | .resize cols rows =>
      [("type", some (Wire.text.write "resize".toList)), ("cols", some (.int cols)),
        ("rows", some (.int rows))]
  | .signal name =>
      [("type", some (Wire.text.write "signal".toList)), ("signal", some (.string name))]

/-- How `serde_json::to_string`, `JSON.stringify` and `json.dumps` quote. -/
def frameQuoting : Client → Quoting
  | .rust => stringify
  | .typeScript => stringify
  | .python => dumps

/-- The frame a client sends for a message. -/
def frame (client : Client) (message : ProcessClientMessage (Dimension client)) : List Char :=
  (record (members (message.map (Dimension.toInt client)))).write (frameQuoting client)

/-! ## What a frame says -/

/-- The member of a name is this text. -/
def SaysText (fields : List (List Nat × Json)) (name : String) (units : List Nat) : Prop :=
  field fields name = some (.string units)

/-- The member of a name is this integer. -/
def SaysInt (fields : List (List Nat × Json)) (name : String) (n : Int) : Prop :=
  ∃ l, field fields name = some (.number l) ∧ l.isInteger = true ∧ l.toInt = n

/-- The client messages of the streaming contract. -/
def Says (fields : List (List Nat × Json)) : ProcessClientMessage Int → Prop
  | .input data =>
      SaysText fields "type" (units "input") ∧ SaysText fields "data" (data.map UInt16.toNat)
  | .closeStdin => SaysText fields "type" (units "close_stdin")
  | .resize cols rows =>
      SaysText fields "type" (units "resize") ∧ SaysInt fields "cols" cols ∧
        SaysInt fields "rows" rows
  | .signal name =>
      SaysText fields "type" (units "signal") ∧ SaysText fields "signal" (name.map UInt16.toNat)

theorem saysText_unique {fields : List (List Nat × Json)} {name : String} {us vs : List Nat}
    (hu : SaysText fields name us) (hv : SaysText fields name vs) : us = vs := by
  rw [SaysText] at hu hv
  exact Json.string.inj (Option.some.inj (hu.symm.trans hv))

theorem saysInt_unique {fields : List (List Nat × Json)} {name : String} {n m : Int}
    (hn : SaysInt fields name n) (hm : SaysInt fields name m) : n = m := by
  obtain ⟨l, hl, -, rfl⟩ := hn
  obtain ⟨k, hk, -, rfl⟩ := hm
  obtain rfl := Json.number.inj (Option.some.inj (hl.symm.trans hk))
  rfl

/-- The tag of a message. -/
def tag {ν : Type} : ProcessClientMessage ν → String
  | .input _ => "input"
  | .closeStdin => "close_stdin"
  | .resize _ _ => "resize"
  | .signal _ => "signal"

theorem says_tag {fields : List (List Nat × Json)} {message : ProcessClientMessage Int}
    (h : Says fields message) : SaysText fields "type" (units (tag message)) := by
  cases message with
  | input _ => exact h.1
  | closeStdin => exact h
  | resize _ _ => exact h.1
  | signal _ => exact h.1

/-- No fields say two messages. -/
theorem says_unique {fields : List (List Nat × Json)} {m m' : ProcessClientMessage Int}
    (h : Says fields m) (h' : Says fields m') : m = m' := by
  have htag := units_inj.mp (saysText_unique (says_tag h) (says_tag h'))
  cases m <;> cases m'
  case input.input us vs => rw [map_toNat_injective (saysText_unique h.2 h'.2)]
  case closeStdin.closeStdin => rfl
  case resize.resize => rw [saysInt_unique h.2.1 h'.2.1, saysInt_unique h.2.2 h'.2.2]
  case signal.signal => rw [map_toNat_injective (saysText_unique h.2 h'.2)]
  all_goals
    dsimp only [tag] at htag
    exact absurd htag (by decide)

theorem saysText_of_reads {fields : List (List Nat × Json)} {ms : Members}
    (h : ReadsAs fields ms) {name : String} {us : List UInt16}
    (hmember : (name, some (.string us)) ∈ ms) : SaysText fields name (us.map UInt16.toNat) := by
  obtain ⟨v, hv, hfield⟩ := h.set _ _ hmember
  rw [SaysText, hfield, hv.string_inv, Document.toJson]

theorem saysInt_of_reads {fields : List (List Nat × Json)} {ms : Members}
    (h : ReadsAs fields ms) {name : String} {n : Int} (hmember : (name, some (.int n)) ∈ ms) :
    SaysInt fields name n := by
  obtain ⟨v, hv, hfield⟩ := h.set _ _ hmember
  rw [hv.int_inv, Document.toJson] at hfield
  exact ⟨intLiteral n, hfield, rfl, toInt_intLiteral n⟩

theorem members_nodup (message : ProcessClientMessage Int) :
    ((members message).map Prod.fst).Nodup := by
  cases message with
  | input _ => exact (by decide : ["type", "data"].Nodup)
  | closeStdin => exact (by decide : ["type"].Nodup)
  | resize _ _ => exact (by decide : ["type", "cols", "rows"].Nodup)
  | signal _ => exact (by decide : ["type", "signal"].Nodup)

/-- What is read from the members of a message says the message. -/
theorem says_of_reads {fields : List (List Nat × Json)} {message : ProcessClientMessage Int}
    (h : ReadsAs fields (members message)) : Says fields message := by
  have htype : ∀ s : String, ("type", some (Wire.text.write s.toList)) ∈ members message →
      SaysText fields "type" (units s) := by
    intro s hs
    have hsays := saysText_of_reads h hs
    rwa [unitsOf_eq_units] at hsays
  cases message with
  | input data =>
      refine ⟨htype _ List.mem_cons_self, saysText_of_reads h ?_⟩
      exact List.mem_cons_of_mem _ List.mem_cons_self
  | closeStdin => exact htype _ List.mem_cons_self
  | resize cols rows =>
      refine ⟨htype _ List.mem_cons_self, saysInt_of_reads h ?_, saysInt_of_reads h ?_⟩
      · exact List.mem_cons_of_mem _ List.mem_cons_self
      · exact List.mem_cons_of_mem _ (List.mem_cons_of_mem _ List.mem_cons_self)
  | signal name =>
      refine ⟨htype _ List.mem_cons_self, saysText_of_reads h ?_⟩
      exact List.mem_cons_of_mem _ List.mem_cons_self

/-- **A frame says the message it was written for, and no other**, whichever client wrote it. -/
theorem frame_says (client : Client) (message : ProcessClientMessage (Dimension client)) :
    ∃ fields, (read (frame client message)).2 = some (.object fields) ∧
      ∀ said : ProcessClientMessage Int,
        Says fields said ↔ said = message.map (Dimension.toInt client) := by
  obtain ⟨fs, hfs, hreads⟩ := reads_record
    (members_nodup (message.map (Dimension.toInt client))) (Reorders.refl _)
  refine ⟨fieldsToJson fs, ?_, fun said => ⟨fun h => says_unique h (says_of_reads hreads), ?_⟩⟩
  · rw [frame, read_write, hfs, Document.toJson]
  · rintro rfl
    exact says_of_reads hreads

end FissionPlane.Sdk.ClientDocuments
