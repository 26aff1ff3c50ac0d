/-
# FissionPlane.Sdk.StreamAgreement -- where the three frame decoders agree

The validators check the same fields in the same way; what sets them apart is the JSON below them.
A frame is portable when none of the languages refuses a feature of it that another takes, and
when each number an event reads means the same to all: an integer literal that fits the Rust type
and is a double, or a literal that no language takes for an integer there. On portable frames, and
on texts that are no JSON in any language, the three decoders give one outcome.
-/
import FissionPlane.Sdk.StreamEvents

namespace FissionPlane.Sdk.StreamEvents

open FissionPlane.Lib

/-! ## Portable frames -/

/-- A feature every dialect takes. -/
def PortableFeature (inRange : Json.Literal → Bool) (recursionLimit : Nat) :
    Json.Feature → Prop
  | .nest depth => depth ≤ 127 ∧ depth ≤ recursionLimit
  | .constant _ => False
  | .number l => inRange l = true ∧ (l.isInteger = true → l.whole.length ≤ Python.maxStrDigits)
  | .string units => Rust.isWellFormed units = true

/-- A literal that means the same to all three as a positive count: an integer that is not positive
or is a double below `2^64`, or another literal that no double reads as a positive integer. -/
def PortableCount (l : Json.Literal) : Prop :=
  if l.isInteger = true then
    l.toInt ≤ 0 ∨ (l.toInt < 2 ^ 64 ∧ Binary64.ofRat l.toInt = some (l.toInt : ℚ))
  else ∀ q, Binary64.ofRat l.toRat = some q → q.den = 1 → q ≤ 0

/-- A literal that means the same to all three as an exit code: an integer other than `-0` that is
a double and fits an `i64`, or another literal that no double reads as an integer. -/
def PortableCode (l : Json.Literal) : Prop :=
  if l.isInteger = true then
    ¬ (l.negative = true ∧ l.magnitude = 0) ∧ -2 ^ 63 ≤ l.toInt ∧ l.toInt < 2 ^ 63 ∧
      Binary64.ofRat l.toInt = some (l.toInt : ℚ)
  else ∀ q, Binary64.ofRat l.toRat = some q → q.den ≠ 1

/-- A number in a field has the property. -/
def InField (P : Json.Literal → Prop) (fields : Fields) (name : String) : Prop :=
  ∀ l, Json.field fields name = some (.number l) → P l

/-- The numbers a process event of the frame's type reads are portable. -/
def PortableProcess (fields : Fields) : Prop :=
  ∀ type, Json.field fields "type" = some (.string type) →
    (type = Json.units "stdout" ∨ type = Json.units "stderr" ∨ type = Json.units "exit" →
      InField PortableCount fields "sequence") ∧
    (type = Json.units "exit" → InField PortableCode fields "exit_code") ∧
    (type = Json.units "gap" → InField PortableCount fields "from_sequence" ∧
      InField PortableCount fields "to_sequence")

/-- The number a watch event reads is portable, and its kind is not an object. -/
def PortableWatch (fields : Fields) : Prop :=
  ∀ type, Json.field fields "type" = some (.string type) → isOneOf watchTypes type = true →
    InField PortableCount fields "sequence" ∧
    (type ≠ Json.units "overflow" → ∀ kind, Json.field fields "kind" ≠ some (.object kind))

/-- A text on which the languages' JSON agrees: it is JSON in none of them and Python says so, or
its features are portable, as are the fields of the object it denotes. -/
def PortableText (inRange : Json.Literal → Bool) (recursionLimit : Nat)
    (portable : Fields → Prop) (text : List Char) : Prop :=
  ((Json.read text).2 = none ∧
      (Python.jsonLoads recursionLimit).parse text = .error Python.malformedJson) ∨
    ((∀ f ∈ (Json.read text).1, PortableFeature inRange recursionLimit f) ∧
      ∀ fields, (Json.read text).2 = some (.object fields) → portable fields)

instance (inRange : Json.Literal → Bool) (recursionLimit : Nat) :
    DecidablePred (PortableFeature inRange recursionLimit)
  | .nest _ => inferInstanceAs (Decidable (_ ∧ _))
  | .constant _ => inferInstanceAs (Decidable False)
  | .number _ => inferInstanceAs (Decidable (_ ∧ _))
  | .string _ => inferInstanceAs (Decidable (_ = _))

/-- The three decoders of process events give one outcome on the text; TypeScript's numbers are the
doubles of the same values. -/
def ProcessAgrees (inRange : Json.Literal → Bool) (recursionLimit : Nat) (text : List Char) :
    Prop :=
  Python.decodeProcess recursionLimit text = Rust.decodeProcess inRange text ∧
    TypeScript.decodeProcess text =
      (Rust.decodeProcess inRange text).map (ProcessStreamEvent.map Int.cast)

/-- The three decoders of watch events give one outcome on the text. -/
def WatchAgrees (inRange : Json.Literal → Bool) (recursionLimit : Nat) (text : List Char) : Prop :=
  Python.decodeWatch recursionLimit text = Rust.decodeWatch inRange text ∧
    TypeScript.decodeWatch text =
      (Rust.decodeWatch inRange text).map (FileWatchEvent.map Int.cast)

instance (inRange : Json.Literal → Bool) (recursionLimit : Nat) (text : List Char) :
    Decidable (ProcessAgrees inRange recursionLimit text) := inferInstanceAs (Decidable (_ ∧ _))

instance (inRange : Json.Literal → Bool) (recursionLimit : Nat) (text : List Char) :
    Decidable (WatchAgrees inRange recursionLimit text) := inferInstanceAs (Decidable (_ ∧ _))

/-! ## Numbers -/

/-- Every integer literal of at most `2^53` is a portable count. -/
theorem portableCount_of_le {l : Json.Literal} (hi : l.isInteger = true)
    (h : l.magnitude ≤ 2 ^ 53) : PortableCount l := by
  rw [PortableCount, if_pos hi, Json.Literal.toInt]
  split
  · exact Or.inl (by omega)
  · refine Or.inr ⟨by omega, ?_⟩
    rw [Int.cast_natCast]
    exact Binary64.ofRat_natCast h

/-- A `u64` field that passes the positivity check, by the value of an integer literal. -/
theorem Rust.u64?_of_isInteger {l : Json.Literal} (hi : l.isInteger = true) :
    (Rust.u64? (.number l)).filter (fun z => decide (0 < z)) =
      if 0 < l.toInt ∧ l.toInt < 2 ^ 64 then some l.toInt else none := by
  rw [Rust.u64?, Rust.Number.ofLiteral, if_pos hi, Json.Literal.toInt]
  by_cases hn : l.negative = true
  · have hvalue : ¬ (0 < -(l.magnitude : Int) ∧ -(l.magnitude : Int) < 2 ^ 64) := by omega
    rw [if_pos hn, if_pos hn, if_neg hvalue]
    split_ifs <;> rfl
  · rw [if_neg hn, if_neg hn]
    by_cases hlt : l.magnitude < 2 ^ 64
    · have hcast : (l.magnitude : Int) < 2 ^ 64 := by exact_mod_cast hlt
      rw [if_pos hlt, Option.filter_some]
      simp only [hcast, and_true, decide_eq_true_eq]
    · have hcast : ¬ (l.magnitude : Int) < 2 ^ 64 := by exact_mod_cast hlt
      rw [if_neg hlt]
      simp only [hcast, and_false, if_false, Option.filter_none]

/-- An `i64` field, by the value of an integer literal. -/
theorem Rust.i64?_of_isInteger {l : Json.Literal} (hi : l.isInteger = true) :
    Rust.i64? (.number l) =
      if ¬ (l.negative = true ∧ l.magnitude = 0) ∧ -2 ^ 63 ≤ l.toInt ∧ l.toInt < 2 ^ 63 then
        some l.toInt
      else none := by
  rw [Rust.i64?, Rust.Number.ofLiteral, if_pos hi, Json.Literal.toInt]
  by_cases hn : l.negative = true
  · rw [if_pos hn, if_pos hn]
    by_cases hm : 0 < l.magnitude ∧ l.magnitude ≤ 2 ^ 63
    · rw [if_pos hm, if_pos ⟨fun h => by omega, by omega, by omega⟩]
    · rw [if_neg hm, if_neg]
      rintro ⟨hzero, hlow, -⟩
      exact hm ⟨Nat.pos_of_ne_zero fun h => hzero ⟨hn, h⟩, by omega⟩
  · rw [if_neg hn, if_neg hn]
    by_cases hlt : l.magnitude < 2 ^ 64
    · rw [if_pos hlt]
      by_cases hsmall : l.magnitude < 2 ^ 63
      · simp only [hsmall, if_true]
        rw [if_pos ⟨fun h => hn h.1, by omega, by omega⟩]
      · simp only [hsmall, if_false]
        rw [if_neg fun h => by omega]
    · rw [if_neg hlt, if_neg fun h => by omega]

/-- A literal with a fraction or an exponent is a float to serde. -/
theorem Rust.ofLiteral_of_not_isInteger {l : Json.Literal} (hi : ¬ l.isInteger = true) :
    Rust.Number.ofLiteral l = .float := if_neg hi

/-- What a portable count is to the three decoders. -/
theorem count_cases {v : Option Json} (h : ∀ l, v = some (.number l) → PortableCount l) :
    (v.bind Rust.u64?).filter (fun z => decide (0 < z)) =
        (Python.int? v).filter (fun z => decide (0 < z)) ∧
      TypeScript.positiveInteger? v =
        ((Python.int? v).filter fun z => decide (0 < z)).map (Int.cast : ℤ → ℚ) := by
  rcases v with _ | (_ | _ | l | _ | _ | _ | _)
  case some.number =>
    have hl := h l rfl
    rw [PortableCount] at hl
    rw [Option.bind_some, TypeScript.positiveInteger?, TypeScript.integer?, TypeScript.number?,
      Python.int?]
    by_cases hi : l.isInteger = true
    · rw [if_pos hi] at hl ⊢
      rw [Rust.u64?_of_isInteger hi, Json.Literal.toRat_of_isInteger hi, Option.filter_some]
      rcases hl with hneg | ⟨hlt, hexact⟩
      · -- not positive: refused whether or not the type can hold it
        have hpos : ¬ 0 < l.toInt := by omega
        rw [if_neg fun h => hpos h.1, if_neg (by simpa using hpos)]
        refine ⟨rfl, ?_⟩
        rw [Option.map_none, Option.filter_eq_none_iff]
        intro q hq
        have hround := (Option.mem_filter_iff.mp hq).1
        have hle := Binary64.ofRat_nonpos (by exact_mod_cast hneg) hround
        simpa using hle
      · have hden : (((l.toInt : ℚ).den == 1) = true) := by simp
        rw [hexact, Option.filter_some (a := (l.toInt : ℚ)), if_pos hden, Option.filter_some]
        by_cases hpos : 0 < l.toInt
        · have hq : (0 : ℚ) < l.toInt := by exact_mod_cast hpos
          rw [if_pos ⟨hpos, hlt⟩, if_pos (decide_eq_true hpos), if_pos (decide_eq_true hq)]
          exact ⟨rfl, rfl⟩
        · have hq : ¬ (0 : ℚ) < l.toInt := by exact_mod_cast hpos
          rw [if_neg fun h => hpos h.1, if_neg (by simpa using hpos), if_neg (by simpa using hq)]
          exact ⟨rfl, rfl⟩
    · -- neither Rust nor Python takes the literal for an integer
      rw [if_neg hi] at hl ⊢
      rw [Rust.u64?, Rust.ofLiteral_of_not_isInteger hi]
      refine ⟨rfl, ?_⟩
      rw [Option.filter_none, Option.map_none, Option.filter_eq_none_iff]
      intro q hq
      obtain ⟨hround, hden⟩ := Option.mem_filter_iff.mp hq
      simpa using hl q hround (by simpa using hden)
  all_goals exact ⟨rfl, rfl⟩

/-- What a portable exit code is to the three decoders. -/
theorem code_cases {v : Option Json} (h : ∀ l, v = some (.number l) → PortableCode l) :
    v.bind Rust.i64? = Python.int? v ∧
      TypeScript.integer? v = (Python.int? v).map (Int.cast : ℤ → ℚ) := by
  rcases v with _ | (_ | _ | l | _ | _ | _ | _)
  case some.number =>
    have hl := h l rfl
    rw [PortableCode] at hl
    rw [Option.bind_some, TypeScript.integer?, TypeScript.number?, Python.int?]
    by_cases hi : l.isInteger = true
    · rw [if_pos hi] at hl ⊢
      obtain ⟨hzero, hlow, hhigh, hexact⟩ := hl
      rw [Rust.i64?_of_isInteger hi, if_pos ⟨hzero, hlow, hhigh⟩,
        Json.Literal.toRat_of_isInteger hi, hexact, Option.filter_some, if_pos (by simp)]
      exact ⟨rfl, rfl⟩
    · rw [if_neg hi] at hl ⊢
      rw [Rust.i64?, Rust.ofLiteral_of_not_isInteger hi]
      refine ⟨rfl, ?_⟩
      rw [Option.map_none, Option.filter_eq_none_iff]
      intro q hround
      simpa using hl q hround
  all_goals exact ⟨rfl, rfl⟩

/-! ## Fields and frames -/

/-- A frame of a known type: its event, or nothing valid. -/
def Outcome.ofOption {ε : Type} (event : Option ε) : Outcome ε := event.elim .malformed .event

theorem TypeScript.outcome_known {ε : Type} {type : String} {event : Option ε} :
    TypeScript.outcome (TypeScript.known type event) = Outcome.ofOption event := by
  cases event <;> rfl

/-- `x` is the Python reader of a field that is there as `o`. -/
def Python.Reads {α : Type} (x : Except Python.Exception α) (o : Option α) : Prop :=
  match o with
  | some a => x = .ok a
  | none => ∃ message, x = .error (.streamingProtocolError message)

/-- A reader that fails makes the frame malformed. -/
theorem Python.Reads.outcome_bind {α ε : Type} {x : Except Python.Exception α} {o : Option α}
    (h : Python.Reads x o) (k : α → Except Python.Exception (Option ε)) :
    Python.outcome (x >>= k) = o.elim .malformed fun a => Python.outcome (k a) := by
  cases o with
  | some a =>
      rw [Python.Reads] at h
      rw [h]
      rfl
  | none =>
      obtain ⟨message, hm⟩ := h
      rw [hm]
      rfl

theorem Python.reads_positiveInt (message : Fields) (name : String) :
    Python.Reads (Python.requirePositiveInt message name)
      ((Python.int? (Json.field message name)).filter fun z => decide (0 < z)) := by
  rw [Python.requirePositiveInt]
  cases (Python.int? (Json.field message name)).filter fun z => decide (0 < z) with
  | some z => exact rfl
  | none => exact ⟨_, rfl⟩

theorem Python.reads_int (message : Fields) (name : String) :
    Python.Reads (Python.requireInt message name) (Python.int? (Json.field message name)) := by
  rw [Python.requireInt]
  cases Python.int? (Json.field message name) with
  | some z => exact rfl
  | none => exact ⟨_, rfl⟩

theorem Python.reads_string (message : Fields) (name : String) :
    Python.Reads (Python.requireString message name)
      (TypeScript.string? (Json.field message name)) := by
  rw [Python.requireString]
  rcases Json.field message name with _ | (_ | _ | _ | _ | _ | _ | _)
  case some.string => exact rfl
  all_goals exact ⟨_, rfl⟩

theorem Python.reads_kind (message : Fields) :
    Python.Reads (Python.requireKind message)
      (TypeScript.fileKind? (Json.field message "kind")) := by
  rw [Python.requireKind, Python.requireString]
  rcases Json.field message "kind" with _ | (_ | _ | _ | _ | name | _ | _)
  case some.string =>
    rw [TypeScript.fileKind?]
    cases hname : FileKind.ofUnits name with
    | some kind => simp [Python.Reads, hname, bind, Except.bind]
    | none => exact ⟨_, by simp [hname, bind, Except.bind]; rfl⟩
  all_goals exact ⟨_, rfl⟩

theorem Rust.string?_eq (v : Option Json) : v.bind Rust.string? = TypeScript.string? v := by
  rcases v with _ | (_ | _ | _ | _ | _ | _ | _) <;> rfl

theorem Rust.fileKind?_eq {v : Option Json} (h : ∀ fields, v ≠ some (.object fields)) :
    v.bind Rust.fileKind? = TypeScript.fileKind? v := by
  rcases v with _ | (_ | _ | _ | _ | _ | _ | fields)
  case some.object => exact absurd rfl (h fields)
  all_goals rfl

/-- Rust on a frame of type `type`. -/
theorem Rust.outcome_of_type {ε : Type} {inRange : Json.Literal → Bool} {knownTypes : List String}
    {fromValue : List Nat → Fields → Option ε} {validate : ε → Bool} {text : List Char}
    {fields : Fields} {type : List Nat}
    (hparse : (Rust.serdeJson inRange).parse text = .ok (.object fields))
    (htype : Json.field fields "type" = some (.string type)) :
    Rust.outcome (Rust.parseEventText inRange knownTypes fromValue validate text) =
      if isOneOf knownTypes type = false then .ignored
      else Outcome.ofOption ((fromValue type fields).filter validate) := by
  simp only [Rust.parseEventText, hparse, Rust.messageType, htype]
  split
  · rfl
  · cases fromValue type fields with
    | none => rfl
    | some event =>
        simp only [Option.filter_some]
        split <;> rfl

/-- An unknown type is none of the list. -/
theorem isOneOf_eq_false_iff {types : List String} {type : List Nat} :
    isOneOf types type = false ↔ ∀ name ∈ types, type ≠ Json.units name := by
  rw [isOneOf, Bool.eq_false_iff, ne_eq, List.contains_iff_mem, List.mem_map, not_exists]
  exact forall_congr' fun name =>
    ⟨fun h hname htype => h ⟨hname, htype.symm⟩, fun h hname => h hname.1 hname.2.symm⟩

/-- A known type is one of the list. -/
theorem eq_of_isOneOf {types : List String} {type : List Nat} (h : ¬ isOneOf types type = false) :
    ∃ name ∈ types, type = Json.units name := by
  rw [Bool.not_eq_false, isOneOf, List.contains_iff_mem, List.mem_map] at h
  obtain ⟨name, hname, htype⟩ := h
  exact ⟨name, hname, htype.symm⟩

theorem ok_bind {ε α β : Type} (a : α) (f : α → Except ε β) : (Except.ok a >>= f) = f a := rfl

/-- A check on the first field alone can be made as it is read. -/
theorem filter_bind {ε : Type} {r : Option Int} {f : Int → Option ε} {validate : ε → Bool}
    (h : ∀ z e, f z = some e → validate e = decide (0 < z)) :
    (r.bind f).filter validate = (r.filter fun z => decide (0 < z)).bind f := by
  cases r with
  | none => rfl
  | some z =>
      rw [Option.bind_some, Option.filter_some]
      cases hf : f z with
      | none => split_ifs <;> simp [hf]
      | some e =>
          rw [Option.filter_some, h z e hf]
          split_ifs
          · rw [Option.bind_some, hf]
          · rfl

/-- Python and TypeScript on a frame of a known type, against the event Rust decodes. -/
structure Agrees {ε δ : Type} (map : ε → δ) (event : Option ε) (python : Outcome ε)
    (ts : Outcome δ) : Prop where
  python_eq : python = Outcome.ofOption event
  ts_eq : ts = (Outcome.ofOption event).map map

theorem agrees_some {ε δ : Type} {map : ε → δ} {e : ε} {e' : δ} (h : map e = e') :
    Agrees map (some e) (Python.outcome (.ok (some e))) (Outcome.ofOption (some e')) :=
  ⟨rfl, congrArg Outcome.event h.symm⟩

/-- A field read first: where it is there the rest decides, where it is not the frame is
malformed. -/
theorem Python.Reads.agrees_bind {α β ε δ : Type} {map : ε → δ}
    {x : Except Python.Exception α} {o : Option α} {cast : α → β} {f : α → Option ε}
    {k : α → Except Python.Exception (Option ε)} {f' : β → Option δ} (hx : Python.Reads x o)
    (h : ∀ a, Agrees map (f a) (Python.outcome (k a)) (Outcome.ofOption (f' (cast a)))) :
    Agrees map (o.bind f) (Python.outcome (x >>= k)) (Outcome.ofOption ((o.map cast).bind f')) := by
  rw [hx.outcome_bind]
  cases o with
  | none => exact ⟨rfl, rfl⟩
  | some a => exact h a

/-- The same for a field whose value all three share. -/
theorem Python.Reads.agrees_bind_id {α ε δ : Type} {map : ε → δ}
    {x : Except Python.Exception α} {o : Option α} {f : α → Option ε}
    {k : α → Except Python.Exception (Option ε)} {f' : α → Option δ} (hx : Python.Reads x o)
    (h : ∀ a, Agrees map (f a) (Python.outcome (k a)) (Outcome.ofOption (f' a))) :
    Agrees map (o.bind f) (Python.outcome (x >>= k)) (Outcome.ofOption (o.bind f')) := by
  have hbind : Agrees map (o.bind f) (Python.outcome (x >>= k))
      (Outcome.ofOption ((o.map id).bind f')) := hx.agrees_bind h
  rwa [Option.map_id] at hbind

/-! ## Process events -/

section Process

variable {fields : Fields}

/-- `stdout` and `stderr`. -/
theorem output_agrees (type : String) (make : Int → List Nat → ProcessStreamEvent Int)
    {make' : ℚ → List Nat → ProcessStreamEvent ℚ}
    (hmap : ∀ z data, (make z data).map Int.cast = make' z data)
    (hvalid : ∀ z data, Rust.validProcessEvent (make z data) = decide (0 < z))
    (h : InField PortableCount fields "sequence") :
    Agrees (ProcessStreamEvent.map Int.cast)
      ((do
        let sequence ← (Json.field fields "sequence").bind Rust.u64?
        let data ← (Json.field fields "data").bind Rust.string?
        some (make sequence data) : Option (ProcessStreamEvent Int)).filter Rust.validProcessEvent)
      (Python.outcome do
        let sequence ← Python.requirePositiveInt fields "sequence"
        let data ← Python.requireString fields "data"
        .ok (some (make sequence data)))
      (TypeScript.outcome (TypeScript.parseOutput type make' fields)) := by
  obtain ⟨hrust, hts⟩ := count_cases h
  have hcheck : ∀ (z : Int) (e : ProcessStreamEvent Int),
      ((Json.field fields "data").bind Rust.string?).bind (fun data => some (make z data)) =
        some e → Rust.validProcessEvent e = decide (0 < z) := by
    intro z e he
    obtain ⟨data, -, he⟩ := Option.bind_eq_some_iff.mp he
    rw [← Option.some.inj he, hvalid]
  simp only [TypeScript.parseOutput, Option.bind_eq_bind]
  rw [filter_bind hcheck, hrust, Rust.string?_eq, TypeScript.outcome_known, hts]
  exact (Python.reads_positiveInt fields "sequence").agrees_bind fun z =>
    (Python.reads_string fields "data").agrees_bind_id fun data => agrees_some (hmap z data)

theorem exit_agrees (h : InField PortableCount fields "sequence")
    (hcode : InField PortableCode fields "exit_code") :
    Agrees (ProcessStreamEvent.map Int.cast)
      ((do
        let sequence ← (Json.field fields "sequence").bind Rust.u64?
        let exitCode ← (Json.field fields "exit_code").bind Rust.i64?
        some (.exit sequence exitCode) : Option (ProcessStreamEvent Int)).filter
          Rust.validProcessEvent)
      (Python.outcome do
        let sequence ← Python.requirePositiveInt fields "sequence"
        let exitCode ← Python.requireInt fields "exit_code"
        .ok (some (.exit sequence exitCode)))
      (Outcome.ofOption do
        let sequence ← TypeScript.positiveInteger? (Json.field fields "sequence")
        let exitCode ← TypeScript.integer? (Json.field fields "exit_code")
        some (.exit sequence exitCode)) := by
  obtain ⟨hrust, hts⟩ := count_cases h
  obtain ⟨hrustCode, htsCode⟩ := code_cases hcode
  have hcheck : ∀ (z : Int) (e : ProcessStreamEvent Int),
      ((Json.field fields "exit_code").bind Rust.i64?).bind (fun code => some (.exit z code)) =
        some e → Rust.validProcessEvent e = decide (0 < z) := by
    intro z e he
    obtain ⟨code, -, he⟩ := Option.bind_eq_some_iff.mp he
    rw [← Option.some.inj he]
    rfl
  simp only [Option.bind_eq_bind]
  rw [filter_bind hcheck, hrust, hrustCode, hts, htsCode]
  exact (Python.reads_positiveInt fields "sequence").agrees_bind fun z =>
    (Python.reads_int fields "exit_code").agrees_bind fun code => agrees_some rfl

theorem gap_agrees (hfrom : InField PortableCount fields "from_sequence")
    (hto : InField PortableCount fields "to_sequence") :
    Agrees (ProcessStreamEvent.map Int.cast)
      ((do
        let fromSequence ← (Json.field fields "from_sequence").bind Rust.u64?
        let toSequence ← (Json.field fields "to_sequence").bind Rust.u64?
        some (.gap fromSequence toSequence) : Option (ProcessStreamEvent Int)).filter
          Rust.validProcessEvent)
      (Python.outcome do
        let fromSequence ← Python.requirePositiveInt fields "from_sequence"
        let toSequence ← Python.requirePositiveInt fields "to_sequence"
        .ok (some (.gap fromSequence toSequence)))
      (Outcome.ofOption do
        let fromSequence ← TypeScript.positiveInteger? (Json.field fields "from_sequence")
        let toSequence ← TypeScript.positiveInteger? (Json.field fields "to_sequence")
        some (.gap fromSequence toSequence)) := by
  obtain ⟨hrustFrom, htsFrom⟩ := count_cases hfrom
  obtain ⟨hrustTo, htsTo⟩ := count_cases hto
  -- the one check of both bounds is a check of each as it is read
  have hcheck : ∀ r r' : Option Int,
      (r.bind fun z => r'.bind fun z' => some (ProcessStreamEvent.gap z z')).filter
          Rust.validProcessEvent =
        (r.filter fun z => decide (0 < z)).bind fun z =>
          (r'.filter fun z => decide (0 < z)).bind fun z' => some (.gap z z') := by
    intro r r'
    rcases r with _ | z <;> rcases r' with _ | z'
    · rfl
    · rfl
    · rw [Option.bind_some, Option.filter_some]
      split_ifs <;> rfl
    · rw [Option.bind_some, Option.bind_some, Option.filter_some, Option.filter_some,
        Option.filter_some, Rust.validProcessEvent]
      cases decide (0 < z) <;> cases decide (0 < z') <;> rfl
  simp only [Option.bind_eq_bind]
  rw [hcheck, hrustFrom, hrustTo, htsFrom, htsTo]
  exact (Python.reads_positiveInt fields "from_sequence").agrees_bind fun z =>
    (Python.reads_positiveInt fields "to_sequence").agrees_bind fun z' => agrees_some rfl

/-- Process frames that denote an object. -/
theorem process_object_agrees {inRange : Json.Literal → Bool} {recursionLimit : Nat}
    {text : List Char} (hrust : (Rust.serdeJson inRange).parse text = .ok (.object fields))
    (hts : TypeScript.jsonParse.parse text = .ok (.object fields))
    (hpython : (Python.jsonLoads recursionLimit).parse text = .ok (.object fields))
    (hport : PortableProcess fields) : ProcessAgrees inRange recursionLimit text := by
  simp only [ProcessAgrees, Python.decodeProcess, Python.parseProcessEvent,
    Python.parseJsonObject, hpython, Python.messageType, TypeScript.decodeProcess,
    TypeScript.parseProcessStreamEvent, TypeScript.parseJsonObject, hts, ok_bind]
  rw [Rust.decodeProcess]
  cases htype : Json.field fields "type" with
  | none =>
      simp only [Rust.parseEventText, hrust, Rust.messageType, htype]
      exact ⟨rfl, rfl⟩
  | some v =>
      cases v with
      | string type =>
          obtain ⟨hcount, hcode, hgap⟩ := hport type htype
          rw [Rust.outcome_of_type hrust htype]
          simp only [TypeScript.string?, Rust.processFromValue]
          by_cases hknown : isOneOf processTypes type = false
          · have hne := isOneOf_eq_false_iff.mp hknown
            rw [if_pos hknown, if_pos hknown, if_neg (hne "stdout" (by decide)),
              if_neg (hne "stderr" (by decide)), if_neg (hne "exit" (by decide)),
              if_neg (hne "gap" (by decide))]
            exact ⟨rfl, rfl⟩
          · simp only [if_neg hknown]
            obtain ⟨name, hname, rfl⟩ := eq_of_isOneOf hknown
            simp only [processTypes, List.mem_cons, List.not_mem_nil, or_false] at hname
            rcases hname with rfl | rfl | rfl | rfl <;>
              simp only [Json.units_inj, String.reduceEq, if_true, if_false,
                TypeScript.outcome_known]
            · obtain ⟨hp, ht⟩ := output_agrees "stdout" .stdout (fun _ _ => rfl)
                (fun _ _ => rfl) (hcount (Or.inl rfl))
              exact ⟨hp, ht⟩
            · obtain ⟨hp, ht⟩ := output_agrees "stderr" .stderr (fun _ _ => rfl)
                (fun _ _ => rfl) (hcount (Or.inr (Or.inl rfl)))
              exact ⟨hp, ht⟩
            · obtain ⟨hp, ht⟩ := exit_agrees (hcount (Or.inr (Or.inr rfl))) (hcode rfl)
              exact ⟨hp, ht⟩
            · obtain ⟨hfrom, hto⟩ := hgap rfl
              obtain ⟨hp, ht⟩ := gap_agrees hfrom hto
              exact ⟨hp, ht⟩
      | _ =>
          simp only [Rust.parseEventText, hrust, Rust.messageType, htype]
          exact ⟨rfl, rfl⟩

end Process

/-! ## Watch events -/

section Watch

variable {fields : Fields}

/-- `created`, `modified` and `removed`. -/
theorem change_agrees (type : String) (make : Int → List Nat → FileKind → FileWatchEvent Int)
    {make' : ℚ → List Nat → FileKind → FileWatchEvent ℚ}
    (hmap : ∀ z path kind, (make z path kind).map Int.cast = make' z path kind)
    (hvalid : ∀ z path kind, Rust.validFileWatchEvent (make z path kind) = decide (0 < z))
    (h : InField PortableCount fields "sequence")
    (hkind : ∀ kind, Json.field fields "kind" ≠ some (.object kind)) :
    Agrees (FileWatchEvent.map Int.cast)
      ((Rust.changeFromValue fields make).filter Rust.validFileWatchEvent)
      (Python.outcome do
        let sequence ← Python.requirePositiveInt fields "sequence"
        let path ← Python.requireString fields "path"
        let kind ← Python.requireKind fields
        .ok (some (make sequence path kind)))
      (TypeScript.outcome (TypeScript.parseChange type make' fields)) := by
  obtain ⟨hrust, hts⟩ := count_cases h
  have hcheck : ∀ (z : Int) (e : FileWatchEvent Int),
      ((Json.field fields "path").bind Rust.string?).bind (fun path =>
        ((Json.field fields "kind").bind Rust.fileKind?).bind fun kind =>
          some (make z path kind)) = some e →
        Rust.validFileWatchEvent e = decide (0 < z) := by
    intro z e he
    obtain ⟨path, -, he⟩ := Option.bind_eq_some_iff.mp he
    obtain ⟨kind, -, he⟩ := Option.bind_eq_some_iff.mp he
    rw [← Option.some.inj he, hvalid]
  simp only [Rust.changeFromValue, TypeScript.parseChange, Option.bind_eq_bind]
  rw [filter_bind hcheck, hrust, Rust.string?_eq, Rust.fileKind?_eq hkind,
    TypeScript.outcome_known, hts]
  exact (Python.reads_positiveInt fields "sequence").agrees_bind fun z =>
    (Python.reads_string fields "path").agrees_bind_id fun path =>
      (Python.reads_kind fields).agrees_bind_id fun kind => agrees_some (hmap z path kind)

theorem moved_agrees (h : InField PortableCount fields "sequence")
    (hkind : ∀ kind, Json.field fields "kind" ≠ some (.object kind)) :
    Agrees (FileWatchEvent.map Int.cast)
      ((do
        let sequence ← (Json.field fields "sequence").bind Rust.u64?
        let path ← (Json.field fields "path").bind Rust.string?
        let oldPath ← (Json.field fields "old_path").bind Rust.string?
        let kind ← (Json.field fields "kind").bind Rust.fileKind?
        some (.moved sequence path oldPath kind) : Option (FileWatchEvent Int)).filter
          Rust.validFileWatchEvent)
      (Python.outcome do
        let sequence ← Python.requirePositiveInt fields "sequence"
        let path ← Python.requireString fields "path"
        let kind ← Python.requireKind fields
        let oldPath ← Python.requireString fields "old_path"
        .ok (some (.moved sequence path oldPath kind)))
      (Outcome.ofOption do
        let sequence ← TypeScript.positiveInteger? (Json.field fields "sequence")
        let path ← TypeScript.string? (Json.field fields "path")
        let oldPath ← TypeScript.string? (Json.field fields "old_path")
        let kind ← TypeScript.fileKind? (Json.field fields "kind")
        some (.moved sequence path oldPath kind)) := by
  obtain ⟨hrust, hts⟩ := count_cases h
  have hcheck : ∀ (z : Int) (e : FileWatchEvent Int),
      ((Json.field fields "path").bind Rust.string?).bind (fun path =>
        ((Json.field fields "kind").bind Rust.fileKind?).bind fun kind =>
          ((Json.field fields "old_path").bind Rust.string?).bind fun oldPath =>
            some (.moved z path oldPath kind)) = some e →
        Rust.validFileWatchEvent e = decide (0 < z) := by
    intro z e he
    obtain ⟨path, -, he⟩ := Option.bind_eq_some_iff.mp he
    obtain ⟨kind, -, he⟩ := Option.bind_eq_some_iff.mp he
    obtain ⟨oldPath, -, he⟩ := Option.bind_eq_some_iff.mp he
    rw [← Option.some.inj he]
    rfl
  -- Python reads the kind before the old path
  simp only [Option.bind_eq_bind,
    Option.bind_comm ((Json.field fields "old_path").bind Rust.string?),
    Option.bind_comm (TypeScript.string? (Json.field fields "old_path"))]
  rw [filter_bind hcheck, hrust, Rust.string?_eq, Rust.string?_eq, Rust.fileKind?_eq hkind, hts]
  exact (Python.reads_positiveInt fields "sequence").agrees_bind fun z =>
    (Python.reads_string fields "path").agrees_bind_id fun path =>
      (Python.reads_kind fields).agrees_bind_id fun kind =>
        (Python.reads_string fields "old_path").agrees_bind_id fun oldPath => agrees_some rfl

theorem overflow_agrees (h : InField PortableCount fields "sequence") :
    Agrees (FileWatchEvent.map Int.cast)
      ((do
        let sequence ← (Json.field fields "sequence").bind Rust.u64?
        some (.overflow sequence) : Option (FileWatchEvent Int)).filter Rust.validFileWatchEvent)
      (Python.outcome do
        let sequence ← Python.requirePositiveInt fields "sequence"
        .ok (some (.overflow sequence)))
      (Outcome.ofOption do
        let sequence ← TypeScript.positiveInteger? (Json.field fields "sequence")
        some (.overflow sequence)) := by
  obtain ⟨hrust, hts⟩ := count_cases h
  have hcheck : ∀ (z : Int) (e : FileWatchEvent Int), some (.overflow z) = some e →
      Rust.validFileWatchEvent e = decide (0 < z) := by
    intro z e he
    rw [← Option.some.inj he]
    rfl
  simp only [Option.bind_eq_bind]
  rw [filter_bind hcheck, hrust, hts]
  exact (Python.reads_positiveInt fields "sequence").agrees_bind fun z => agrees_some rfl

/-- Watch frames that denote an object. -/
theorem watch_object_agrees {inRange : Json.Literal → Bool} {recursionLimit : Nat}
    {text : List Char} (hrust : (Rust.serdeJson inRange).parse text = .ok (.object fields))
    (hts : TypeScript.jsonParse.parse text = .ok (.object fields))
    (hpython : (Python.jsonLoads recursionLimit).parse text = .ok (.object fields))
    (hport : PortableWatch fields) : WatchAgrees inRange recursionLimit text := by
  simp only [WatchAgrees, Python.decodeWatch, Python.parseWatchEvent,
    Python.parseJsonObject, hpython, Python.messageType, TypeScript.decodeWatch,
    TypeScript.parseFileWatchEvent, TypeScript.parseJsonObject, hts, ok_bind]
  rw [Rust.decodeWatch]
  cases htype : Json.field fields "type" with
  | none =>
      simp only [Rust.parseEventText, hrust, Rust.messageType, htype]
      exact ⟨rfl, rfl⟩
  | some v =>
      cases v with
      | string type =>
          rw [Rust.outcome_of_type hrust htype]
          simp only [TypeScript.string?, Rust.watchFromValue]
          by_cases hknown : isOneOf watchTypes type = false
          · have hne := isOneOf_eq_false_iff.mp hknown
            rw [if_pos hknown, if_pos hknown, if_neg (hne "created" (by decide)),
              if_neg (hne "modified" (by decide)), if_neg (hne "removed" (by decide)),
              if_neg (hne "moved" (by decide)), if_neg (hne "overflow" (by decide))]
            exact ⟨rfl, rfl⟩
          · obtain ⟨hcount, hkind⟩ := hport type htype (Bool.not_eq_false _ ▸ hknown)
            simp only [if_neg hknown]
            obtain ⟨name, hname, rfl⟩ := eq_of_isOneOf hknown
            simp only [watchTypes, List.mem_cons, List.not_mem_nil, or_false] at hname
            rcases hname with rfl | rfl | rfl | rfl | rfl <;>
              simp only [Json.units_inj, String.reduceEq, if_true, if_false,
                TypeScript.outcome_known, ne_eq, not_true, not_false_iff, true_implies] at hkind ⊢
            · obtain ⟨hp, ht⟩ := change_agrees "created" .created (fun _ _ _ => rfl)
                (fun _ _ _ => rfl) hcount hkind
              exact ⟨hp, ht⟩
            · obtain ⟨hp, ht⟩ := change_agrees "modified" .modified (fun _ _ _ => rfl)
                (fun _ _ _ => rfl) hcount hkind
              exact ⟨hp, ht⟩
            · obtain ⟨hp, ht⟩ := moved_agrees hcount hkind
              exact ⟨hp, ht⟩
            · obtain ⟨hp, ht⟩ := change_agrees "removed" .removed (fun _ _ _ => rfl)
                (fun _ _ _ => rfl) hcount hkind
              exact ⟨hp, ht⟩
            · -- the only type whose kind is not read
              obtain ⟨hp, ht⟩ := overflow_agrees hcount
              exact ⟨hp, ht⟩
      | _ =>
          simp only [Rust.parseEventText, hrust, Rust.messageType, htype]
          exact ⟨rfl, rfl⟩

end Watch

/-! ## Texts -/

section Text

variable {inRange : Json.Literal → Bool} {recursionLimit : Nat} {text : List Char}

theorem rust_check {f : Json.Feature} (h : PortableFeature inRange recursionLimit f) :
    (Rust.serdeJson inRange).check f = .ok () := by
  cases f with
  | nest depth => exact if_pos h.1
  | constant c => exact absurd h id
  | number l => exact if_pos h.1
  | string units => exact if_pos h

theorem typeScript_check {f : Json.Feature} (h : PortableFeature inRange recursionLimit f) :
    TypeScript.jsonParse.check f = .ok () := by
  cases f with
  | constant c => exact absurd h id
  | _ => rfl

theorem python_check {f : Json.Feature} (h : PortableFeature inRange recursionLimit f) :
    (Python.jsonLoads recursionLimit).check f = .ok () := by
  cases f with
  | nest depth => exact if_pos h.2
  | constant c => rfl
  | number l =>
      refine if_neg fun hlong => ?_
      rw [Bool.and_eq_true, decide_eq_true_eq] at hlong
      exact absurd (h.2 hlong.1) (Nat.not_le.mpr hlong.2)
  | string units => rfl

/-- A portable text is JSON in no language, or the same value in all three. -/
theorem parse_cases {portable : Fields → Prop}
    (h : PortableText inRange recursionLimit portable text) :
    ((∃ e, (Rust.serdeJson inRange).parse text = .error e) ∧
        (∃ e, TypeScript.jsonParse.parse text = .error e) ∧
        (Python.jsonLoads recursionLimit).parse text = .error Python.malformedJson) ∨
      ∃ v, (Rust.serdeJson inRange).parse text = .ok v ∧ TypeScript.jsonParse.parse text = .ok v ∧
        (Python.jsonLoads recursionLimit).parse text = .ok v ∧
        ∀ fields, v = .object fields → portable fields := by
  rcases h with ⟨hnone, hpython⟩ | ⟨hfeatures, hportable⟩
  · exact Or.inl ⟨Json.Dialect.parse_of_read_none hnone, Json.Dialect.parse_of_read_none hnone,
      hpython⟩
  · cases hv : (Json.read text).2 with
    | none =>
        exact Or.inl ⟨Json.Dialect.parse_of_read_none hv, Json.Dialect.parse_of_read_none hv,
          Json.Dialect.parse_malformed (fun f hf => python_check (hfeatures f hf)) hv⟩
    | some v =>
        refine Or.inr ⟨v, Json.Dialect.parse_of_check (fun f hf => rust_check (hfeatures f hf)) hv,
          Json.Dialect.parse_of_check (fun f hf => typeScript_check (hfeatures f hf)) hv,
          Json.Dialect.parse_of_check (fun f hf => python_check (hfeatures f hf)) hv, ?_⟩
        rintro fields rfl
        exact hportable fields hv

/-- **The three decoders agree on portable frames**, for process streams and for file watches:
Python gives the outcome Rust gives, and TypeScript the same over its numbers. -/
theorem stream_decoders_agree (inRange : Json.Literal → Bool) (recursionLimit : Nat)
    (text : List Char) :
    (PortableText inRange recursionLimit PortableProcess text →
      ProcessAgrees inRange recursionLimit text) ∧
    (PortableText inRange recursionLimit PortableWatch text →
      WatchAgrees inRange recursionLimit text) := by
  constructor
  · intro h
    rcases parse_cases h with ⟨⟨e, hrust⟩, ⟨e', hts⟩, hpython⟩ | ⟨v, hrust, hts, hpython, hport⟩
    · simp only [ProcessAgrees, Python.decodeProcess, Python.parseProcessEvent,
        Python.parseJsonObject, hpython, TypeScript.decodeProcess,
        TypeScript.parseProcessStreamEvent, TypeScript.parseJsonObject, hts, Rust.decodeProcess,
        Rust.parseEventText, hrust]
      exact ⟨rfl, rfl⟩
    · cases v with
      | object fields => exact process_object_agrees hrust hts hpython (hport fields rfl)
      | _ =>
          simp only [ProcessAgrees, Python.decodeProcess, Python.parseProcessEvent,
            Python.parseJsonObject, hpython, TypeScript.decodeProcess,
            TypeScript.parseProcessStreamEvent, TypeScript.parseJsonObject, hts,
            Rust.decodeProcess, Rust.parseEventText, hrust]
          exact ⟨rfl, rfl⟩
  · intro h
    rcases parse_cases h with ⟨⟨e, hrust⟩, ⟨e', hts⟩, hpython⟩ | ⟨v, hrust, hts, hpython, hport⟩
    · simp only [WatchAgrees, Python.decodeWatch, Python.parseWatchEvent,
        Python.parseJsonObject, hpython, TypeScript.decodeWatch, TypeScript.parseFileWatchEvent,
        TypeScript.parseJsonObject, hts, Rust.decodeWatch, Rust.parseEventText, hrust]
      exact ⟨rfl, rfl⟩
    · cases v with
      | object fields => exact watch_object_agrees hrust hts hpython (hport fields rfl)
      | _ =>
          simp only [WatchAgrees, Python.decodeWatch, Python.parseWatchEvent,
            Python.parseJsonObject, hpython, TypeScript.decodeWatch, TypeScript.parseFileWatchEvent,
            TypeScript.parseJsonObject, hts, Rust.decodeWatch, Rust.parseEventText, hrust]
          exact ⟨rfl, rfl⟩

end Text

/-- A gap in the output of a process, as the agent sends it. -/
theorem stream_decoders_agree_gap :
    ProcessAgrees (fun _ => true) 1000
      "\x7b\"type\":\"gap\",\"from_sequence\":1,\"to_sequence\":7\x7d".toList := by
  refine (stream_decoders_agree _ _ _).1 (Or.inr ⟨by decide +kernel, ?_⟩)
  intro fields h
  have hread : (Json.read
      "\x7b\"type\":\"gap\",\"from_sequence\":1,\"to_sequence\":7\x7d".toList).2 =
      some (.object
        [(Json.units "type", .string (Json.units "gap")),
          (Json.units "from_sequence", .number ⟨false, [1], none, none⟩),
          (Json.units "to_sequence", .number ⟨false, [7], none, none⟩)]) := by rfl
  rw [hread] at h
  cases h
  intro type htype
  cases htype
  refine ⟨fun h => absurd h (by decide), fun h => absurd h (by decide), fun _ => ⟨?_, ?_⟩⟩
  · intro l hl
    cases hl
    exact portableCount_of_le rfl (by decide)
  · intro l hl
    cases hl
    exact portableCount_of_le rfl (by decide)

/-- Frames on which the decoders differ: a sequence written `1.0`, one no double holds, one beyond
`2^64`, the exit code `-0`, a `NaN` or a lone surrogate in a member nobody reads, nesting beyond
what `serde_json` takes, and a kind that is a map to a unit. -/
theorem not_stream_decoders_agree :
    ¬ ProcessAgrees (fun _ => true) 1000
        "\x7b\"type\":\"exit\",\"sequence\":1.0,\"exit_code\":0\x7d".toList ∧
    ¬ ProcessAgrees (fun _ => true) 1000
        "\x7b\"type\":\"exit\",\"sequence\":9007199254740993,\"exit_code\":0\x7d".toList ∧
    ¬ ProcessAgrees (fun _ => true) 1000
        "\x7b\"type\":\"exit\",\"sequence\":18446744073709551616,\"exit_code\":0\x7d".toList ∧
    ¬ ProcessAgrees (fun _ => true) 1000
        "\x7b\"type\":\"exit\",\"sequence\":1,\"exit_code\":-0\x7d".toList ∧
    ¬ ProcessAgrees (fun _ => true) 1000 "\x7b\"type\":\"later\",\"at\":NaN\x7d".toList ∧
    ¬ ProcessAgrees (fun _ => true) 1000 "\x7b\"type\":\"later\",\"at\":\"\\ud800\"\x7d".toList ∧
    ¬ ProcessAgrees (fun _ => true) 1000 ("\x7b\"type\":\"later\",\"at\":".toList ++
        List.replicate 127 '[' ++ List.replicate 127 ']' ++ "\x7d".toList) ∧
    ¬ WatchAgrees (fun _ => true) 1000
        ("\x7b\"type\":\"created\",\"sequence\":1,\"path\":\"a\",".toList ++
          "\"kind\":\x7b\"file\":null\x7d\x7d".toList) := by
  decide +kernel

end FissionPlane.Sdk.StreamEvents
