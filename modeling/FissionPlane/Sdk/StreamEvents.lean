/-
# FissionPlane.Sdk.StreamEvents -- three decoders of the data plane's WebSocket frames

An attached process and a filesystem watch send one JSON object per text frame. Each SDK parses
the frame with the JSON of its language, ignores a type it does not know, and validates the fields
of a type it knows: Rust by deserializing into an enum, TypeScript and Python field by field.

A string is its UTF-16 code units in all three. `serde_json`'s range check on a number, and the
recursion limit of the Python interpreter, are parameters.
-/
import FissionPlane.Lib.Binary64
import FissionPlane.Lib.Json

namespace FissionPlane.Sdk.StreamEvents

open FissionPlane.Lib

/-! ## Events -/

/-- A validated event of an attached process, over the numbers of a language. -/
inductive ProcessStreamEvent (ν : Type) where
  | stdout (sequence : ν) (data : List Nat)
  | stderr (sequence : ν) (data : List Nat)
  | exit (sequence exitCode : ν)
  | gap (fromSequence toSequence : ν)
  deriving DecidableEq, Repr

inductive FileKind where
  | file
  | directory
  | symlink
  | other
  deriving DecidableEq, Repr

/-- A validated event of a filesystem watch. -/
inductive FileWatchEvent (ν : Type) where
  | created (sequence : ν) (path : List Nat) (kind : FileKind)
  | modified (sequence : ν) (path : List Nat) (kind : FileKind)
  | moved (sequence : ν) (path oldPath : List Nat) (kind : FileKind)
  | removed (sequence : ν) (path : List Nat) (kind : FileKind)
  | overflow (sequence : ν)
  deriving DecidableEq, Repr

def ProcessStreamEvent.map {ν μ : Type} (f : ν → μ) : ProcessStreamEvent ν → ProcessStreamEvent μ
  | .stdout sequence data => .stdout (f sequence) data
  | .stderr sequence data => .stderr (f sequence) data
  | .exit sequence exitCode => .exit (f sequence) (f exitCode)
  | .gap fromSequence toSequence => .gap (f fromSequence) (f toSequence)

def FileWatchEvent.map {ν μ : Type} (f : ν → μ) : FileWatchEvent ν → FileWatchEvent μ
  | .created sequence path kind => .created (f sequence) path kind
  | .modified sequence path kind => .modified (f sequence) path kind
  | .moved sequence path oldPath kind => .moved (f sequence) path oldPath kind
  | .removed sequence path kind => .removed (f sequence) path kind
  | .overflow sequence => .overflow (f sequence)

/-- The value of a kind, by its name on the wire. -/
def FileKind.ofUnits (text : List Nat) : Option FileKind :=
  if text = Json.units "file" then some .file
  else if text = Json.units "directory" then some .directory
  else if text = Json.units "symlink" then some .symlink
  else if text = Json.units "other" then some .other
  else none

/-- What a decoder makes of a frame. -/
inductive Outcome (ε : Type) where
  /-- An unknown event type. -/
  | ignored
  | event (e : ε)
  | malformed
  /-- An exception that is not the SDK's protocol error. -/
  | raised
  deriving DecidableEq, Repr

def Outcome.map {ε δ : Type} (f : ε → δ) : Outcome ε → Outcome δ
  | .ignored => .ignored
  | .event e => .event (f e)
  | .malformed => .malformed
  | .raised => .raised

abbrev Fields := List (List Nat × Json)

def processTypes : List String := ["stdout", "stderr", "exit", "gap"]
def watchTypes : List String := ["created", "modified", "moved", "removed", "overflow"]

/-- Whether a type is one of a list. -/
def isOneOf (types : List String) (text : List Nat) : Bool := (types.map Json.units).contains text

/-! ## Rust -/

namespace Rust

inductive ProtocolError where
  /-- `{stream_name} received malformed JSON` -/
  | malformedJson
  /-- `{stream_name} frame type must be a string` -/
  | frameType
  /-- `malformed known {stream_name} frame` -/
  | malformedFrame
  deriving DecidableEq, Repr

/-- No surrogate without its other half. -/
def isWellFormed : List Nat → Bool
  | [] => true
  | u :: us =>
      if 0xD800 ≤ u ∧ u ≤ 0xDBFF then
        match us with
        | v :: vs => decide (0xDC00 ≤ v) && decide (v ≤ 0xDFFF) && isWellFormed vs
        | [] => false
      else !(decide (0xDC00 ≤ u) && decide (u ≤ 0xDFFF)) && isWellFormed us

/-- `serde_json::from_str` with its default features. -/
def serdeJson (inRange : Json.Literal → Bool) : Json.Dialect ProtocolError where
  malformed := .malformedJson
  check
    | .nest depth => if depth ≤ 127 then .ok () else .error .malformedJson
    | .constant _ => .error .malformedJson
    | .number l => if inRange l then .ok () else .error .malformedJson
    | .string units => if isWellFormed units then .ok () else .error .malformedJson

/-- `serde_json::Number`; `-0` and whatever fits neither integer type is a float. -/
inductive Number where
  | posInt (n : Nat)
  | negInt (z : Int)
  | float
  deriving DecidableEq, Repr

def Number.ofLiteral (l : Json.Literal) : Number :=
  if l.isInteger then
    if l.negative then
      if 0 < l.magnitude ∧ l.magnitude ≤ 2 ^ 63 then .negInt (-l.magnitude) else .float
    else if l.magnitude < 2 ^ 64 then .posInt l.magnitude
    else .float
  else .float

/-- A `u64` field. -/
def u64? : Json → Option Int
  | .number l =>
      match Number.ofLiteral l with
      | .posInt n => some n
      | _ => none
  | _ => none

/-- An `i64` field. -/
def i64? : Json → Option Int
  | .number l =>
      match Number.ofLiteral l with
      | .posInt n => if n < 2 ^ 63 then some n else none
      | .negInt z => some z
      | .float => none
  | _ => none

/-- A `String` field. -/
def string? : Json → Option (List Nat)
  | .string units => some units
  | _ => none

/-- The content serde takes for a unit. -/
def isUnit : Json → Bool
  | .null | .object [] => true
  | _ => false

/-- A `FileKind` field: the name of a variant, or a map from that name alone to a unit. -/
def fileKind? : Json → Option FileKind
  | .string units => FileKind.ofUnits units
  | .object fields =>
      match fields.getLast? with
      | some (name, v) =>
          -- a `Value` keeps the last of several members of one name
          if (fields.all fun entry => entry.1 == name) && isUnit v then FileKind.ofUnits name
          else none
      | none => none
  | _ => none

/-- The derived `Deserialize` of the internally tagged `ProcessStreamEvent`. -/
def processFromValue (type : List Nat) (fields : Fields) : Option (ProcessStreamEvent Int) :=
  if type = Json.units "stdout" then do
    let sequence ← (Json.field fields "sequence").bind u64?
    let data ← (Json.field fields "data").bind string?
    some (.stdout sequence data)
  else if type = Json.units "stderr" then do
    let sequence ← (Json.field fields "sequence").bind u64?
    let data ← (Json.field fields "data").bind string?
    some (.stderr sequence data)
  else if type = Json.units "exit" then do
    let sequence ← (Json.field fields "sequence").bind u64?
    let exitCode ← (Json.field fields "exit_code").bind i64?
    some (.exit sequence exitCode)
  else if type = Json.units "gap" then do
    let fromSequence ← (Json.field fields "from_sequence").bind u64?
    let toSequence ← (Json.field fields "to_sequence").bind u64?
    some (.gap fromSequence toSequence)
  else none

def validProcessEvent : ProcessStreamEvent Int → Bool
  | .stdout sequence _ | .stderr sequence _ | .exit sequence _ => decide (0 < sequence)
  | .gap fromSequence toSequence => decide (0 < fromSequence) && decide (0 < toSequence)

/-- The fields of `Created`, `Modified` and `Removed`. -/
def changeFromValue (fields : Fields)
    (make : Int → List Nat → FileKind → FileWatchEvent Int) : Option (FileWatchEvent Int) := do
  let sequence ← (Json.field fields "sequence").bind u64?
  let path ← (Json.field fields "path").bind string?
  let kind ← (Json.field fields "kind").bind fileKind?
  some (make sequence path kind)

/-- The derived `Deserialize` of the internally tagged `FileWatchEvent`. -/
def watchFromValue (type : List Nat) (fields : Fields) : Option (FileWatchEvent Int) :=
  if type = Json.units "created" then changeFromValue fields .created
  else if type = Json.units "modified" then changeFromValue fields .modified
  else if type = Json.units "moved" then do
    let sequence ← (Json.field fields "sequence").bind u64?
    let path ← (Json.field fields "path").bind string?
    let oldPath ← (Json.field fields "old_path").bind string?
    let kind ← (Json.field fields "kind").bind fileKind?
    some (.moved sequence path oldPath kind)
  else if type = Json.units "removed" then changeFromValue fields .removed
  else if type = Json.units "overflow" then do
    let sequence ← (Json.field fields "sequence").bind u64?
    some (.overflow sequence)
  else none

def validFileWatchEvent : FileWatchEvent Int → Bool
  | .created sequence _ _ | .modified sequence _ _ | .moved sequence _ _ _
  | .removed sequence _ _ | .overflow sequence => decide (0 < sequence)

/-- `value.get("type").and_then(Value::as_str)` -/
def messageType : Json → Option (Fields × List Nat)
  | .object fields =>
      match Json.field fields "type" with
      | some (.string type) => some (fields, type)
      | _ => none
  | _ => none

def parseEventText {ε : Type} (inRange : Json.Literal → Bool) (knownTypes : List String)
    (fromValue : List Nat → Fields → Option ε) (validate : ε → Bool) (text : List Char) :
    Except ProtocolError (Option ε) :=
  match (serdeJson inRange).parse text with
  | .error error => .error error
  | .ok value =>
      match messageType value with
      | none => .error .frameType
      | some (fields, type) =>
          if isOneOf knownTypes type = false then .ok none
          else
            match fromValue type fields with
            | none => .error .malformedFrame
            | some event => if validate event then .ok (some event) else .error .malformedFrame

def outcome {ε : Type} : Except ProtocolError (Option ε) → Outcome ε
  | .ok none => .ignored
  | .ok (some event) => .event event
  | .error _ => .malformed

def decodeProcess (inRange : Json.Literal → Bool) (text : List Char) :
    Outcome (ProcessStreamEvent Int) :=
  outcome (parseEventText inRange processTypes processFromValue validProcessEvent text)

def decodeWatch (inRange : Json.Literal → Bool) (text : List Char) :
    Outcome (FileWatchEvent Int) :=
  outcome (parseEventText inRange watchTypes watchFromValue validFileWatchEvent text)

end Rust

/-! ## TypeScript -/

namespace TypeScript

/-- `StreamingProtocolError`, by its message. -/
abbrev StreamingProtocolError := String

/-- `JSON.parse` -/
def jsonParse : Json.Dialect StreamingProtocolError where
  malformed := "received malformed JSON text frame"
  check
    | .constant _ => .error "received malformed JSON text frame"
    | _ => .ok ()

def parseJsonObject (text : List Char) : Except StreamingProtocolError Fields :=
  match jsonParse.parse text with
  | .error error => .error error
  | .ok (.object fields) => .ok fields
  | .ok _ => .error "expected a JSON object frame"

/-- A finite `number`. -/
def number? : Option Json → Option ℚ
  | some (.number l) => Binary64.ofRat l.toRat
  | _ => none

/-- `typeof value === 'number' && Number.isInteger(value)` -/
def integer? (v : Option Json) : Option ℚ := (number? v).filter fun q => q.den == 1

/-- `isPositiveInteger` -/
def positiveInteger? (v : Option Json) : Option ℚ := (integer? v).filter fun q => decide (0 < q)

def string? : Option Json → Option (List Nat)
  | some (.string units) => some units
  | _ => none

/-- `isFileKind` -/
def fileKind? : Option Json → Option FileKind
  | some (.string units) => FileKind.ofUnits units
  | _ => none

/-- The frame of a known type, or the error for it. -/
def known {ε : Type} (type : String) (event : Option ε) :
    Except StreamingProtocolError (Option ε) :=
  match event with
  | some event => .ok (some event)
  | none => .error ("malformed known " ++ type ++ " frame")

def parseOutput (type : String) (make : ℚ → List Nat → ProcessStreamEvent ℚ) (message : Fields) :
    Except StreamingProtocolError (Option (ProcessStreamEvent ℚ)) :=
  known type do
    let sequence ← positiveInteger? (Json.field message "sequence")
    let data ← string? (Json.field message "data")
    some (make sequence data)

def parseProcessStreamEvent (text : List Char) :
    Except StreamingProtocolError (Option (ProcessStreamEvent ℚ)) := do
  let message ← parseJsonObject text
  match string? (Json.field message "type") with
  | none => .error "process stream frame type must be a string"
  | some type =>
      if type = Json.units "stdout" then parseOutput "stdout" .stdout message
      else if type = Json.units "stderr" then parseOutput "stderr" .stderr message
      else if type = Json.units "exit" then
        known "exit" do
          let sequence ← positiveInteger? (Json.field message "sequence")
          let exitCode ← integer? (Json.field message "exit_code")
          some (.exit sequence exitCode)
      else if type = Json.units "gap" then
        known "gap" do
          let fromSequence ← positiveInteger? (Json.field message "from_sequence")
          let toSequence ← positiveInteger? (Json.field message "to_sequence")
          some (.gap fromSequence toSequence)
      else .ok none

def parseChange (type : String) (make : ℚ → List Nat → FileKind → FileWatchEvent ℚ)
    (message : Fields) : Except StreamingProtocolError (Option (FileWatchEvent ℚ)) :=
  known type do
    let sequence ← positiveInteger? (Json.field message "sequence")
    let path ← string? (Json.field message "path")
    let kind ← fileKind? (Json.field message "kind")
    some (make sequence path kind)

def parseFileWatchEvent (text : List Char) :
    Except StreamingProtocolError (Option (FileWatchEvent ℚ)) := do
  let message ← parseJsonObject text
  match string? (Json.field message "type") with
  | none => .error "file watch frame type must be a string"
  | some type =>
      if type = Json.units "created" then parseChange "created" .created message
      else if type = Json.units "modified" then parseChange "modified" .modified message
      else if type = Json.units "removed" then parseChange "removed" .removed message
      else if type = Json.units "moved" then
        known "moved" do
          let sequence ← positiveInteger? (Json.field message "sequence")
          let path ← string? (Json.field message "path")
          let oldPath ← string? (Json.field message "old_path")
          let kind ← fileKind? (Json.field message "kind")
          some (.moved sequence path oldPath kind)
      else if type = Json.units "overflow" then
        known "overflow" do
          let sequence ← positiveInteger? (Json.field message "sequence")
          some (.overflow sequence)
      else .ok none

def outcome {ε : Type} : Except StreamingProtocolError (Option ε) → Outcome ε
  | .ok none => .ignored
  | .ok (some event) => .event event
  | .error _ => .malformed

def decodeProcess (text : List Char) : Outcome (ProcessStreamEvent ℚ) :=
  outcome (parseProcessStreamEvent text)

def decodeWatch (text : List Char) : Outcome (FileWatchEvent ℚ) :=
  outcome (parseFileWatchEvent text)

end TypeScript

/-! ## Python -/

namespace Python

inductive Exception where
  | streamingProtocolError (message : String)
  /-- `int` refuses a literal of more than `maxStrDigits` digits. -/
  | valueError
  | recursionError
  deriving DecidableEq, Repr

/-- `sys.int_info.default_max_str_digits` -/
def maxStrDigits : Nat := 4300

def malformedJson : Exception := .streamingProtocolError "received malformed JSON text frame"

/-- `json.loads`; only a `JSONDecodeError` becomes a protocol error. -/
def jsonLoads (recursionLimit : Nat) : Json.Dialect Exception where
  malformed := malformedJson
  check
    | .nest depth => if depth ≤ recursionLimit then .ok () else .error .recursionError
    | .number l =>
        if l.isInteger && decide (maxStrDigits < l.whole.length) then .error .valueError
        else .ok ()
    | _ => .ok ()

def parseJsonObject (recursionLimit : Nat) (text : List Char) : Except Exception Fields :=
  match (jsonLoads recursionLimit).parse text with
  | .error exception => .error exception
  | .ok (.object fields) => .ok fields
  | .ok _ => .error (.streamingProtocolError "expected a JSON object frame")

/-- `isinstance(value, int) and not isinstance(value, bool)` -/
def int? : Option Json → Option Int
  | some (.number l) => if l.isInteger then some l.toInt else none
  | _ => none

def requirePositiveInt (message : Fields) (name : String) : Except Exception Int :=
  match (int? (Json.field message name)).filter fun z => decide (0 < z) with
  | some z => .ok z
  | none =>
      .error (.streamingProtocolError
        ("known frame field '" ++ name ++ "' must be a positive integer"))

def requireInt (message : Fields) (name : String) : Except Exception Int :=
  match int? (Json.field message name) with
  | some z => .ok z
  | none =>
      .error (.streamingProtocolError ("known frame field '" ++ name ++ "' must be an integer"))

def requireString (message : Fields) (name : String) : Except Exception (List Nat) :=
  match Json.field message name with
  | some (.string units) => .ok units
  | _ =>
      .error (.streamingProtocolError ("known frame field '" ++ name ++ "' must be a string"))

/-- `FileKind(require_string(message, "kind"))` -/
def requireKind (message : Fields) : Except Exception FileKind := do
  let name ← requireString message "kind"
  match FileKind.ofUnits name with
  | some kind => .ok kind
  | none => .error (.streamingProtocolError "known frame field 'kind' is invalid")

/-- `message.get("type")`, when it is a `str`. -/
def messageType (message : Fields) : Option (List Nat) :=
  match Json.field message "type" with
  | some (.string type) => some type
  | _ => none

def parseProcessEvent (recursionLimit : Nat) (text : List Char) :
    Except Exception (Option (ProcessStreamEvent Int)) := do
  let message ← parseJsonObject recursionLimit text
  match messageType message with
  | none => .error (.streamingProtocolError "process stream frame type must be a string")
  | some type =>
      if isOneOf processTypes type = false then .ok none
      else if type = Json.units "stdout" then do
        let sequence ← requirePositiveInt message "sequence"
        let data ← requireString message "data"
        .ok (some (.stdout sequence data))
      else if type = Json.units "stderr" then do
        let sequence ← requirePositiveInt message "sequence"
        let data ← requireString message "data"
        .ok (some (.stderr sequence data))
      else if type = Json.units "exit" then do
        let sequence ← requirePositiveInt message "sequence"
        let exitCode ← requireInt message "exit_code"
        .ok (some (.exit sequence exitCode))
      else do
        let fromSequence ← requirePositiveInt message "from_sequence"
        let toSequence ← requirePositiveInt message "to_sequence"
        .ok (some (.gap fromSequence toSequence))

def parseWatchEvent (recursionLimit : Nat) (text : List Char) :
    Except Exception (Option (FileWatchEvent Int)) := do
  let message ← parseJsonObject recursionLimit text
  match messageType message with
  | none => .error (.streamingProtocolError "file watch frame type must be a string")
  | some type =>
      if isOneOf watchTypes type = false then .ok none
      else do
        let sequence ← requirePositiveInt message "sequence"
        if type = Json.units "overflow" then .ok (some (.overflow sequence))
        else do
          let path ← requireString message "path"
          let kind ← requireKind message
          if type = Json.units "moved" then do
            let oldPath ← requireString message "old_path"
            .ok (some (.moved sequence path oldPath kind))
          else if type = Json.units "created" then .ok (some (.created sequence path kind))
          else if type = Json.units "modified" then .ok (some (.modified sequence path kind))
          else .ok (some (.removed sequence path kind))

def outcome {ε : Type} : Except Exception (Option ε) → Outcome ε
  | .ok none => .ignored
  | .ok (some event) => .event event
  | .error (.streamingProtocolError _) => .malformed
  | .error _ => .raised

def decodeProcess (recursionLimit : Nat) (text : List Char) : Outcome (ProcessStreamEvent Int) :=
  outcome (parseProcessEvent recursionLimit text)

def decodeWatch (recursionLimit : Nat) (text : List Char) : Outcome (FileWatchEvent Int) :=
  outcome (parseWatchEvent recursionLimit text)

end Python

end FissionPlane.Sdk.StreamEvents
