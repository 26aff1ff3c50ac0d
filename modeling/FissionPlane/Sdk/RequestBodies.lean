/-
# FissionPlane.Sdk.RequestBodies -- the JSON bodies of requests

Nine operations send a JSON body. The three SDKs write it from types of their own: a map has the
order of its language, an option that is not set is left out, and where a TypeScript caller passes
an object that is sent as it is, its members come in the order in which the caller lists them. The
types of the Rust SDK can be deserialized as well. Read as one of them, the body of any client is
the request it was written for.

Numbers are those that the fields of these types hold, and of TypeScript those among them that
JavaScript prints digit by digit. Texts are of Unicode scalar values.
-/
import FissionPlane.Lib.JsonRecord
import FissionPlane.Sdk.ListFilter
import FissionPlane.Sdk.StreamEvents

namespace FissionPlane.Sdk.RequestBodies

open FissionPlane.Lib
open FissionPlane.Lib.Json
open FissionPlane.Sdk.ListFilter (Client Metadata)
open FissionPlane.Sdk.StreamEvents.Rust (serdeJson isWellFormed)

/-! ## Types of fields -/

/-- `BTreeMap<String, String>` -/
abbrev BTreeMap := SortedMap (List Char)

def string : Wire (List Char) (List Char) := Wire.text
def u64 : Wire (BitVec 64) (BitVec 64) := Wire.unsigned 64 (by decide)
def u32 : Wire (BitVec 32) (BitVec 32) := Wire.unsigned 32 (by decide)
def u16 : Wire (BitVec 16) (BitVec 16) := Wire.unsigned 16 (by decide)

/-- The entries of a map in the order in which a client iterates it. -/
def entriesOf : Client → Metadata → List (List Char × List Char)
  | .rust => ListFilter.Rust.iter
  | .typeScript => ListFilter.TypeScript.entries
  | .python => Metadata.pairs

theorem entriesOf_perm (client : Client) (m : Metadata) : (entriesOf client m).Perm m.pairs := by
  cases client with
  | rust => exact ListFilter.iter_perm m
  | typeScript => exact ListFilter.entries_perm m
  | python => exact List.Perm.refl _

theorem entriesOf_nodup (client : Client) (m : Metadata) :
    ((entriesOf client m).map Prod.fst).Nodup :=
  ((entriesOf_perm client m).map Prod.fst).nodup_iff.mpr m.nodup

def stringMap (client : Client) : Wire Metadata BTreeMap :=
  string.map (entriesOf client) (entriesOf_nodup client)

/-! ## Requests, over the maps of a language -/

section Requests

variable {μ : Type} (map : Wire μ BTreeMap)

structure EgressPolicy where
  allow : Option (List (List Char))
  deny : Option (List (List Char))

def EgressPolicy.wire : Wire EgressPolicy EgressPolicy :=
  Fields.struct
    (Fields.optional "allow" string.list <|
      Fields.optional "deny" string.list Fields.nil)
    (by simp)
    (fun r => (r.allow, r.deny, ()))
    (fun (allow, deny, _) =>
      ⟨allow, deny⟩)

/-- Body of `createSandbox`. -/
structure CreateSandboxRequest (μ : Type) where
  template : List Char
  name : Option (List Char)
  metadata : Option μ
  deadlineSeconds : Option (BitVec 64)
  egress : Option EgressPolicy

def CreateSandboxRequest.wire : Wire (CreateSandboxRequest μ) (CreateSandboxRequest BTreeMap) :=
  Fields.struct
    (Fields.required "template" string <|
      Fields.optional "name" string <|
      Fields.optional "metadata" map <|
      Fields.optional "deadline_seconds" u64 <|
      Fields.optional "egress" EgressPolicy.wire Fields.nil)
    (by simp)
    (fun r => (r.template, r.name, r.metadata, r.deadlineSeconds, r.egress, ()))
    (fun (template, name, metadata, deadlineSeconds, egress, _) =>
      ⟨template, name, metadata, deadlineSeconds, egress⟩)

/-- Body of `resumeSandbox`. -/
structure ResumeSandboxRequest where
  deadlineSeconds : Option (BitVec 64)

def ResumeSandboxRequest.wire : Wire ResumeSandboxRequest ResumeSandboxRequest :=
  Fields.struct
    (Fields.optional "deadline_seconds" u64 Fields.nil)
    (by simp)
    (fun r => (r.deadlineSeconds, ()))
    (fun (deadlineSeconds, _) =>
      ⟨deadlineSeconds⟩)

/-- Body of `extendSandboxDeadline`. -/
structure ExtendDeadlineRequest where
  deadlineSeconds : BitVec 64

def ExtendDeadlineRequest.wire : Wire ExtendDeadlineRequest ExtendDeadlineRequest :=
  Fields.struct
    (Fields.required "deadline_seconds" u64 Fields.nil)
    (by simp)
    (fun r => (r.deadlineSeconds, ()))
    (fun (deadlineSeconds, _) =>
      ⟨deadlineSeconds⟩)

/-- Body of `mintSandboxToken`. -/
structure MintTokenRequest where
  ttlSeconds : Option (BitVec 64)
  ports : Option (List (BitVec 16))

def MintTokenRequest.wire : Wire MintTokenRequest MintTokenRequest :=
  Fields.struct
    (Fields.optional "ttl_seconds" u64 <|
      Fields.optional "ports" u16.list Fields.nil)
    (by simp)
    (fun r => (r.ttlSeconds, r.ports, ()))
    (fun (ttlSeconds, ports, _) =>
      ⟨ttlSeconds, ports⟩)

structure BuildStep (μ : Type) where
  command : List Char
  env : Option μ

def BuildStep.wire : Wire (BuildStep μ) (BuildStep BTreeMap) :=
  Fields.struct
    (Fields.required "command" string <|
      Fields.optional "env" map Fields.nil)
    (by simp)
    (fun r => (r.command, r.env, ()))
    (fun (command, env, _) =>
      ⟨command, env⟩)

structure Resources where
  vcpus : BitVec 32
  memMib : BitVec 64

def Resources.wire : Wire Resources Resources :=
  Fields.struct
    (Fields.required "vcpus" u32 <|
      Fields.required "mem_mib" u64 Fields.nil)
    (by simp)
    (fun r => (r.vcpus, r.memMib, ()))
    (fun (vcpus, memMib, _) =>
      ⟨vcpus, memMib⟩)

/-- Body of `createTemplateBuild`. -/
structure CreateTemplateBuildRequest (μ : Type) where
  image : List Char
  templateAlias : Option (List Char)
  steps : Option (List (BuildStep μ))
  startCommand : Option (List Char)
  readyCommand : Option (List Char)
  resources : Option Resources

def CreateTemplateBuildRequest.wire :
    Wire (CreateTemplateBuildRequest μ) (CreateTemplateBuildRequest BTreeMap) :=
  Fields.struct
    (Fields.required "image" string <|
      Fields.optional "alias" string <|
      Fields.optional "steps" (BuildStep.wire map).list <|
      Fields.optional "start_command" string <|
      Fields.optional "ready_command" string <|
      Fields.optional "resources" Resources.wire Fields.nil)
    (by simp)
    (fun r => (r.image, r.templateAlias, r.steps, r.startCommand, r.readyCommand, r.resources, ()))
    (fun (image, templateAlias, steps, startCommand, readyCommand, resources, _) =>
      ⟨image, templateAlias, steps, startCommand, readyCommand, resources⟩)

/-- Body of `runCommand`. -/
structure RunCommandRequest (μ : Type) where
  command : List Char
  args : Option (List (List Char))
  cwd : Option (List Char)
  env : Option μ
  stdin : Option (List Char)
  timeoutSeconds : Option (BitVec 64)

def RunCommandRequest.wire : Wire (RunCommandRequest μ) (RunCommandRequest BTreeMap) :=
  Fields.struct
    (Fields.required "command" string <|
      Fields.optional "args" string.list <|
      Fields.optional "cwd" string <|
      Fields.optional "env" map <|
      Fields.optional "stdin" string <|
      Fields.optional "timeout_seconds" u64 Fields.nil)
    (by simp)
    (fun r => (r.command, r.args, r.cwd, r.env, r.stdin, r.timeoutSeconds, ()))
    (fun (command, args, cwd, env, stdin, timeoutSeconds, _) =>
      ⟨command, args, cwd, env, stdin, timeoutSeconds⟩)

structure PtySize where
  cols : BitVec 16
  rows : BitVec 16

def PtySize.wire : Wire PtySize PtySize :=
  Fields.struct
    (Fields.required "cols" u16 <|
      Fields.required "rows" u16 Fields.nil)
    (by simp)
    (fun r => (r.cols, r.rows, ()))
    (fun (cols, rows, _) =>
      ⟨cols, rows⟩)

/-- Body of `startProcess`. -/
structure StartProcessRequest (μ : Type) where
  command : List Char
  args : Option (List (List Char))
  cwd : Option (List Char)
  env : Option μ
  pty : Option PtySize

def StartProcessRequest.wire : Wire (StartProcessRequest μ) (StartProcessRequest BTreeMap) :=
  Fields.struct
    (Fields.required "command" string <|
      Fields.optional "args" string.list <|
      Fields.optional "cwd" string <|
      Fields.optional "env" map <|
      Fields.optional "pty" PtySize.wire Fields.nil)
    (by simp)
    (fun r => (r.command, r.args, r.cwd, r.env, r.pty, ()))
    (fun (command, args, cwd, env, pty, _) =>
      ⟨command, args, cwd, env, pty⟩)

/-- Body of `makeDirectory`. -/
structure MakeDirectoryRequest where
  path : List Char
  parents : Bool
  mode : Option (List Char)

def MakeDirectoryRequest.wire : Wire MakeDirectoryRequest MakeDirectoryRequest :=
  Fields.struct
    (Fields.required "path" string <|
      Fields.required "parents" Wire.bool <|
      Fields.optional "mode" string Fields.nil)
    (by simp)
    (fun r => (r.path, r.parents, r.mode, ()))
    (fun (path, parents, mode, _) =>
      ⟨path, parents, mode⟩)

/-- Body of `moveFile`. -/
structure MoveFileRequest where
  source : List Char
  destination : List Char
  overwrite : Bool

def MoveFileRequest.wire : Wire MoveFileRequest MoveFileRequest :=
  Fields.struct
    (Fields.required "source" string <|
      Fields.required "destination" string <|
      Fields.required "overwrite" Wire.bool Fields.nil)
    (by simp)
    (fun r => (r.source, r.destination, r.overwrite, ()))
    (fun (source, destination, overwrite, _) =>
      ⟨source, destination, overwrite⟩)

end Requests

/-! ## Operations -/

inductive Operation where
  | createSandbox
  | resumeSandbox
  | extendSandboxDeadline
  | mintSandboxToken
  | createTemplateBuild
  | runCommand
  | startProcess
  | makeDirectory
  | moveFile
  deriving DecidableEq

namespace Operation

/-- The type of the body, over the maps of a language. -/
def Request (μ : Type) : Operation → Type
  | createSandbox => CreateSandboxRequest μ
  | resumeSandbox => ResumeSandboxRequest
  | extendSandboxDeadline => ExtendDeadlineRequest
  | mintSandboxToken => MintTokenRequest
  | createTemplateBuild => CreateTemplateBuildRequest μ
  | runCommand => RunCommandRequest μ
  | startProcess => StartProcessRequest μ
  | makeDirectory => MakeDirectoryRequest
  | moveFile => MoveFileRequest

def wire {μ : Type} (map : Wire μ BTreeMap) :
    (op : Operation) → Wire (op.Request μ) (op.Request BTreeMap)
  | createSandbox => CreateSandboxRequest.wire map
  | resumeSandbox => ResumeSandboxRequest.wire
  | extendSandboxDeadline => ExtendDeadlineRequest.wire
  | mintSandboxToken => MintTokenRequest.wire
  | createTemplateBuild => CreateTemplateBuildRequest.wire map
  | runCommand => RunCommandRequest.wire map
  | startProcess => StartProcessRequest.wire map
  | makeDirectory => MakeDirectoryRequest.wire
  | moveFile => MoveFileRequest.wire

/-- The request with its maps as `BTreeMap`s, and all else as it is. -/
def meant {μ : Type} (sorted : μ → BTreeMap) :
    (op : Operation) → op.Request μ → op.Request BTreeMap
  | createSandbox, r => { r with metadata := r.metadata.map sorted }
  | resumeSandbox, r => r
  | extendSandboxDeadline, r => r
  | mintSandboxToken, r => r
  | createTemplateBuild, r =>
      { r with steps := r.steps.map fun steps => steps.map fun step =>
          { step with env := step.env.map sorted } }
  | runCommand, r => { r with env := r.env.map sorted }
  | startProcess, r => { r with env := r.env.map sorted }
  | makeDirectory, r => r
  | moveFile, r => r

/-- The operations whose request a TypeScript caller passes as it is sent. -/
def passedWhole : Operation → Bool
  | createSandbox | createTemplateBuild => true
  | _ => false

/-- Whether a client sends a body; a resume without a deadline has none in Rust and Python. -/
def sendsBody (client : Client) : (op : Operation) → op.Request Metadata → Bool
  | resumeSandbox, r =>
      match client with
      | .typeScript => true
      | .rust | .python => r.deadlineSeconds.isSome
  | _, _ => true

/-- The body a client writes. -/
def body (client : Client) (op : Operation) (r : op.Request Metadata) : Document :=
  (op.wire (stringMap client)).write r

/-- `serde_json::from_str`, given its range check on numbers. -/
def fromStr (inRange : Literal → Bool) (op : Operation) (text : List Char) :
    Option (op.Request BTreeMap) :=
  match (serdeJson inRange).parse text with
  | .ok v => (op.wire (stringMap .rust)).read v
  | .error _ => none

end Operation

/-- JavaScript prints a number digit by digit, where it is a safe integer. -/
def SafeIntegers (d : Document) : Prop :=
  ∀ l, Feature.number l ∈ d.features 1 → l.magnitude < 2 ^ 53

/-- The body of `Commands.start` in TypeScript, with what is sent for the terminal. -/
def startBody (r : StartProcessRequest Metadata) (pty : Option Document) : Document :=
  record [("command", some (string.write r.command)), ("args", r.args.map string.list.write),
    ("cwd", r.cwd.map string.write), ("env", r.env.map (stringMap .typeScript).write),
    ("pty", pty)]

/-- The bodies a client may send for a request. -/
inductive Sends : (client : Client) → (op : Operation) → op.Request Metadata → Document → Prop
  | written (client : Client) (op : Operation) (r : op.Request Metadata)
      (hsends : op.sendsBody client r = true)
      (hsafe : client = .typeScript → SafeIntegers (op.body client r)) :
      Sends client op r (op.body client r)
  /-- The members in the order in which the caller lists them. -/
  | passed (op : Operation) (r : op.Request Metadata) (d : Document)
      (hwhole : op.passedWhole = true) (horder : Reorders d (op.body .typeScript r))
      (hsafe : SafeIntegers d) : Sends .typeScript op r d
  /-- A terminal's size is sent as the caller passes it. -/
  | sized (r : StartProcessRequest Metadata) (size : PtySize) (d : Document)
      (hpty : r.pty = some size) (horder : Reorders d (PtySize.wire.write size))
      (hsafe : SafeIntegers (startBody r (some d))) :
      Sends .typeScript .startProcess r (startBody r (some d))

/-! ## What a body means -/

theorem stringMap_meant (client : Client) (m : Metadata) :
    (stringMap client).meant m = SortedMap.ofEntries m.pairs := by
  have hself : (entriesOf client m).map string.entryMeant = entriesOf client m := List.map_id _
  show SortedMap.ofEntries ((entriesOf client m).map string.entryMeant) = _
  rw [hself]
  exact SortedMap.ofEntries_congr (entriesOf_perm client m) (entriesOf_nodup client m)

theorem string_meant : string.meant = id := rfl
theorem u64_meant : u64.meant = id := rfl
theorem u16_meant : u16.meant = id := rfl

theorem list_meant {α : Type} {w : Wire α α} (h : w.meant = id) : w.list.meant = id := by
  show List.map w.meant = id
  rw [h, List.map_id_fun]

theorem egressPolicy_meant : EgressPolicy.wire.meant = id := by
  funext r
  show (⟨r.allow.map string.list.meant, r.deny.map string.list.meant⟩ : EgressPolicy) = r
  simp only [list_meant string_meant, Option.map_id, id_eq]

theorem resources_meant : Resources.wire.meant = id := rfl
theorem ptySize_meant : PtySize.wire.meant = id := rfl

section Sorted

variable {client : Client} {sorted : Metadata → BTreeMap} (hmap : (stringMap client).meant = sorted)
include hmap

theorem createSandboxRequest_meant (r : CreateSandboxRequest Metadata) :
    (CreateSandboxRequest.wire (stringMap client)).meant r =
      { r with metadata := r.metadata.map sorted } := by
  show (⟨r.template, r.name.map string.meant, r.metadata.map (stringMap client).meant,
    r.deadlineSeconds.map u64.meant, r.egress.map EgressPolicy.wire.meant⟩ :
      CreateSandboxRequest BTreeMap) = _
  simp only [string_meant, u64_meant, egressPolicy_meant, hmap, Option.map_id, id_eq]

theorem buildSteps_meant : (BuildStep.wire (stringMap client)).list.meant =
    List.map fun step => { step with env := step.env.map sorted } := by
  rw [← hmap]
  rfl

theorem createTemplateBuildRequest_meant (r : CreateTemplateBuildRequest Metadata) :
    (CreateTemplateBuildRequest.wire (stringMap client)).meant r =
      { r with steps := r.steps.map fun steps => steps.map fun step =>
          { step with env := step.env.map sorted } } := by
  show (⟨r.image, r.templateAlias.map string.meant,
    r.steps.map (BuildStep.wire (stringMap client)).list.meant, r.startCommand.map string.meant,
    r.readyCommand.map string.meant, r.resources.map Resources.wire.meant⟩ :
      CreateTemplateBuildRequest BTreeMap) = _
  simp only [string_meant, resources_meant, buildSteps_meant hmap, Option.map_id, id_eq]

theorem runCommandRequest_meant (r : RunCommandRequest Metadata) :
    (RunCommandRequest.wire (stringMap client)).meant r = { r with env := r.env.map sorted } := by
  show (⟨r.command, r.args.map string.list.meant, r.cwd.map string.meant,
    r.env.map (stringMap client).meant, r.stdin.map string.meant,
    r.timeoutSeconds.map u64.meant⟩ : RunCommandRequest BTreeMap) = _
  simp only [string_meant, u64_meant, list_meant string_meant, hmap, Option.map_id, id_eq]

theorem startProcessRequest_meant (r : StartProcessRequest Metadata) :
    (StartProcessRequest.wire (stringMap client)).meant r =
      { r with env := r.env.map sorted } := by
  show (⟨r.command, r.args.map string.list.meant, r.cwd.map string.meant,
    r.env.map (stringMap client).meant, r.pty.map PtySize.wire.meant⟩ :
      StartProcessRequest BTreeMap) = _
  simp only [string_meant, ptySize_meant, list_meant string_meant, hmap, Option.map_id, id_eq]

end Sorted

/-- A body is read as the request, with its maps sorted. -/
theorem wire_meant (client : Client) (op : Operation) (r : op.Request Metadata) :
    (op.wire (stringMap client)).meant r =
      op.meant (fun m => SortedMap.ofEntries m.pairs) r := by
  have hmap := funext (stringMap_meant client)
  cases op with
  | createSandbox => exact createSandboxRequest_meant hmap r
  | resumeSandbox =>
      show (⟨r.deadlineSeconds.map u64.meant⟩ : ResumeSandboxRequest) = r
      simp only [u64_meant, Option.map_id, id_eq]
      rfl
  | extendSandboxDeadline => rfl
  | mintSandboxToken =>
      show (⟨r.ttlSeconds.map u64.meant, r.ports.map u16.list.meant⟩ : MintTokenRequest) = r
      simp only [u64_meant, list_meant u16_meant, Option.map_id, id_eq]
      rfl
  | createTemplateBuild => exact createTemplateBuildRequest_meant hmap r
  | runCommand => exact runCommandRequest_meant hmap r
  | startProcess => exact startProcessRequest_meant hmap r
  | makeDirectory =>
      show (⟨r.path, r.parents, r.mode.map string.meant⟩ : MakeDirectoryRequest) = r
      simp only [string_meant, Option.map_id, id_eq]
      rfl
  | moveFile => rfl

/-- How a body is read does not depend on how maps are written. -/
theorem wire_read (client : Client) (op : Operation) :
    (op.wire (stringMap client)).read = (op.wire (stringMap .rust)).read := by
  cases op with
  | _ => rfl

theorem wire_height (client : Client) (op : Operation) :
    (op.wire (stringMap client)).height ≤ 4 := by
  cases client with
  | _ =>
    cases op with
    | _ => decide

/-! ## The parser of the Rust SDK -/

theorem isWellFormed_encode (s : List Char) : isWellFormed (s.flatMap Utf16.encode) = true := by
  induction s with
  | nil => rfl
  | cons c s ih =>
      have hc := Utf16.toNat_cases c
      rw [List.flatMap_cons, Utf16.encode]
      split
      · rw [List.singleton_append]
        unfold isWellFormed
        rw [if_neg (by omega), ih, Bool.and_true, Bool.not_eq_true', Bool.and_eq_false_iff,
          decide_eq_false_iff_not, decide_eq_false_iff_not]
        omega
      · rw [List.cons_append, List.cons_append, List.nil_append]
        unfold isWellFormed
        dsimp only
        rw [if_pos (by omega), ih, Bool.and_true, Bool.and_eq_true, decide_eq_true_eq,
          decide_eq_true_eq]
        omega

/-- `serde_json` takes what fits, where its range check takes the integers of 64 bits. -/
theorem serdeJson_accepts {inRange : Literal → Bool}
    (hinRange : ∀ l : Literal, l.isInteger = true → l.negative = false → l.magnitude < 2 ^ 64 →
      inRange l = true) {f : Feature} (h : Fits 128 f) : (serdeJson inRange).check f = .ok () := by
  cases f with
  | nest depth =>
      have hdepth : depth ≤ 127 := Nat.le_of_lt_succ h
      exact if_pos hdepth
  | constant _ => exact h.elim
  | number l => exact if_pos (hinRange l h.1 h.2.1 h.2.2)
  | string units =>
      obtain ⟨s, rfl⟩ := h
      exact if_pos (isWellFormed_encode s)

theorem body_startProcess (r : StartProcessRequest Metadata) :
    Operation.startProcess.body .typeScript r = startBody r (r.pty.map PtySize.wire.write) := rfl

/-- A body differs from the one the types of the SDK write in the order of members only. -/
theorem Sends.reorders {client : Client} {op : Operation} {r : op.Request Metadata}
    {d : Document} (h : Sends client op r d) : Reorders d (op.body client r) := by
  cases h with
  | written _ _ _ _ _ => exact Reorders.refl _
  | passed _ _ _ _ horder _ => exact horder
  | sized _ size d hpty horder _ =>
      have hsame : ∀ o : Option Document, Option.Rel Reorders o o := by
        intro o
        cases o with
        | none => exact .none
        | some v => exact .some (Reorders.refl v)
      rw [body_startProcess, hpty]
      exact Reorders.record (.cons ⟨rfl, hsame _⟩ (.cons ⟨rfl, hsame _⟩ (.cons ⟨rfl, hsame _⟩
        (.cons ⟨rfl, hsame _⟩ (.cons ⟨rfl, .some horder⟩ .nil)))))

/-- **A body is read as the request it was written for**: deserialized by the types of the Rust
SDK, the text of any body that any client sends for a request is that request. -/
theorem body_read {inRange : Literal → Bool}
    (hinRange : ∀ l : Literal, l.isInteger = true → l.negative = false → l.magnitude < 2 ^ 64 →
      inRange l = true) {client : Client} {op : Operation} {r : op.Request Metadata} {d : Document}
    (h : Sends client op r d) :
    op.fromStr inRange (d.write stringify) =
      some (op.meant (fun m => SortedMap.ofEntries m.pairs) r) := by
  have hheight := wire_height client op
  obtain ⟨v, hparse, hread⟩ := (op.wire (stringMap client)).parse
    (fun f hf => serdeJson_accepts hinRange (hf.mono (by omega))) stringify h.reorders
  rw [wire_read, wire_meant] at hread
  rw [Operation.fromStr, hparse]
  exact hread

/-- A create whose caller lists the name before the template, and a start whose caller lists the
rows before the columns. -/
theorem body_read_listed :
    let r : CreateSandboxRequest Metadata :=
      ⟨"base".toList, some "a".toList, none, some 60, none⟩
    let start : StartProcessRequest Metadata := ⟨"top".toList, none, none, none, some ⟨80, 24⟩⟩
    Operation.fromStr (fun _ => true) .createSandbox
      ((Document.object [(unitsOf "name".toList, string.write "a".toList),
        (unitsOf "template".toList, string.write "base".toList),
        (unitsOf "deadline_seconds".toList, u64.write 60)]).write stringify) =
      some (Operation.createSandbox.meant (fun m => SortedMap.ofEntries m.pairs) r) ∧
    Operation.fromStr (fun _ => true) .startProcess
      ((startBody start (some (.object [(unitsOf "rows".toList, u16.write 24),
        (unitsOf "cols".toList, u16.write 80)]))).write stringify) =
      some (Operation.startProcess.meant (fun m => SortedMap.ofEntries m.pairs) start) := by
  intro r start
  constructor
  · refine @body_read (fun _ => true) (fun _ _ _ _ => rfl) .typeScript .createSandbox r _
      (.passed .createSandbox r _ rfl ?_ ?_)
    · refine Reorders.object (List.forall₂_same.mpr fun _ _ => ⟨rfl, Reorders.refl _⟩)
        (List.Perm.swap _ _ _) ?_
      decide
    · intro l hl
      simp only [string, u64, Wire.text, Wire.unsigned, Document.features, fieldsFeatures,
        List.mem_cons, List.mem_append, List.not_mem_nil, Feature.number.injEq, reduceCtorEq,
        false_or, or_false] at hl
      subst hl
      decide
  · refine @body_read (fun _ => true) (fun _ _ _ _ => rfl) .typeScript .startProcess start _
      (.sized start ⟨80, 24⟩ _ rfl ?_ ?_)
    · refine Reorders.object (List.forall₂_same.mpr fun _ _ => ⟨rfl, Reorders.refl _⟩)
        (List.Perm.swap _ _ _) ?_
      decide
    · intro l hl
      simp only [start, startBody, record, present, List.filterMap_cons, List.filterMap_nil,
        Option.map_some, Option.map_none, string, u16, Wire.text, Wire.unsigned, Document.features,
        fieldsFeatures, List.mem_cons, List.mem_append, List.not_mem_nil, Feature.number.injEq,
        reduceCtorEq, false_or, or_false] at hl
      rcases hl with rfl | rfl
      · decide
      · decide

end FissionPlane.Sdk.RequestBodies
