/-
# FissionPlane.Sdk.Retry -- what the three SDKs make of a failed response

Each SDK replays an idempotent request while its budget lasts and the failure is worth repeating,
and surfaces the last failure as an error of its own. Rust reads the body of the response, the
TypeScript SDK the error object its client parsed, and Python the model its generated core parsed,
which exists only for the statuses an operation documents.

The contract's verdict is the flag of the error document, or 429 and the 5xx where the document
says nothing. Rust and TypeScript follow it. Python does not always: its core refuses a status
outside `HTTPStatus`, drops the document of an undocumented status, and the error it raises calls
a 429 not retryable where its own retry loop replays it. `pythonFollows` is exactly when it does.
-/
import FissionPlane.Lib.Json
import FissionPlane.Lib.Text

namespace FissionPlane.Sdk.Retry

open FissionPlane.Lib

/-! ## Failed responses -/

/-- A response as the SDKs read it. `members` are those of a body that is a JSON object; any other
body is text to all three. -/
structure Response where
  status : Nat
  text : String
  members : Option (List (List Nat × Json))
  /-- The `x-request-id` header. -/
  requestId : Option String

/-- The contract's `Error`. -/
structure ErrorDocument where
  code : String
  message : String
  retryable : Option Bool
  requestId : Option String
  deriving DecidableEq, Repr

/-- A body that carries the document; it may have further members. -/
structure Conforms (members : List (List Nat × Json)) (doc : ErrorDocument) : Prop where
  nodup : (members.map Prod.fst).Nodup
  code : Json.field members "code" = some (.string (Json.units doc.code))
  message : Json.field members "message" = some (.string (Json.units doc.message))
  retryable : Json.field members "retryable" = doc.retryable.map .bool
  requestId : Json.field members "request_id" =
    doc.requestId.map fun id => .string (Json.units id)

/-- What is retryable: the stated flag, or 429 and the 5xx. -/
def verdict (status : Nat) (doc : ErrorDocument) : Bool :=
  doc.retryable.getD (status == 429 || (decide (500 ≤ status) && decide (status ≤ 599)))

/-- What a retry loop does after a failed attempt. -/
inductive Next (ε : Type) where
  | replay
  | surface (error : ε)

def Next.isReplay {ε : Type} : Next ε → Bool
  | .replay => true
  | .surface _ => false

/-- A retry loop over the failed responses of successive attempts: the requests sent, and the error
surfaced, if the loop has given up. -/
def run {ε : Type} (next : Nat → Response → Next ε) : Nat → List Response → Nat × Option ε
  | attempt, [] => (attempt, none)
  | attempt, response :: responses =>
      match next attempt response with
      | .replay => run next (attempt + 1) responses
      | .surface error => (attempt + 1, some error)

/-! ## Rust -/

namespace Rust

structure ApiError where
  code : List Nat
  message : List Nat
  retryable : Option Bool
  requestId : Option (List Nat)

/-- A member that is missing or `null` is `None`. -/
def optional {α : Type} (read : Json → Option α) : Option Json → Option (Option α)
  | none | some .null => some none
  | some v => (read v).map some

def string? : Json → Option (List Nat)
  | .string units => some units
  | _ => none

def bool? : Json → Option Bool
  | .bool b => some b
  | _ => none

/-- serde refuses a known member that occurs twice. -/
def duplicated (members : List (List Nat × Json)) (name : String) : Bool :=
  decide (1 < (members.map Prod.fst).count (Json.units name))

/-- `serde_json::from_slice::<ApiError>` -/
def ApiError.deserialize (members : List (List Nat × Json)) : Option ApiError :=
  if ["code", "message", "retryable", "request_id"].any (duplicated members) then none
  else do
    let code ← (Json.field members "code").bind string?
    let message ← (Json.field members "message").bind string?
    let retryable ← optional bool? (Json.field members "retryable")
    let requestId ← optional string? (Json.field members "request_id")
    some { code, message, retryable, requestId }

/-- `Error::Api` -/
structure Error where
  status : Nat
  code : Option (List Nat)
  message : List Nat
  retryable : Bool
  requestId : Option (List Nat)

/-- What `Error::Api::retryable` reports when the error document does not say. -/
def defaultRetryable (status : Nat) : Bool := status == 429 || status == 503

/-- Whether the SDK replays an idempotent request whose error document did not state
`retryable`. -/
def retryableStatus (status : Nat) : Bool :=
  status == 429 || (decide (500 ≤ status) && decide (status ≤ 599))

def nonDocumentMessage (canonicalReason : Nat → Option String) (status : Nat) (text : String) :
    List Nat :=
  match Text.trim text.toList with
  | [] => Json.units ((canonicalReason status).getD "unexpected status")
  | text => text.flatMap Utf16.encode

def Error.fromStatus (canonicalReason : Nat → Option String) (response : Response) : Error where
  status := response.status
  code := none
  message := nonDocumentMessage canonicalReason response.status response.text
  retryable := defaultRetryable response.status
  requestId := response.requestId.map Json.units

def Error.fromApiError (response : Response) (body : ApiError) : Error where
  status := response.status
  code := some body.code
  message := body.message
  retryable := body.retryable.getD (defaultRetryable response.status)
  requestId := body.requestId.or (response.requestId.map Json.units)

/-- A failed attempt: what the caller sees, and whether replaying it could plausibly do better. -/
structure Failure where
  error : Error
  retryable : Bool

def Failure.fromResponse (canonicalReason : Nat → Option String) (response : Response) : Failure :=
  match response.members.bind ApiError.deserialize with
  | some parsed =>
      { error := Error.fromApiError response parsed
        -- the loop's own fallback, not the one the error reports
        retryable := parsed.retryable.getD (retryableStatus response.status) }
  | none =>
      { error := Error.fromStatus canonicalReason response
        retryable := retryableStatus response.status }

/-- One turn of `Http::execute`. Every body the SDK sends can be cloned. -/
def next (canonicalReason : Nat → Option String) (maxRetries : Nat) (idempotent : Bool)
    (attempt : Nat) (response : Response) : Next Error :=
  let retries := if idempotent then maxRetries else 0
  let failure := Failure.fromResponse canonicalReason response
  if attempt < retries ∧ failure.retryable = true then .replay else .surface failure.error

end Rust

/-! ## TypeScript -/

namespace TypeScript

inductive ErrorClass where
  | fissionPlane
  | authentication
  | forbidden
  | notFound
  | conflict
  | snapshotExpired
  | rateLimit
  | commandTimeout
  deriving DecidableEq, Repr

structure FissionPlaneError where
  name : ErrorClass
  message : List Nat
  status : Nat
  code : Option (List Nat)
  retryable : Bool
  requestId : Option (List Nat)

/-- Maps a failed response to the matching SDK error class. -/
def errorFromResponse (status : Nat) (members : Option (List (List Nat × Json))) :
    FissionPlaneError :=
  let body := members.getD []
  { name :=
      if status = 401 then .authentication
      else if status = 403 then .forbidden
      else if status = 404 then .notFound
      else if status = 408 then .commandTimeout
      else if status = 409 then .conflict
      else if status = 410 then .snapshotExpired
      else if status = 429 then .rateLimit
      else .fissionPlane
    message :=
      match Json.field body "message" with
      | some (.string message) => message
      | _ => Json.units ("request failed with status " ++ toString status)
    status := status
    code :=
      match Json.field body "code" with
      | some (.string code) => some code
      | _ => none
    -- rate limits and server faults are retryable unless the body says otherwise
    retryable :=
      match Json.field body "retryable" with
      | some (.bool retryable) => retryable
      | _ => status == 429 || decide (500 ≤ status)
    requestId :=
      match Json.field body "request_id" with
      | some (.string requestId) => some requestId
      | _ => none }

/-- Whether a failure justifies another attempt. -/
def shouldRetry (error : FissionPlaneError) (idempotent : Bool) : Bool :=
  if !idempotent then false else error.retryable

/-- One turn of `RequestPipeline.send`. -/
def next (maxRetries : Nat) (idempotent : Bool) (attempt : Nat) (response : Response) :
    Next FissionPlaneError :=
  let error := errorFromResponse response.status response.members
  if maxRetries ≤ attempt ∨ shouldRetry error idempotent = false then .surface error else .replay

end TypeScript

/-! ## Python -/

namespace Python

inductive Operation where
  | exposePort | listPorts | unexposePort
  | createSandbox | deleteSandbox | extendSandboxDeadline | getSandbox | listSandboxes
  | mintSandboxToken | pauseSandbox | resumeSandbox
  | createTemplateBuild | deleteTemplate | getTemplate | getTemplateBuild | getTemplateBuildLogs
  | listTemplates
  | getProcess | getProcessLogs | killProcess | listProcesses | runCommand | startProcess
  | downloadFile | listFiles | makeDirectory | moveFile | removeFile | statFile | uploadFile
  deriving DecidableEq, Repr

/-- The statuses for which the core's `_parse_response` of the operation reads an `Error`. -/
def documented : Operation → List Nat
  | .exposePort => [400, 401, 404, 409]
  | .listPorts => [401, 404]
  | .unexposePort => [401, 404, 409]
  | .createSandbox => [400, 401, 403, 404, 409, 429, 503]
  | .deleteSandbox => [401, 404, 409]
  | .extendSandboxDeadline => [400, 401, 404, 409]
  | .getSandbox => [401, 404]
  | .listSandboxes => [400, 401, 429]
  | .mintSandboxToken => [400, 401, 404, 409]
  | .pauseSandbox => [401, 404, 409]
  | .resumeSandbox => [401, 404, 409, 410, 429, 503]
  | .createTemplateBuild => [400, 401, 403, 429]
  | .deleteTemplate => [401, 404, 409]
  | .getTemplate => [401, 404]
  | .getTemplateBuild => [401, 404]
  | .getTemplateBuildLogs => [401, 404]
  | .listTemplates => [401]
  | .getProcess => [401, 404]
  | .getProcessLogs => [401, 404]
  | .killProcess => [401, 404]
  | .listProcesses => [401]
  | .runCommand => [400, 401, 408, 429]
  | .startProcess => [400, 401, 429]
  | .downloadFile => [400, 401, 404]
  | .listFiles => [400, 401, 404]
  | .makeDirectory => [400, 401]
  | .moveFile => [400, 401, 404, 409]
  | .removeFile => [400, 401, 404]
  | .statFile => [400, 401, 404]
  | .uploadFile => [400, 401]

/-- The error members of `http.HTTPStatus`; calling it with any other number raises
`ValueError`. -/
def isHttpStatus (status : Nat) : Bool :=
  (decide (400 ≤ status) && decide (status ≤ 418)) ||
    (decide (421 ≤ status) && decide (status ≤ 426)) ||
    [428, 429, 431, 451].contains status ||
    (decide (500 ≤ status) && decide (status ≤ 508)) || [510, 511].contains status

/-- The generated `Error`: its values are not checked, and a missing optional one is `UNSET`. -/
structure ErrorModel where
  code : Json
  message : Json
  retryable : Option Json
  requestId : Option Json

/-- `Error.from_dict` -/
def ErrorModel.fromDict (members : List (List Nat × Json)) : Option ErrorModel := do
  let code ← Json.field members "code"
  let message ← Json.field members "message"
  some
    { code, message
      retryable := Json.field members "retryable"
      requestId := Json.field members "request_id" }

/-- What leaves the generated core instead of a response. -/
inductive CoreException where
  /-- `HTTPStatus(status)` -/
  | valueError
  /-- `response.json()` or `from_dict` -/
  | malformedBody
  deriving DecidableEq, Repr

structure ApiResponse where
  statusCode : Nat
  parsed : Option ErrorModel

/-- `_build_response` for an error status, with `raise_on_unexpected_status` off. -/
def buildResponse (operation : Operation) (response : Response) :
    Except CoreException ApiResponse :=
  if isHttpStatus response.status = false then .error .valueError
  else if (documented operation).contains response.status then
    match response.members.bind ErrorModel.fromDict with
    | some parsed => .ok ⟨response.status, some parsed⟩
    | none => .error .malformedBody
  -- an undocumented status: the body is not looked at
  else .ok ⟨response.status, none⟩

/-- The `retryable` flag the server set on an error body. -/
def parsedRetryable (response : ApiResponse) : Option Json := response.parsed.bind (·.retryable)

/-- Whether the contract says reissuing this request may succeed. -/
def shouldRetry (response : ApiResponse) : Bool :=
  match parsedRetryable response with
  | some (.bool true) => true
  | flag =>
      if response.statusCode = 429 ∨ 500 ≤ response.statusCode then
        match flag with
        | some (.bool false) => false
        | _ => true
      else false

structure FissionPlaneError where
  message : Json
  status : Nat
  code : Option Json
  retryable : Json
  requestId : Option Json

/-- The error `raise_for_response` raises; its class follows the status as in TypeScript. -/
def raiseForResponse (response : ApiResponse) : FissionPlaneError where
  message :=
    match response.parsed with
    | some parsed => parsed.message
    | none =>
        .string (Json.units ("request failed with status " ++ toString response.statusCode))
  status := response.statusCode
  code := response.parsed.map (·.code)
  retryable := (parsedRetryable response).getD (.bool (decide (500 ≤ response.statusCode)))
  requestId := response.parsed.bind (·.requestId)

/-- What reaches the caller when the loop gives up. -/
def surfaced (operation : Operation) (response : Response) :
    Except CoreException FissionPlaneError :=
  (buildResponse operation response).map raiseForResponse

/-- One turn of `_retrying`. An exception of the core is no `TransportError` and leaves the loop. -/
def next (operation : Operation) (maxRetries : Nat) (idempotent : Bool) (attempt : Nat)
    (response : Response) : Next (Except CoreException FissionPlaneError) :=
  let attempts := if !idempotent || maxRetries == 0 then 1 else maxRetries + 1
  let final := decide (attempts - 1 ≤ attempt)
  match buildResponse operation response with
  | .error exception => .surface (.error exception)
  | .ok parsed =>
      if final || !shouldRetry parsed then .surface (.ok (raiseForResponse parsed)) else .replay

end Python

/-! ## Each SDK on a conforming document -/

variable {members : List (List Nat × Json)} {doc : ErrorDocument} {response : Response}

/-- serde reads a conforming document, so that Rust replays exactly what the verdict says. -/
theorem Rust.fromResponse_retryable {canonicalReason : Nat → Option String}
    (hm : response.members = some members) (hdoc : Conforms members doc) :
    (Rust.Failure.fromResponse canonicalReason response).retryable =
      verdict response.status doc := by
  have hdup : ∀ name, Rust.duplicated members name = false := by
    intro name
    have hcount := List.nodup_iff_count.mp hdoc.nodup (Json.units name)
    exact decide_eq_false (by omega)
  have hflag : Rust.optional Rust.bool? (Json.field members "retryable") = some doc.retryable := by
    rw [hdoc.retryable]
    cases doc.retryable <;> rfl
  have hid : Rust.optional Rust.string? (Json.field members "request_id") =
      some (doc.requestId.map Json.units) := by
    rw [hdoc.requestId]
    cases doc.requestId <;> rfl
  have hparsed : Rust.ApiError.deserialize members =
      some ⟨Json.units doc.code, Json.units doc.message, doc.retryable,
        doc.requestId.map Json.units⟩ := by
    simp only [Rust.ApiError.deserialize, List.any_cons, List.any_nil, hdup, Bool.or_false,
      hdoc.code, hdoc.message, hflag, hid]
    rfl
  rw [Rust.Failure.fromResponse, hm, Option.bind_some, hparsed]
  rfl

/-- TypeScript's flag is the verdict: below 600 its open range of server faults is the 5xx. -/
theorem TypeScript.errorFromResponse_retryable (hm : response.members = some members)
    (hdoc : Conforms members doc) (hstatus : response.status ≤ 599) :
    (TypeScript.errorFromResponse response.status response.members).retryable =
      verdict response.status doc := by
  rw [TypeScript.errorFromResponse, hm]
  simp only [Option.getD_some, hdoc.retryable, verdict]
  cases doc.retryable with
  | none => simp [hstatus]
  | some flag => rfl

/-- What Python's core makes of a conforming document. -/
theorem Python.buildResponse_eq (operation : Python.Operation)
    (hm : response.members = some members) (hdoc : Conforms members doc)
    (hstatus : Python.isHttpStatus response.status = true) :
    ∃ parsed, Python.buildResponse operation response = .ok parsed ∧
      parsed.statusCode = response.status ∧
      Python.parsedRetryable parsed =
        if (Python.documented operation).contains response.status then doc.retryable.map .bool
        else none := by
  rw [Python.buildResponse, if_neg (by rw [hstatus]; decide), hm, Option.bind_some]
  split
  next =>
    have hmodel : Python.ErrorModel.fromDict members =
        some ⟨.string (Json.units doc.code), .string (Json.units doc.message),
          doc.retryable.map .bool, doc.requestId.map fun id => .string (Json.units id)⟩ := by
      simp only [Python.ErrorModel.fromDict, hdoc.code, hdoc.message, hdoc.retryable,
        hdoc.requestId]
      rfl
    rw [hmodel]
    exact ⟨_, rfl, rfl, rfl⟩
  next => exact ⟨_, rfl, rfl, rfl⟩

/-- Over a boolean flag the retry loop falls back to 429 and the 5xx. -/
theorem Python.shouldRetry_eq {parsed : Python.ApiResponse} {flag : Option Bool}
    (h : Python.parsedRetryable parsed = flag.map .bool) :
    Python.shouldRetry parsed =
      flag.getD (decide (parsed.statusCode = 429 ∨ 500 ≤ parsed.statusCode)) := by
  rw [Python.shouldRetry, h]
  rcases flag with _ | flag
  · by_cases hs : parsed.statusCode = 429 ∨ 500 ≤ parsed.statusCode <;> simp [hs]
  · cases flag <;> simp

/-- Over a boolean flag the raised error falls back to the 5xx alone. -/
theorem Python.raiseForResponse_retryable {parsed : Python.ApiResponse} {flag : Option Bool}
    (h : Python.parsedRetryable parsed = flag.map .bool) :
    (Python.raiseForResponse parsed).retryable =
      .bool (flag.getD (decide (500 ≤ parsed.statusCode))) := by
  simp only [Python.raiseForResponse, h]
  cases flag <;> rfl

/-! ## Agreement -/

/-- The SDKs agree on a response: with budget left each of them replays an idempotent request
exactly when the verdict says so, and the flag that TypeScript and Python surface is the verdict. -/
def Agreed (canonicalReason : Nat → Option String) (operation : Python.Operation)
    (response : Response) (doc : ErrorDocument) : Prop :=
  (∀ maxRetries attempt, attempt < maxRetries →
    (Rust.next canonicalReason maxRetries true attempt response).isReplay =
      verdict response.status doc ∧
    (TypeScript.next maxRetries true attempt response).isReplay = verdict response.status doc ∧
    (Python.next operation maxRetries true attempt response).isReplay =
      verdict response.status doc) ∧
  (TypeScript.errorFromResponse response.status response.members).retryable =
    verdict response.status doc ∧
  ∃ error, Python.surfaced operation response = .ok error ∧
    error.retryable = .bool (verdict response.status doc)

/-- When Python follows the verdict: the status is a member of `HTTPStatus`; where the operation
documents it, the flag is stated or the status is not 429; where it does not, the status is not
429 and a stated flag says what the status alone would. -/
def PythonFollows (operation : Python.Operation) (status : Nat) (doc : ErrorDocument) : Prop :=
  Python.isHttpStatus status = true ∧
    if (Python.documented operation).contains status then
      doc.retryable.isSome = true ∨ status ≠ 429
    else
      status ≠ 429 ∧ (doc.retryable = none ∨ doc.retryable = some (decide (500 ≤ status)))

/-- The two fallbacks of Python against the verdict, over the flag its core kept. -/
theorem fallbacks_eq_iff {stated : Bool} {status : Nat} {flag : Option Bool}
    (hstatus : status ≤ 599) :
    ((if stated = true then flag else none).getD (decide (status = 429 ∨ 500 ≤ status)) =
        flag.getD (status == 429 || (decide (500 ≤ status) && decide (status ≤ 599))) ∧
      (if stated = true then flag else none).getD (decide (500 ≤ status)) =
        flag.getD (status == 429 || (decide (500 ≤ status) && decide (status ≤ 599)))) ↔
    if stated = true then flag.isSome = true ∨ status ≠ 429
    else status ≠ 429 ∧ (flag = none ∨ flag = some (decide (500 ≤ status))) := by
  have hrange : (decide (500 ≤ status) && decide (status ≤ 599)) = decide (500 ≤ status) := by
    simp [hstatus]
  rw [hrange]
  by_cases h429 : status = 429
  · subst h429
    cases stated <;> cases flag <;> simp
  · have heq : (status == 429) = false := beq_false_of_ne h429
    rw [heq]
    by_cases h500 : 500 ≤ status <;> cases stated <;> rcases flag with _ | flag <;>
      try cases flag
    all_goals simp [h429, h500]

/-- Python's core kept enough of a conforming document to follow the verdict, in the loop and in
the raised error, exactly when `PythonFollows`. -/
theorem Python.follows_iff {operation : Python.Operation} (hm : response.members = some members)
    (hdoc : Conforms members doc) (hrange : response.status ≤ 599)
    (hstatus : Python.isHttpStatus response.status = true) :
    ∃ parsed, Python.buildResponse operation response = .ok parsed ∧
      ((Python.shouldRetry parsed = verdict response.status doc ∧
        (Python.raiseForResponse parsed).retryable = .bool (verdict response.status doc)) ↔
      PythonFollows operation response.status doc) := by
  obtain ⟨parsed, hparsed, hcode, hflag⟩ := Python.buildResponse_eq operation hm hdoc hstatus
  have hseen : Python.parsedRetryable parsed =
      (if (Python.documented operation).contains response.status then doc.retryable
        else none).map .bool := by
    rw [hflag]
    split <;> rfl
  refine ⟨parsed, hparsed, ?_⟩
  rw [PythonFollows, and_iff_right hstatus, Python.shouldRetry_eq hseen,
    Python.raiseForResponse_retryable hseen, hcode, verdict, Json.bool.injEq]
  exact fallbacks_eq_iff hrange

/-! ### One turn of each loop -/

theorem Rust.next_isReplay {canonicalReason : Nat → Option String} {maxRetries attempt : Nat}
    (h : attempt < maxRetries) :
    (Rust.next canonicalReason maxRetries true attempt response).isReplay =
      (Rust.Failure.fromResponse canonicalReason response).retryable := by
  rw [Rust.next]
  cases (Rust.Failure.fromResponse canonicalReason response).retryable <;> simp [h, Next.isReplay]

theorem TypeScript.next_isReplay {maxRetries attempt : Nat} (h : attempt < maxRetries) :
    (TypeScript.next maxRetries true attempt response).isReplay =
      (TypeScript.errorFromResponse response.status response.members).retryable := by
  rw [TypeScript.next]
  simp only [TypeScript.shouldRetry, Bool.not_true, Bool.false_eq_true, if_false]
  cases (TypeScript.errorFromResponse response.status response.members).retryable <;>
    simp [Nat.not_le.mpr h, Next.isReplay]

theorem Python.next_isReplay {operation : Python.Operation} {maxRetries attempt : Nat}
    {parsed : Python.ApiResponse} (h : attempt < maxRetries)
    (hparsed : Python.buildResponse operation response = .ok parsed) :
    (Python.next operation maxRetries true attempt response).isReplay =
      Python.shouldRetry parsed := by
  have hattempts : (if (!true || maxRetries == 0) = true then 1 else maxRetries + 1) =
      maxRetries + 1 := if_neg (by simp; omega)
  have hfinal : ¬ maxRetries + 1 - 1 ≤ attempt := by omega
  rw [Python.next]
  simp only [hattempts, hparsed, hfinal, decide_false, Bool.false_or]
  cases Python.shouldRetry parsed <;> rfl

/-- **Agreement is Python's to lose**: for every operation, error status and conforming document
the three SDKs agree exactly when `PythonFollows`. -/
theorem agreed_iff_pythonFollows (canonicalReason : Nat → Option String)
    (operation : Python.Operation) (doc : ErrorDocument)
    (hm : response.members = some members) (hdoc : Conforms members doc)
    (herror : 400 ≤ response.status ∧ response.status ≤ 599) :
    Agreed canonicalReason operation response doc ↔
      PythonFollows operation response.status doc := by
  have hrust : (Rust.Failure.fromResponse canonicalReason response).retryable =
      verdict response.status doc := Rust.fromResponse_retryable hm hdoc
  have hts : (TypeScript.errorFromResponse response.status response.members).retryable =
      verdict response.status doc := TypeScript.errorFromResponse_retryable hm hdoc herror.2
  by_cases hstatus : Python.isHttpStatus response.status = true
  · obtain ⟨parsed, hparsed, hfollows⟩ := Python.follows_iff hm hdoc herror.2 hstatus
    rw [← hfollows]
    constructor
    · rintro ⟨hreplay, -, error, herr, hretry⟩
      rw [Python.surfaced, hparsed] at herr
      rw [← Except.ok.inj herr] at hretry
      -- a budget of one shows what the loop decides
      have hpython := (hreplay 1 0 Nat.one_pos).2.2
      rw [Python.next_isReplay Nat.one_pos hparsed] at hpython
      exact ⟨hpython, hretry⟩
    · rintro ⟨hpython, hretry⟩
      refine ⟨fun maxRetries attempt h => ⟨?_, ?_, ?_⟩, hts, _, ?_, hretry⟩
      · rw [Rust.next_isReplay h, hrust]
      · rw [TypeScript.next_isReplay h, hts]
      · rw [Python.next_isReplay h hparsed, hpython]
      · rw [Python.surfaced, hparsed]; rfl
  · refine iff_of_false ?_ fun h => hstatus h.1
    rintro ⟨-, -, error, herr, -⟩
    rw [Python.surfaced, Python.buildResponse, if_pos (Bool.eq_false_iff.mpr hstatus)] at herr
    cases herr

/-- A 503 that `createSandbox` documents and whose document denies a retry. -/
theorem agreed_denied_503 :
    Agreed (fun _ => none) .createSandbox
      ⟨503, "", some [(Json.units "code", .string (Json.units "no_capacity")),
        (Json.units "message", .string (Json.units "full")),
        (Json.units "retryable", .bool false)], none⟩
      ⟨"no_capacity", "full", some false, none⟩ :=
  (agreed_iff_pythonFollows _ _ _ rfl ⟨by decide, rfl, rfl, rfl, rfl⟩
    ⟨by decide, by decide⟩).mpr ⟨by decide, Or.inl rfl⟩

/-- A rate limit whose document leaves the flag out: Python replays it and then raises an error
that calls it not retryable. -/
theorem not_agreed_rateLimited :
    ¬ ∀ (canonicalReason : Nat → Option String) (operation : Python.Operation)
      (response : Response) (members : List (List Nat × Json)) (doc : ErrorDocument),
      response.members = some members → Conforms members doc →
      400 ≤ response.status ∧ response.status ≤ 599 →
      Agreed canonicalReason operation response doc := by
  intro h
  obtain ⟨-, -, error, herr, hretry⟩ := h (fun _ => none) .createSandbox
    ⟨429, "", some [(Json.units "code", .string (Json.units "rate_limited")),
      (Json.units "message", .string (Json.units "slow down"))], none⟩ _
    ⟨"rate_limited", "slow down", none, none⟩ rfl ⟨by decide, rfl, rfl, rfl, rfl⟩
    ⟨by decide, by decide⟩
  rw [← Except.ok.inj (show Except.ok _ = _ from herr)] at hretry
  cases hretry

/-! ## Runs -/

theorem Rust.next_spent {canonicalReason : Nat → Option String} {maxRetries attempt : Nat}
    (h : maxRetries ≤ attempt) :
    (Rust.next canonicalReason maxRetries true attempt response).isReplay = false := by
  simp [Rust.next, Nat.not_lt.mpr h, Next.isReplay]

theorem TypeScript.next_spent {maxRetries attempt : Nat} (h : maxRetries ≤ attempt) :
    (TypeScript.next maxRetries true attempt response).isReplay = false := by
  simp [TypeScript.next, h, Next.isReplay]

theorem Python.next_spent {operation : Python.Operation} {maxRetries attempt : Nat}
    (h : maxRetries ≤ attempt) :
    (Python.next operation maxRetries true attempt response).isReplay = false := by
  have hfinal :
      (if (!true || maxRetries == 0) = true then 1 else maxRetries + 1) - 1 ≤ attempt := by
    split <;> omega
  rw [Python.next]
  simp only [hfinal, decide_true, Bool.true_or, if_true]
  split <;> rfl

/-- Loops that make the same decision on every response send the same number of requests. -/
theorem run_requests_eq {ε ε' : Type} {next : Nat → Response → Next ε}
    {next' : Nat → Response → Next ε'} {responses : List Response}
    (h : ∀ r ∈ responses, ∀ attempt, (next attempt r).isReplay = (next' attempt r).isReplay) :
    ∀ attempt, (run next attempt responses).1 = (run next' attempt responses).1 := by
  induction responses with
  | nil => intro attempt; rfl
  | cons r responses ih =>
      intro attempt
      have hr := h r List.mem_cons_self attempt
      have ih' := ih fun r' hr' => h r' (List.mem_cons_of_mem r hr')
      rw [run, run]
      cases hn : next attempt r with
      | replay =>
          cases hn' : next' attempt r with
          | replay => exact ih' (attempt + 1)
          | surface => rw [hn, hn'] at hr; cases hr
      | surface =>
          cases hn' : next' attempt r with
          | replay => rw [hn, hn'] at hr; cases hr
          | surface => rfl

/-- An error response that carries a conforming document on which Python follows the verdict. -/
def Followed (operation : Python.Operation) (response : Response) : Prop :=
  ∃ members doc, response.members = some members ∧ Conforms members doc ∧
    response.status ≤ 599 ∧ PythonFollows operation response.status doc

/-- Over any run of such responses the three loops send the same number of requests. -/
theorem requests_agree {canonicalReason : Nat → Option String} {operation : Python.Operation}
    {maxRetries : Nat} {responses : List Response}
    (h : ∀ r ∈ responses, Followed operation r) :
    (run (Rust.next canonicalReason maxRetries true) 0 responses).1 =
        (run (TypeScript.next maxRetries true) 0 responses).1 ∧
      (run (Python.next operation maxRetries true) 0 responses).1 =
        (run (TypeScript.next maxRetries true) 0 responses).1 := by
  refine ⟨run_requests_eq (fun r hr attempt => ?_) 0, run_requests_eq (fun r hr attempt => ?_) 0⟩
  · obtain ⟨members, doc, hm, hdoc, hrange, -⟩ := h r hr
    rcases Nat.lt_or_ge attempt maxRetries with hlt | hge
    · rw [Rust.next_isReplay hlt, TypeScript.next_isReplay hlt,
        Rust.fromResponse_retryable hm hdoc,
        TypeScript.errorFromResponse_retryable hm hdoc hrange]
    · rw [Rust.next_spent hge, TypeScript.next_spent hge]
  · obtain ⟨members, doc, hm, hdoc, hrange, hpython⟩ := h r hr
    rcases Nat.lt_or_ge attempt maxRetries with hlt | hge
    · obtain ⟨parsed, hparsed, hfollows⟩ := Python.follows_iff hm hdoc hrange hpython.1
      rw [Python.next_isReplay hlt hparsed, TypeScript.next_isReplay hlt,
        (hfollows.mpr hpython).1, TypeScript.errorFromResponse_retryable hm hdoc hrange]
    · rw [Python.next_spent hge, TypeScript.next_spent hge]

end FissionPlane.Sdk.Retry
