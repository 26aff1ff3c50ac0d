/-
# FissionPlane.Sdk.PythonErrors -- what the Python SDK raises on a failed response

A failed response passes three layers. The generated core turns its status into an `HTTPStatus` and,
where the operation documents that status, its body into an `Error`; the retry loop looks at the
result, and on the data plane so does the recovery from a 401; the hand-written layer raises the
`FissionPlaneError`. Only the last of them maps errors: whatever the core raises goes past the
others as it is. A stream has no core under it: what refuses its handshake leaves the call as the
exception of the WebSocket library.

The body reaches the core through `response.json()`, which is the parameter `json` here: nothing is
assumed of it.
-/
import FissionPlane.Sdk.DataPlane

namespace FissionPlane.Sdk.PythonErrors

open FissionPlane.Lib
open FissionPlane.Sdk.DataPlane
open FissionPlane.Sdk.RustHttp (HeaderMap)
open FissionPlane.Sdk.PythonCaller (DelayAvailable Outcome Raised RetryPolicy retrying
  retrying_not_idempotent retrying_result surface)
open FissionPlane.Sdk.Retry.Python (ApiResponse CoreException ErrorModel FissionPlaneError Operation
  documented isHttpStatus raiseForResponse)

/-! ## `Error.from_dict` of a decoded body -/

/-- The characters of a Python string, each by its code units. -/
def characters : List Nat → List (List Nat)
  | [] => []
  | [unit] => [[unit]]
  | high :: low :: rest =>
      if 0xD800 ≤ high ∧ high < 0xDC00 ∧ 0xDC00 ≤ low ∧ low < 0xE000 then
        [high, low] :: characters rest
      else [high] :: characters (low :: rest)

/-- A key of a dictionary: a string, or another hashable value, which is no attribute's name. -/
def key? : Json → Option (Option (List Nat))
  | .string units => some (some units)
  | .array _ => none
  | .object _ => none
  | _ => some none

/-- An element of the sequence `dict` is called on: it is unpacked into a key and a value. -/
def entry? : Json → Option (Option (List Nat) × Json)
  | .array [key, value] => (key? key).map (·, value)
  | .string units =>
      match characters units with
      | [key, value] => some (some key, .string value)
      | _ => none
  | .object fields =>
      match (fields.map Prod.fst).eraseDups with
      | [key, value] => some (some key, .string value)
      | _ => none
  | _ => none

/-- `dict(src_dict)`, as far as its keys are strings. -/
def dict? : Json → Option (List (List Nat × Json))
  | .object fields => some fields
  | .array items =>
      (items.mapM entry?).map fun entries =>
        entries.filterMap fun (key, value) => key.map (·, value)
  | .string [] => some []
  | _ => none

/-- `Error.from_dict` -/
def fromDict (src : Json) : Option ErrorModel := (dict? src).bind ErrorModel.fromDict

/-! ## The layers -/

structure HttpResponse where
  status : ℕ
  content : List UInt8

/-- How a request ends. -/
inductive Answer where
  | response (response : HttpResponse)
  | transportError (name : String)

/-- What leaves a call of the SDK. -/
inductive Exception where
  | fissionPlane (error : FissionPlaneError)
  | core (exception : CoreException)
  | transportError (name : String)
  | overflowError
  /-- The `FissionPlaneError` of an unarmed handle, which has no status. -/
  | noToken
  /-- The exception of websockets. -/
  | invalidStatus (response : HttpResponse)
  /-- A `FissionPlaneError` without a status. -/
  | streamingProtocolError
  | other (name : String)

section

-- `httpx.Response.json`, and what an attempt makes of a response below 400
variable (json : List UInt8 → Option Json) (success : Operation → HttpResponse → Outcome Exception)

/-- `_build_response` of a failed response, with `raise_on_unexpected_status` off. -/
def buildResponse (operation : Operation) (response : HttpResponse) :
    Except CoreException ApiResponse :=
  if isHttpStatus response.status = false then .error .valueError
  else if (documented operation).contains response.status then
    match (json response.content).bind fromDict with
    | some parsed => .ok ⟨response.status, some parsed⟩
    | none => .error .malformedBody
  else .ok ⟨response.status, none⟩

/-- Of a body that is a JSON object, the core makes what `Retry` says. -/
theorem buildResponse_of_object {operation : Operation} {response : HttpResponse}
    {members : List (List Nat × Json)} (h : json response.content = some (.object members))
    (text : String) (requestId : Option String) :
    buildResponse json operation response =
      Retry.Python.buildResponse operation ⟨response.status, text, some members, requestId⟩ := by
  rw [buildResponse, h]
  rfl

/-- One attempt at an operation of the core. -/
def attempt (operation : Operation) : Answer → Outcome Exception
  | .transportError name => .transportError name
  | .response response =>
      if response.status < 400 then success operation response
      else
        match buildResponse json operation response with
        | .ok response => .response response
        | .error exception => .exception (.core exception)

end

/-- `raise_for_response` of what the retry loop returned or raised. -/
def finish : Except (Raised Exception) ApiResponse → Except Exception ApiResponse
  | .ok response =>
      if response.statusCode < 400 then .ok response
      else .error (.fissionPlane (raiseForResponse response))
  | .error (.transportError name) => .error (.transportError name)
  | .error (.exception exception) => .error exception
  | .error .overflowError => .error .overflowError

/-- The call raises the error of a status. -/
def Raises {α : Type} (result : Except Exception α) (status : ℕ) : Prop :=
  ∃ error, result = .error (.fissionPlane error) ∧ error.status = status

/-! ## Calls -/

section

variable (json : List UInt8 → Option Json) (success : Operation → HttpResponse → Outcome Exception)

/-- A control-plane call: `_execute`, and the mapping of its response. -/
def controlCall (operation : Operation) (policy : RetryPolicy) (idempotent : Bool)
    (answer : ℕ → Answer) : Except Exception ApiResponse :=
  finish (retrying policy idempotent (fun k => attempt json success operation (answer k)) 0).result

/-- `_remint_token`: `minted` is the token read off a reply below 400. -/
def remintToken (policy : RetryPolicy) (minted : Except Exception String) (mint : ℕ → Answer) :
    Except Exception (Option String) :=
  match controlCall json success .mintSandboxToken policy false mint with
  | .ok _ => minted.map some
  | .error exception => .error exception

/-- What one data-plane call depends on. -/
structure Setup where
  operation : Operation
  policy : RetryPolicy
  idempotent : Bool
  defaults : HeaderMap
  extra : HeaderMap

/-- The attempts of an execution, by the tokens the handle holds. -/
def attempts (setup : Setup) (held : ℕ → Option String) (answer : ℕ → Answer) :
    ℕ → Outcome Exception :=
  DataPlane.Python.armed .noToken held fun k => attempt json success setup.operation (answer k)

/-- `_invoke` of a data-plane call. `source` has the answers to the mint, where the module has a
token source. -/
def invoke (setup : Setup) (held : ℕ → Option String) (cache : ℕ → ClientCache)
    (first : ℕ → Answer) (source : Option (ℕ → Answer)) (minted : Except Exception String)
    (since : ℕ → Option String) (cache' : ℕ → ClientCache) (second : ℕ → Answer) :
    Call HeaderMap (Except (Raised Exception) ApiResponse) Exception :=
  DataPlane.Python.call
    ⟨setup.policy, setup.idempotent, setup.defaults, setup.extra, .noToken⟩ held cache
    (fun k => attempt json success setup.operation (first k))
    (source.map (remintToken json success setup.policy minted)) since cache'
    (fun k => attempt json success setup.operation (second k))

end

/-- The mapping of the response `_invoke` returned, or the exception that left it. -/
def mapped : Surfaced (Except (Raised Exception) ApiResponse) Exception →
    Except Exception ApiResponse
  | .outcome result => finish result
  | .mintFailed exception => .error exception
  | .refused message => .error (.other message)

/-! ### Streams -/

/-- How `websocket_connect` ends: with a connection, with the `InvalidStatus` that websockets raises
of a response refusing the handshake, or with another exception. -/
inductive Handshake where
  | connected (subprotocol : Option String)
  | invalidStatus (response : HttpResponse)
  | failed (name : String)

def Handshake.result : Handshake → Except Exception (Option String)
  | .connected subprotocol => .ok subprotocol
  | .invalidStatus response => .error (.invalidStatus response)
  | .failed name => .error (.other name)

section

variable (json : List UInt8 → Option Json) (success : Operation → HttpResponse → Outcome Exception)

/-- `_connect`; its events name the token that a handshake offers. -/
def connect (policy : RetryPolicy) (held : Option String) (first : Handshake)
    (source : Option (ℕ → Answer)) (minted : Except Exception String) (since : Option String)
    (second : Handshake) : Call String (Except Exception (Option String)) Exception :=
  match held with
  | none => ⟨[], .outcome (.error .noToken)⟩
  | some token =>
      let executed := Event.executed [token] first.result
      match first, source.map (remintToken json success policy minted) with
      | .invalidStatus response, some reply =>
          if response.status ≠ 401 then ⟨[executed], .outcome first.result⟩
          else
            match reply with
            | .error exception => ⟨[executed, .minted (.error exception)], .mintFailed exception⟩
            | .ok none => ⟨[executed, .minted (.ok none)], .outcome first.result⟩
            | .ok (some token) =>
                -- outside of the `try`: what the second handshake raises leaves the call
                ⟨[executed, .minted (.ok (some token)),
                  .executed [since.getD token] second.result], .outcome second.result⟩
      | _, _ => ⟨[executed], .outcome first.result⟩

/-- `attach` and `watch`, up to the connection. -/
def attach (after : ℤ) (policy : RetryPolicy) (held : Option String) (first : Handshake)
    (source : Option (ℕ → Answer)) (minted : Except Exception String) (since : Option String)
    (second : Handshake) : Call String (Except Exception (Option String)) Exception :=
  if after < 0 then ⟨[], .outcome (.error (.other "ValueError"))⟩
  else connect json success policy held first source minted since second

end

/-- `_validate_subprotocol` -/
def validateSubprotocol (subprotocol : Option String) : Except Exception Unit :=
  if subprotocol ≠ some "fissionplane.v1" then .error .streamingProtocolError else .ok ()

/-- The stream that is made of the connection. -/
def attached : Surfaced (Except Exception (Option String)) Exception → Except Exception Unit
  | .outcome (.ok subprotocol) => validateSubprotocol subprotocol
  | .outcome (.error exception) => .error exception
  | .mintFailed exception => .error exception
  | .refused message => .error (.other message)

/-! ### Answers -/

/-- The loop's last attempt. -/
def IsFinal (policy : RetryPolicy) (idempotent : Bool) (outcome : ℕ → Outcome Exception) (n : ℕ) :
    Prop :=
  (retrying policy idempotent outcome 0).attempts = n + 1

/-- The core gets a response out of an answer: its status is an `HTTPStatus`, and where the
operation documents it, its body is JSON from which the `Error` can be read. -/
structure Decoded (json : List UInt8 → Option Json) (operation : Operation)
    (response : HttpResponse) : Prop where
  status : isHttpStatus response.status = true
  body : (documented operation).contains response.status = true →
    ∃ src, json response.content = some src ∧ (fromDict src).isSome

/-! ## What the layers do -/

section

variable {json : List UInt8 → Option Json} {success : Operation → HttpResponse → Outcome Exception}
  {operation : Operation} {policy : RetryPolicy} {idempotent : Bool}
  {outcome : ℕ → Outcome Exception} {response : HttpResponse} {n : ℕ}

theorem buildResponse_of_decoded (h : Decoded json operation response) :
    ∃ parsed, buildResponse json operation response = .ok parsed ∧
      parsed.statusCode = response.status := by
  unfold buildResponse
  rw [if_neg (by simp [h.status])]
  split
  · next hdocumented =>
      obtain ⟨src, hsrc, hparsed⟩ := h.body hdocumented
      obtain ⟨parsed, hparsed⟩ := Option.isSome_iff_exists.mp hparsed
      rw [hsrc, Option.bind_some, hparsed]
      exact ⟨_, rfl, rfl⟩
  · exact ⟨_, rfl, rfl⟩

theorem buildResponse_of_not_decoded (h : ¬ Decoded json operation response) :
    ∃ exception, buildResponse json operation response = .error exception := by
  unfold buildResponse
  split
  · exact ⟨_, rfl⟩
  · next hstatus =>
      split
      · split
        · next parsed hparsed =>
            obtain ⟨src, hsrc, hfrom⟩ := Option.bind_eq_some_iff.mp hparsed
            refine absurd ⟨by simpa using hstatus, fun _ => ⟨src, hsrc, ?_⟩⟩ h
            rw [hfrom]
            rfl
        · exact ⟨_, rfl⟩
      · next hdocumented => exact absurd ⟨by simpa using hstatus, fun hc => absurd hc hdocumented⟩ h

/-- A loop whose last answer is a failed response returns that response, or something else leaves
it: an exception of the core, or the lack of a delay. -/
theorem result_cases (hfinal : IsFinal policy idempotent outcome n)
    (hanswer : outcome n = attempt json success operation (.response response))
    (hstatus : 400 ≤ response.status) :
    ((Decoded json operation response ∧ DelayAvailable policy idempotent outcome n) ∧
      ∃ parsed, (retrying policy idempotent outcome 0).result = .ok parsed ∧
        parsed.statusCode = response.status) ∨
    (¬ (Decoded json operation response ∧ DelayAvailable policy idempotent outcome n) ∧
      ((∃ exception, (retrying policy idempotent outcome 0).result =
          .error (.exception (.core exception))) ∨
        (retrying policy idempotent outcome 0).result = .error .overflowError)) := by
  have hattempt : outcome n =
      match buildResponse json operation response with
      | .ok response => .response response
      | .error exception => .exception (.core exception) := by
    rw [hanswer, attempt, if_neg (Nat.not_lt_of_le hstatus)]
  obtain ⟨hdelay, hresult⟩ | ⟨hdelay, hresult⟩ := retrying_result hfinal
  · by_cases hdecoded : Decoded json operation response
    · obtain ⟨parsed, hparsed, hcode⟩ := buildResponse_of_decoded hdecoded
      refine .inl ⟨⟨hdecoded, hdelay⟩, parsed, ?_, hcode⟩
      rw [hresult, hattempt, hparsed]
      rfl
    · obtain ⟨exception, hexception⟩ := buildResponse_of_not_decoded hdecoded
      refine .inr ⟨fun h => hdecoded h.1, .inl ⟨exception, ?_⟩⟩
      rw [hresult, hattempt, hexception]
      rfl
  · exact .inr ⟨fun h => hdelay h.2, .inr hresult⟩

/-- The last answer of a loop is mapped to its status exactly when the core gets a response out of
it and the loop is not left for want of a delay. -/
theorem raises_finish_iff (hfinal : IsFinal policy idempotent outcome n)
    (hanswer : outcome n = attempt json success operation (.response response))
    (hstatus : 400 ≤ response.status) :
    Raises (finish (retrying policy idempotent outcome 0).result) response.status ↔
      Decoded json operation response ∧ DelayAvailable policy idempotent outcome n := by
  obtain ⟨h, parsed, hresult, hcode⟩ | ⟨h, ⟨exception, hresult⟩ | hresult⟩ :=
    result_cases hfinal hanswer hstatus
  · refine iff_of_true ⟨raiseForResponse parsed, ?_, hcode⟩ h
    rw [hresult, finish, if_neg (by omega)]
  · refine iff_of_false ?_ h
    rintro ⟨error, herror, -⟩
    rw [hresult] at herror
    cases herror
  · refine iff_of_false ?_ h
    rintro ⟨error, herror, -⟩
    rw [hresult] at herror
    cases herror

/-- A failed response as the last answer makes the call fail. -/
theorem finish_ne_ok (hfinal : IsFinal policy idempotent outcome n)
    (hanswer : outcome n = attempt json success operation (.response response))
    (hstatus : 400 ≤ response.status) {parsed : ApiResponse} :
    finish (retrying policy idempotent outcome 0).result ≠ .ok parsed := by
  obtain ⟨-, parsed', hresult, hcode⟩ | ⟨-, ⟨exception, hresult⟩ | hresult⟩ :=
    result_cases hfinal hanswer hstatus
  · rw [hresult, finish, if_neg (by omega)]
    exact nofun
  · rw [hresult]
    exact nofun
  · rw [hresult]
    exact nofun

/-- Under the same condition the recovery gets to see a 401. -/
theorem unauthorized_iff (hfinal : IsFinal policy idempotent outcome n)
    (hanswer : outcome n = attempt json success operation (.response response))
    (hstatus : response.status = 401) :
    DataPlane.Python.unauthorized (retrying policy idempotent outcome 0).result = true ↔
      Decoded json operation response ∧ DelayAvailable policy idempotent outcome n := by
  obtain ⟨h, parsed, hresult, hcode⟩ | ⟨h, ⟨exception, hresult⟩ | hresult⟩ :=
    result_cases hfinal hanswer (by omega)
  · refine iff_of_true ?_ h
    simp [hresult, DataPlane.Python.unauthorized, hcode, hstatus]
  · refine iff_of_false ?_ h
    simp [hresult, DataPlane.Python.unauthorized]
  · refine iff_of_false ?_ h
    simp [hresult, DataPlane.Python.unauthorized]

end

section

variable {json : List UInt8 → Option Json} {success : Operation → HttpResponse → Outcome Exception}
  {setup : Setup} {held since : ℕ → Option String} {cache cache' : ℕ → ClientCache}
  {first second mint : ℕ → Answer} {source : Option (ℕ → Answer)}
  {minted : Except Exception String} {response : HttpResponse} {n : ℕ}

theorem attempts_armed (harmed : (held n).isSome) (hanswer : first n = .response response) :
    attempts json success setup held first n =
      attempt json success setup.operation (.response response) := by
  obtain ⟨token, htoken⟩ := Option.isSome_iff_exists.mp harmed
  simp only [attempts, DataPlane.Python.armed, htoken, hanswer]

/-- A mint gives a token or fails. -/
theorem remintToken_ne_none (policy : RetryPolicy) :
    remintToken json success policy minted mint ≠ .ok none := by
  unfold remintToken
  split
  · cases minted <;> simp [Except.map]
  · exact nofun

/-- A call ends as its first execution does, or follows a 401 up with a mint: it then fails as the
mint does, or ends as its second execution does. -/
theorem invoke_cases (json : List UInt8 → Option Json)
    (success : Operation → HttpResponse → Outcome Exception) (setup : Setup)
    (held : ℕ → Option String) (cache : ℕ → ClientCache) (first : ℕ → Answer)
    (source : Option (ℕ → Answer)) (minted : Except Exception String)
    (since : ℕ → Option String) (cache' : ℕ → ClientCache) (second : ℕ → Answer) :
    let e := retrying setup.policy setup.idempotent (attempts json success setup held first) 0
    let call := invoke json success setup held cache first source minted since cache' second
    ((∀ reply, Event.minted reply ∉ call.log) ∧ call.result = .outcome e.result ∧
      (DataPlane.Python.unauthorized e.result = true → source = none)) ∨
    DataPlane.Python.unauthorized e.result = true ∧ ∃ mint, source = some mint ∧
      ((∃ exception, remintToken json success setup.policy minted mint = .error exception ∧
        (∀ reply, Event.minted reply ∈ call.log ↔ reply = .error exception) ∧
        call.result = .mintFailed exception) ∨
      ∃ token, (∀ reply, Event.minted reply ∈ call.log ↔ reply = .ok (some token)) ∧
        call.result = .outcome (retrying setup.policy setup.idempotent
          (attempts json success setup (fun k => some ((since k).getD token)) second)
          0).result) := by
  intro e call
  obtain ⟨hcall, hsource⟩ | ⟨hunauthorized, ⟨exception, hrefresh, hcall⟩ | ⟨hrefresh, -⟩ |
      ⟨token, hrefresh, hcall⟩⟩ :=
    DataPlane.Python.call_cases
      ⟨setup.policy, setup.idempotent, setup.defaults, setup.extra, Exception.noToken⟩ held cache
      (fun k => attempt json success setup.operation (first k))
      (source.map (remintToken json success setup.policy minted)) since cache'
      (fun k => attempt json success setup.operation (second k))
  · have hlog : ∀ reply, Event.minted reply ∉ call.log := by
      simp only [call, invoke, hcall]
      simp
    exact .inl ⟨hlog, congrArg Call.result hcall, fun h => Option.map_eq_none_iff.mp (hsource h)⟩
  · obtain ⟨mint, hmint, hfails⟩ := Option.map_eq_some_iff.mp hrefresh
    have hlog : ∀ reply, Event.minted reply ∈ call.log ↔ reply = .error exception := by
      simp only [call, invoke, hcall]
      simp
    exact .inr ⟨hunauthorized, mint, hmint, .inl ⟨exception, hfails, hlog,
      congrArg Call.result hcall⟩⟩
  · obtain ⟨mint, -, hnone⟩ := Option.map_eq_some_iff.mp hrefresh
    exact absurd hnone (remintToken_ne_none setup.policy)
  · obtain ⟨mint, hmint, -⟩ := Option.map_eq_some_iff.mp hrefresh
    have hlog : ∀ reply, Event.minted reply ∈ call.log ↔ reply = .ok (some token) := by
      simp only [call, invoke, hcall]
      simp
    exact .inr ⟨hunauthorized, mint, hmint, .inr ⟨token, hlog, congrArg Call.result hcall⟩⟩

/-- A 401 that the first execution ends with is followed up exactly when the recovery sees it. -/
theorem minted_iff (hfinal : IsFinal setup.policy setup.idempotent
      (attempts json success setup held first) n)
    (harmed : (held n).isSome) (hanswer : first n = .response response)
    (hstatus : response.status = 401) :
    (∃ reply, Event.minted reply ∈ (invoke json success setup held cache first (some mint) minted
      since cache' second).log) ↔
      Decoded json setup.operation response ∧
        DelayAvailable setup.policy setup.idempotent
          (attempts json success setup held first) n := by
  rw [← unauthorized_iff hfinal (attempts_armed harmed hanswer) hstatus]
  obtain ⟨hlog, -, hsource⟩ | ⟨hunauthorized, _, -, ⟨exception, -, hlog, -⟩ | ⟨token, hlog, -⟩⟩ :=
    invoke_cases json success setup held cache first (some mint) minted since cache' second
  · refine iff_of_false ?_ fun h => absurd (hsource h) (Option.some_ne_none _)
    rintro ⟨reply, hreply⟩
    exact hlog reply hreply
  · exact iff_of_true ⟨_, (hlog _).mpr rfl⟩ hunauthorized
  · exact iff_of_true ⟨_, (hlog _).mpr rfl⟩ hunauthorized

/-- A call without a mint raises what its first execution's last answer is mapped to. -/
theorem raises_first_iff (hfinal : IsFinal setup.policy setup.idempotent
      (attempts json success setup held first) n)
    (harmed : (held n).isSome) (hanswer : first n = .response response)
    (hstatus : 400 ≤ response.status)
    (hnone : ∀ reply, Event.minted reply ∉ (invoke json success setup held cache first source minted
      since cache' second).log) :
    Raises (mapped (invoke json success setup held cache first source minted since cache'
        second).result) response.status ↔
      Decoded json setup.operation response ∧
        DelayAvailable setup.policy setup.idempotent
          (attempts json success setup held first) n := by
  obtain ⟨-, hresult, -⟩ | ⟨-, _, -, ⟨exception, -, hlog, -⟩ | ⟨token, hlog, -⟩⟩ :=
    invoke_cases json success setup held cache first source minted since cache' second
  · rw [hresult]
    exact raises_finish_iff hfinal (attempts_armed harmed hanswer) hstatus
  · exact absurd ((hlog _).mpr rfl) (hnone _)
  · exact absurd ((hlog _).mpr rfl) (hnone _)

/-- A mint that fails on an answer raises what this answer is mapped to. -/
theorem raises_remint_iff {α : Type} {policy : RetryPolicy} {exception : Exception}
    (hfails : remintToken json success policy minted mint = .error exception)
    (hanswer : mint 0 = .response response) (hstatus : 400 ≤ response.status) :
    Raises (.error exception : Except Exception α) response.status ↔
      Decoded json .mintSandboxToken response := by
  -- a mint is not replayed, so that its first answer is its last
  have hfinal : IsFinal policy false
      (fun k => attempt json success .mintSandboxToken (mint k)) 0 := by
    rw [IsFinal, retrying_not_idempotent]
  have hcontrol := raises_finish_iff hfinal (congrArg _ hanswer) hstatus
  have hdelay : DelayAvailable policy false
      (fun k => attempt json success .mintSandboxToken (mint k)) 0 := .inl (by
    simp [PythonCaller.attempts])
  rw [and_iff_left hdelay] at hcontrol
  rw [← hcontrol]
  unfold remintToken controlCall at hfails
  split at hfails
  · next parsed hok => exact absurd hok (finish_ne_ok hfinal (congrArg _ hanswer) hstatus)
  · next error herror =>
      obtain rfl := Except.error.inj hfails
      rw [herror]
      simp only [Raises, Except.error.injEq]

/-- A call whose mint fails raises what the mint's answer is mapped to. -/
theorem raises_mint_iff {exception : Exception}
    (hminted : Event.minted (.error exception) ∈ (invoke json success setup held cache first
      (some mint) minted since cache' second).log)
    (hanswer : mint 0 = .response response) (hstatus : 400 ≤ response.status) :
    Raises (mapped (invoke json success setup held cache first (some mint) minted since cache'
        second).result) response.status ↔ Decoded json .mintSandboxToken response := by
  obtain ⟨hlog, -⟩ | ⟨-, _, hsource, ⟨exception', hfails, hlog, hresult⟩ | ⟨token, hlog, -⟩⟩ :=
    invoke_cases json success setup held cache first (some mint) minted since cache' second
  · exact absurd hminted (hlog _)
  · obtain rfl := Option.some.inj hsource
    rw [hresult]
    exact raises_remint_iff hfails hanswer hstatus
  · cases (hlog _).mp hminted

/-- A call with a second execution raises what that one's last answer is mapped to. -/
theorem raises_second_iff {token : String}
    (hminted : Event.minted (.ok (some token)) ∈ (invoke json success setup held cache first
      source minted since cache' second).log)
    (hfinal : IsFinal setup.policy setup.idempotent
      (attempts json success setup (fun k => some ((since k).getD token)) second) n)
    (hanswer : second n = .response response) (hstatus : 400 ≤ response.status) :
    Raises (mapped (invoke json success setup held cache first source minted since cache'
        second).result) response.status ↔
      Decoded json setup.operation response ∧
        DelayAvailable setup.policy setup.idempotent
          (attempts json success setup (fun k => some ((since k).getD token)) second) n := by
  obtain ⟨hlog, -⟩ | ⟨-, _, -, ⟨exception, -, hlog, -⟩ | ⟨token', hlog, hresult⟩⟩ :=
    invoke_cases json success setup held cache first source minted since cache' second
  · exact absurd hminted (hlog _)
  · cases (hlog _).mp hminted
  · obtain rfl : token = token' := by simpa using (hlog _).mp hminted
    rw [hresult]
    exact raises_finish_iff hfinal (attempts_armed rfl hanswer) hstatus

end

/-! ### Streams -/

section

variable {json : List UInt8 → Option Json} {success : Operation → HttpResponse → Outcome Exception}
  {after : ℤ} {policy : RetryPolicy} {held since : Option String} {first second : Handshake}
  {source : Option (ℕ → Answer)} {mint : ℕ → Answer} {minted : Except Exception String}
  {response : HttpResponse}

/-- A refused handshake is raised as it is. -/
theorem not_raises_invalidStatus (response : HttpResponse) (status : ℕ) :
    ¬ Raises (attached (.outcome (Handshake.invalidStatus response).result)) status := by
  rintro ⟨error, herror, -⟩
  cases herror

/-- A stream ends as its first handshake does, or follows a 401 up with a mint: it then fails as the
mint does, or ends as its second handshake does. -/
theorem attach_cases (json : List UInt8 → Option Json)
    (success : Operation → HttpResponse → Outcome Exception) (after : ℤ) (policy : RetryPolicy)
    (held : Option String) (first : Handshake) (source : Option (ℕ → Answer))
    (minted : Except Exception String) (since : Option String) (second : Handshake) :
    let call := attach json success after policy held first source minted since second
    ((∀ reply, Event.minted reply ∉ call.log) ∧
      (call.result = .outcome (.error (.other "ValueError")) ∨
        call.result = .outcome (.error .noToken) ∨ call.result = .outcome first.result) ∧
      (0 ≤ after → held.isSome → ∀ response, first = .invalidStatus response →
        response.status = 401 → source = none)) ∨
    ∃ mint, source = some mint ∧
      ((∃ exception, remintToken json success policy minted mint = .error exception ∧
        (∀ reply, Event.minted reply ∈ call.log ↔ reply = .error exception) ∧
        call.result = .mintFailed exception) ∨
      ∃ token, (∀ reply, Event.minted reply ∈ call.log ↔ reply = .ok (some token)) ∧
        call.result = .outcome second.result) := by
  intro call
  by_cases hafter : after < 0
  · have hcall : call = ⟨[], .outcome (.error (.other "ValueError"))⟩ := if_pos hafter
    rw [hcall]
    exact .inl ⟨fun _ => List.not_mem_nil, .inl rfl, fun h => absurd hafter (Int.not_lt.mpr h)⟩
  · have hcall : call = connect json success policy held first source minted since second :=
      if_neg hafter
    rw [hcall]
    cases held with
    | none => exact .inl ⟨fun _ => List.not_mem_nil, .inr (.inl rfl), fun _ h => by cases h⟩
    | some held =>
        unfold connect
        dsimp only
        split
        · next response reply hreply =>
            obtain ⟨mint, rfl, rfl⟩ := Option.map_eq_some_iff.mp hreply
            split_ifs with hstatus
            · refine .inl ⟨by simp, .inr (.inr rfl), fun _ _ response' h h401 => ?_⟩
              obtain rfl := Handshake.invalidStatus.inj h
              exact absurd h401 hstatus
            · refine .inr ⟨mint, rfl, ?_⟩
              split
              · next exception hfails => exact .inl ⟨exception, hfails, by simp, rfl⟩
              · next hnone => exact absurd hnone (remintToken_ne_none policy)
              · next token _ => exact .inr ⟨token, by simp, rfl⟩
        · next hother =>
            refine .inl ⟨by simp, .inr (.inr rfl), fun _ _ response h _ => ?_⟩
            cases source with
            | none => rfl
            | some mint => exact absurd rfl (hother response _ h)

/-- No handshake that is refused raises its status. -/
theorem not_raises_first (hfirst : first = .invalidStatus response)
    (hnone : ∀ reply, Event.minted reply ∉
      (attach json success after policy held first source minted since second).log) :
    ¬ Raises (attached (attach json success after policy held first source minted since
      second).result) response.status := by
  obtain ⟨-, hresult, -⟩ | ⟨_, -, ⟨exception, -, hlog, -⟩ | ⟨token, hlog, -⟩⟩ :=
    attach_cases json success after policy held first source minted since second
  · rcases hresult with hresult | hresult | hresult
    · rintro ⟨error, herror, -⟩
      rw [hresult] at herror
      cases herror
    · rintro ⟨error, herror, -⟩
      rw [hresult] at herror
      cases herror
    · rw [hresult, hfirst]
      exact not_raises_invalidStatus response _
  · exact absurd ((hlog _).mpr rfl) (hnone _)
  · exact absurd ((hlog _).mpr rfl) (hnone _)

theorem not_raises_second {token : String}
    (hminted : Event.minted (.ok (some token)) ∈
      (attach json success after policy held first source minted since second).log)
    (hsecond : second = .invalidStatus response) :
    ¬ Raises (attached (attach json success after policy held first source minted since
      second).result) response.status := by
  obtain ⟨hlog, -⟩ | ⟨_, -, ⟨exception, -, hlog, -⟩ | ⟨token', -, hresult⟩⟩ :=
    attach_cases json success after policy held first source minted since second
  · exact absurd hminted (hlog _)
  · cases (hlog _).mp hminted
  · rw [hresult, hsecond]
    exact not_raises_invalidStatus response _

/-- Whatever comes with it, a 401 to the first handshake is followed up. -/
theorem minted_of_unauthorized (hafter : 0 ≤ after) (harmed : held.isSome)
    (hfirst : first = .invalidStatus response) (hstatus : response.status = 401)
    (hsource : source.isSome) :
    ∃ reply, Event.minted reply ∈
      (attach json success after policy held first source minted since second).log := by
  obtain ⟨-, -, hnone⟩ | ⟨_, -, ⟨exception, -, hlog, -⟩ | ⟨token, hlog, -⟩⟩ :=
    attach_cases json success after policy held first source minted since second
  · rw [hnone hafter harmed response hfirst hstatus] at hsource
    cases hsource
  · exact ⟨_, (hlog _).mpr rfl⟩
  · exact ⟨_, (hlog _).mpr rfl⟩

theorem raises_attach_mint_iff {exception : Exception}
    (hminted : Event.minted (.error exception) ∈
      (attach json success after policy held first (some mint) minted since second).log)
    (hanswer : mint 0 = .response response) (hstatus : 400 ≤ response.status) :
    Raises (attached (attach json success after policy held first (some mint) minted since
      second).result) response.status ↔ Decoded json .mintSandboxToken response := by
  obtain ⟨hlog, -⟩ | ⟨_, hsource, ⟨exception', hfails, hlog, hresult⟩ | ⟨token, hlog, -⟩⟩ :=
    attach_cases json success after policy held first (some mint) minted since second
  · exact absurd hminted (hlog _)
  · obtain rfl := Option.some.inj hsource
    rw [hresult]
    exact raises_remint_iff hfails hanswer hstatus
  · cases (hlog _).mp hminted

end

/-! ## When the mapping is total -/

/-- A failed response is mapped to its status exactly when it answers a request of the core, the
core gets a response out of it, and the loop is not left for want of a delay: for a control-plane
call, and for a data-plane call that ends with its first execution, with a mint or with its second
execution. Under the same condition, and no other, a 401 leads to a mint. A stream that ends with a
handshake raises no status, whatever the response; one that ends with a mint is mapped as the others
are, and a 401 to its first handshake always leads to a mint. -/
theorem call_raises_iff (json : List UInt8 → Option Json)
    (success : Operation → HttpResponse → Outcome Exception) :
    (∀ operation policy idempotent answer n response,
      IsFinal policy idempotent (fun k => attempt json success operation (answer k)) n →
      answer n = .response response → 400 ≤ response.status →
        (Raises (controlCall json success operation policy idempotent answer) response.status ↔
          Decoded json operation response ∧ DelayAvailable policy idempotent
            (fun k => attempt json success operation (answer k)) n)) ∧
    (∀ setup held cache first source minted since cache' second,
      let call := invoke json success setup held cache first source minted since cache' second
      let first' := attempts json success setup held first
      (∀ n response, IsFinal setup.policy setup.idempotent first' n → (held n).isSome →
        first n = .response response → 400 ≤ response.status →
          ((∀ reply, Event.minted reply ∉ call.log) →
            (Raises (mapped call.result) response.status ↔
              Decoded json setup.operation response ∧
                DelayAvailable setup.policy setup.idempotent first' n)) ∧
          (response.status = 401 → source.isSome →
            ((∃ reply, Event.minted reply ∈ call.log) ↔
              Decoded json setup.operation response ∧
                DelayAvailable setup.policy setup.idempotent first' n))) ∧
      (∀ exception mint response, Event.minted (.error exception) ∈ call.log →
        source = some mint → mint 0 = .response response → 400 ≤ response.status →
          (Raises (mapped call.result) response.status ↔
            Decoded json .mintSandboxToken response)) ∧
      ∀ token n response, Event.minted (.ok (some token)) ∈ call.log →
        let second' := attempts json success setup (fun k => some ((since k).getD token)) second
        IsFinal setup.policy setup.idempotent second' n → second n = .response response →
        400 ≤ response.status →
          (Raises (mapped call.result) response.status ↔
            Decoded json setup.operation response ∧
              DelayAvailable setup.policy setup.idempotent second' n)) ∧
    ∀ after policy held first source minted since second,
      let call := attach json success after policy held first source minted since second
      (∀ response, first = .invalidStatus response → 0 ≤ after → held.isSome →
        400 ≤ response.status →
          ((∀ reply, Event.minted reply ∉ call.log) →
            ¬ Raises (attached call.result) response.status) ∧
          (response.status = 401 → source.isSome → ∃ reply, Event.minted reply ∈ call.log)) ∧
      (∀ exception mint response, Event.minted (.error exception) ∈ call.log →
        source = some mint → mint 0 = .response response → 400 ≤ response.status →
          (Raises (attached call.result) response.status ↔
            Decoded json .mintSandboxToken response)) ∧
      ∀ token response, Event.minted (.ok (some token)) ∈ call.log →
        second = .invalidStatus response → 400 ≤ response.status →
          ¬ Raises (attached call.result) response.status := by
  refine ⟨?_, ?_, ?_⟩
  · intro operation policy idempotent answer n response hfinal hanswer hstatus
    exact raises_finish_iff hfinal (congrArg _ hanswer) hstatus
  · intro setup held cache first source minted since cache' second call first'
    refine ⟨?_, ?_, ?_⟩
    · intro n response hfinal harmed hanswer hstatus
      refine ⟨raises_first_iff hfinal harmed hanswer hstatus, fun h401 hsource => ?_⟩
      obtain ⟨mint, rfl⟩ := Option.isSome_iff_exists.mp hsource
      exact minted_iff hfinal harmed hanswer h401
    · rintro exception mint response hminted rfl hanswer hstatus
      exact raises_mint_iff hminted hanswer hstatus
    · intro token n response hminted second' hfinal hanswer hstatus
      exact raises_second_iff hminted hfinal hanswer hstatus
  · intro after policy held first source minted since second call
    refine ⟨?_, ?_, ?_⟩
    · intro response hfirst hafter harmed _
      exact ⟨not_raises_first hfirst, minted_of_unauthorized hafter harmed hfirst⟩
    · rintro exception mint response hminted rfl hanswer hstatus
      exact raises_attach_mint_iff hminted hanswer hstatus
    · intro token response hminted hsecond _
      exact not_raises_second hminted hsecond

/-- A proxy answers a read with a 520 of its own, and a command with a 401 and a page: the first is
surfaced as a `ValueError`, and the second leads to no mint. The API itself refuses a stream with a
404, which is surfaced as an `InvalidStatus`. -/
theorem not_raises_proxyAnswers :
    let json : List UInt8 → Option Json := fun _ => none
    let success : Operation → HttpResponse → Outcome Exception := fun _ response =>
      .response ⟨response.status, none⟩
    let page := "<html>".toUTF8.toList
    let document := "\x7b\"code\":\"not_found\",\"message\":\"gone\"\x7d".toUTF8.toList
    IsFinal (.default 2) true
        (fun _ => attempt json success .getSandbox (.response ⟨520, page⟩)) 0 ∧
      ¬ Raises (controlCall json success .getSandbox (.default 2) true
        (fun _ => .response ⟨520, page⟩)) 520 ∧
      (∀ reply, Event.minted reply ∉ (invoke json success ⟨.runCommand, .default 2, false, [], []⟩
        (fun _ => some "token") (fun _ => ⟨none, none, nofun⟩) (fun _ => .response ⟨401, page⟩)
        (some fun _ => .response ⟨201, []⟩) (.ok "fresh") (fun _ => none)
        (fun _ => ⟨none, none, nofun⟩) (fun _ => .response ⟨200, []⟩)).log) ∧
      ¬ Raises (attached (attach json success 0 (.default 2) (some "token")
        (.invalidStatus ⟨404, document⟩) (some fun _ => .response ⟨201, []⟩) (.ok "fresh") none
        (.connected (some "fissionplane.v1"))).result) 404 := by
  intro json success page document
  have hproxy : IsFinal (.default 2) true
      (fun _ => attempt json success .getSandbox (.response ⟨520, page⟩)) 0 := by
    rw [IsFinal, retrying]
    rfl
  refine ⟨hproxy, ?_, fun reply hreply => ?_, not_raises_invalidStatus ⟨404, document⟩ 404⟩
  · rw [controlCall, raises_finish_iff hproxy rfl (by decide)]
    rintro ⟨⟨hstatus, -⟩, -⟩
    cases hstatus
  · have hfinal : IsFinal (.default 2) false (attempts json success
        ⟨.runCommand, .default 2, false, [], []⟩ (fun _ => some "token")
        (fun _ => .response ⟨401, page⟩)) 0 := by
      rw [IsFinal, retrying_not_idempotent]
    obtain ⟨⟨-, hbody⟩, -⟩ := (minted_iff hfinal rfl rfl rfl).mp ⟨reply, hreply⟩
    obtain ⟨src, hsrc, -⟩ := hbody rfl
    cases hsrc

/-- The contract's documents: a 404 is mapped, and a 401 leads to a mint, on a stream as well; there
it is the mint that raises. -/
theorem call_raises_documents :
    let json : List UInt8 → Option Json := fun _ =>
      some (.object [(Json.units "code", .string (Json.units "not_found")),
        (Json.units "message", .string (Json.units "no such resource"))])
    let success : Operation → HttpResponse → Outcome Exception := fun _ response =>
      .response ⟨response.status, none⟩
    Raises (controlCall json success .getSandbox (.default 2) true
        (fun _ => .response ⟨404, []⟩)) 404 ∧
      (∃ reply, Event.minted reply ∈ (invoke json success ⟨.runCommand, .default 2, false, [], []⟩
        (fun _ => some "token") (fun _ => ⟨none, none, nofun⟩) (fun _ => .response ⟨401, []⟩)
        (some fun _ => .response ⟨201, []⟩) (.ok "fresh") (fun _ => none)
        (fun _ => ⟨none, none, nofun⟩) (fun _ => .response ⟨200, []⟩)).log) ∧
      let stream := attach json success 0 (.default 2) (some "token") (.invalidStatus ⟨401, []⟩)
        (some fun _ => .response ⟨403, []⟩) (.ok "fresh") none (.failed "unreachable")
      (∃ reply, Event.minted reply ∈ stream.log) ∧ Raises (attached stream.result) 403 := by
  intro json success
  obtain ⟨hcontrol, hdata, hstream⟩ := call_raises_iff json success
  refine ⟨?_, ?_, ?_⟩
  · have hfinal : IsFinal (.default 2) true
        (fun _ => attempt json success .getSandbox (.response ⟨404, []⟩)) 0 := by
      rw [IsFinal, retrying]
      rfl
    refine (hcontrol .getSandbox (.default 2) true _ 0 ⟨404, []⟩ hfinal rfl (by decide)).mpr
      ⟨⟨rfl, fun _ => ⟨_, rfl, by decide +kernel⟩⟩, .inr (.inl ?_)⟩
    decide +kernel
  · have hfinal : IsFinal (.default 2) false (attempts json success
        ⟨.runCommand, .default 2, false, [], []⟩ (fun _ => some "token")
        (fun _ => .response ⟨401, []⟩)) 0 := by
      rw [IsFinal, retrying_not_idempotent]
    exact (((hdata ⟨.runCommand, .default 2, false, [], []⟩ _ _ _ _ _ _ _ _).1 0 ⟨401, []⟩ hfinal
      rfl rfl (by decide)).2 rfl rfl).mpr
        ⟨⟨rfl, fun _ => ⟨_, rfl, by decide +kernel⟩⟩, .inl (by decide)⟩
  · intro stream
    obtain ⟨hfirst, hmint, -⟩ := hstream 0 (.default 2) (some "token") (.invalidStatus ⟨401, []⟩)
      (some fun _ => .response ⟨403, []⟩) (.ok "fresh") none (.failed "unreachable")
    refine ⟨(hfirst ⟨401, []⟩ rfl le_rfl rfl (by decide)).2 rfl rfl, ?_⟩
    have hfails : ∃ exception, remintToken json success (.default 2) (.ok "fresh")
        (fun _ => .response ⟨403, []⟩) = .error exception := by
      rw [remintToken, controlCall, retrying_not_idempotent]
      exact ⟨_, rfl⟩
    obtain ⟨exception, hfails⟩ := hfails
    have hlog : Event.minted (.error exception) ∈ stream.log := by
      simp only [stream, attach, connect, Option.map_some, hfails]
      simp
    exact (hmint exception _ ⟨403, []⟩ hlog rfl rfl (by decide)).mpr
      ⟨rfl, fun _ => ⟨_, rfl, by decide +kernel⟩⟩

end FissionPlane.Sdk.PythonErrors
