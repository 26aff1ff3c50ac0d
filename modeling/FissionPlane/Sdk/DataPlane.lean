/-
# FissionPlane.Sdk.DataPlane -- recovery of a data-plane call from a rejected token

A data-plane call runs the retry loop of its SDK once, with the token the handle holds. When that
execution ends in a 401 the SDK mints a token and runs the loop once more with it. `Recovers` is the
law of such a call; each SDK's call is a course of events that keeps to it.

The handle may be shared. What other calls do to it appears here as the tokens that this call finds:
the ones it reads before its mint are arbitrary, and after its mint another call may have installed
a token of its own, `since`.
-/
import FissionPlane.Lib.History
import FissionPlane.Sdk.PythonCaller
import FissionPlane.Sdk.RequestPipeline
import FissionPlane.Sdk.RustHttp

namespace FissionPlane.Sdk.DataPlane

open FissionPlane.Lib.History
open FissionPlane.Sdk.RustHttp (HeaderMap)

/-! ## Headers -/

/-- The header carrying a capability token on the data plane. -/
def tokenHeader : String := "X-Sandbox-Token"

def valuesOf (headers : HeaderMap) (name : String) : List String :=
  (headers.filter fun entry => entry.1 == name.toLower).map Prod.snd

/-- Add a value, and keep the ones that are there. -/
def appendHeader (headers : HeaderMap) (name value : String) : HeaderMap :=
  headers ++ [(name.toLower, value)]

/-- Replace what is there. -/
def setHeader (headers : HeaderMap) (name value : String) : HeaderMap :=
  (headers.filter fun entry => entry.1 != name.toLower) ++ [(name.toLower, value)]

/-- The tokens a request carries. -/
def tokensOf (headers : HeaderMap) : List String := valuesOf headers tokenHeader

theorem tokensOf_append {headers : HeaderMap} {token : String} (h : tokensOf headers = []) :
    tokensOf (appendHeader headers tokenHeader token) = [token] := by
  unfold tokensOf valuesOf at h ⊢
  rw [appendHeader, List.filter_append, List.map_append, h]
  simp

theorem tokensOf_set_token (headers : HeaderMap) (token : String) :
    tokensOf (setHeader headers tokenHeader token) = [token] := by
  unfold tokensOf valuesOf setHeader
  rw [List.filter_append, List.filter_filter]
  simp

/-- Setting another header leaves the token alone. -/
theorem tokensOf_set {headers : HeaderMap} {name value : String}
    (h : name.toLower ≠ tokenHeader.toLower) :
    tokensOf (setHeader headers name value) = tokensOf headers := by
  unfold tokensOf valuesOf setHeader
  rw [List.filter_append, List.filter_filter]
  have hkeep : (fun entry : String × String =>
      (entry.1 == tokenHeader.toLower) && (entry.1 != name.toLower)) =
      fun entry => entry.1 == tokenHeader.toLower := by
    funext entry
    by_cases he : entry.1 = tokenHeader.toLower
    · simp [he, Ne.symm h]
    · simp [he]
  rw [hkeep]
  simp [h]

/-- The headers of a request that carries a token, under the caller's own ones. -/
def requestHeaders (defaults : HeaderMap) (token : String) (extra : HeaderMap) : HeaderMap :=
  extra.foldl (fun headers entry => setHeader headers entry.1 entry.2)
    (setHeader defaults tokenHeader token)

/-- The caller does not override the token. -/
def KeepsToken (extra : HeaderMap) : Prop :=
  ∀ entry ∈ extra, entry.1.toLower ≠ tokenHeader.toLower

theorem tokensOf_requestHeaders {defaults extra : HeaderMap} {token : String}
    (h : KeepsToken extra) : tokensOf (requestHeaders defaults token extra) = [token] := by
  have hfold : ∀ headers : HeaderMap, tokensOf (extra.foldl (fun headers entry =>
      setHeader headers entry.1 entry.2) headers) = tokensOf headers := by
    induction extra with
    | nil => exact fun _ => rfl
    | cons entry extra ih =>
        intro headers
        rw [List.foldl_cons, ih fun entry' hentry => h entry' (List.mem_cons_of_mem _ hentry)]
        exact tokensOf_set (h entry List.mem_cons_self)
  rw [requestHeaders, hfold, tokensOf_set_token]

/-! ## Calls -/

/-- What happens on behalf of a call: a run of the retry loop with everything it sent and how it
ended, and a mint with its reply. -/
inductive Event (ρ σ μ : Type*) where
  | executed (sent : List ρ) (result : σ)
  | minted (reply : Except μ (Option String))

/-- What the caller gets: the end of an execution, the failure of the mint, or an error raised
before anything was sent. -/
inductive Surfaced (σ μ : Type*) where
  | outcome (result : σ)
  | mintFailed (error : μ)
  | refused (message : String)

structure Call (ρ σ μ : Type*) where
  log : List (Event ρ σ μ)
  result : Surfaced σ μ

variable {ρ σ μ : Type*}

def Event.isExecuted : Event ρ σ μ → Bool
  | .executed _ _ => true
  | .minted _ => false

def Event.isMinted : Event ρ σ μ → Bool
  | .executed _ _ => false
  | .minted _ => true

@[simp]
theorem isExecuted_executed (sent : List ρ) (result : σ) :
    (.executed sent result : Event ρ σ μ).isExecuted = true := rfl

@[simp]
theorem isExecuted_minted (reply : Except μ (Option String)) :
    (.minted reply : Event ρ σ μ).isExecuted = false := rfl

@[simp]
theorem isMinted_executed (sent : List ρ) (result : σ) :
    (.executed sent result : Event ρ σ μ).isMinted = false := rfl

@[simp]
theorem isMinted_minted (reply : Except μ (Option String)) :
    (.minted reply : Event ρ σ μ).isMinted = true := rfl

/-- The law of recovery. `held token k` is the token the handle holds when request `k` of the second
execution is made, if the mint has installed `token`. -/
structure Recovers (unauthorized : σ → Bool) (tokens : ρ → List String)
    (held : String → ℕ → String) (call : Call ρ σ μ) : Prop where
  executions : call.log.countP Event.isExecuted ≤ 2
  mints : call.log.countP Event.isMinted ≤ 1
  /-- A second execution follows a 401 and a mint, and carries that token and no other. -/
  second : Each (fun earlier e => ∀ sent result, e = .executed sent result →
    (∃ e' ∈ earlier, e'.isExecuted) → ∃ firstSent rejected token,
      earlier = [.executed firstSent rejected, .minted (.ok (some token))] ∧
        unauthorized rejected = true ∧
        ∀ (k : ℕ) request, sent[k]? = some request → tokens request = [held token k]) call.log
  /-- Any other outcome of the first execution is returned. -/
  unchanged : ∀ sent result later, call.log = .executed sent result :: later →
    unauthorized result = false → later = [] ∧ call.result = .outcome result
  /-- A failed mint is surfaced, and nothing is executed after it. -/
  failed : ∀ error, Event.minted (.error error) ∈ call.log →
    call.result = .mintFailed error ∧ call.log.countP Event.isExecuted ≤ 1

/-- The courses a call can take. -/
inductive Course (unauthorized : σ → Bool) (tokens : ρ → List String) (held : String → ℕ → String) :
    Call ρ σ μ → Prop where
  | refused (message : String) : Course unauthorized tokens held ⟨[], .refused message⟩
  | returned (sent : List ρ) (result : σ) :
      Course unauthorized tokens held ⟨[.executed sent result], .outcome result⟩
  | mintFailed (sent : List ρ) (rejected : σ) (error : μ) (h : unauthorized rejected = true) :
      Course unauthorized tokens held
        ⟨[.executed sent rejected, .minted (.error error)], .mintFailed error⟩
  | notReplayed (sent : List ρ) (rejected : σ) (reply : Option String) (result : Surfaced σ μ)
      (h : unauthorized rejected = true) :
      Course unauthorized tokens held
        ⟨[.executed sent rejected, .minted (.ok reply)], result⟩
  | replayed (sent : List ρ) (rejected : σ) (token : String) (sent' : List ρ) (result : σ)
      (h : unauthorized rejected = true)
      (htokens : ∀ (k : ℕ) request, sent'[k]? = some request → tokens request = [held token k]) :
      Course unauthorized tokens held
        ⟨[.executed sent rejected, .minted (.ok (some token)), .executed sent' result],
          .outcome result⟩

section

variable {unauthorized : σ → Bool} {tokens : ρ → List String} {held : String → ℕ → String}
  {call : Call ρ σ μ}

/-- Every course keeps to the law. -/
theorem Course.recovers (h : Course unauthorized tokens held call) :
    Recovers unauthorized tokens held call := by
  cases h with
  | refused message =>
      refine ⟨?_, ?_, each_nil, nofun, nofun⟩ <;> simp
  | returned sent result =>
      refine ⟨?_, ?_, each_nil.concat ?_, ?_, ?_⟩
      · simp
      · simp
      · rintro _ _ - ⟨e, he, -⟩
        cases he
      · intro sent' result' later hlog _
        obtain ⟨hevent, rfl⟩ := List.cons.inj hlog
        obtain ⟨rfl, rfl⟩ := Event.executed.inj hevent
        exact ⟨rfl, rfl⟩
      · intro error hmem
        simp at hmem
  | mintFailed sent rejected error h =>
      refine ⟨?_, ?_, (each_nil.concat ?_).concat ?_, ?_, ?_⟩
      · simp [List.countP_cons]
      · simp [List.countP_cons]
      · rintro _ _ - ⟨e, he, -⟩
        cases he
      · exact fun _ _ heq => by cases heq
      · intro sent' result' later hlog hother
        obtain ⟨rfl, rfl⟩ := Event.executed.inj (List.cons.inj hlog).1
        simp [h] at hother
      · intro error' hmem
        obtain rfl : error' = error := by simpa using hmem
        exact ⟨rfl, by simp [List.countP_cons]⟩
  | notReplayed sent rejected reply result h =>
      refine ⟨?_, ?_, (each_nil.concat ?_).concat ?_, ?_, ?_⟩
      · simp [List.countP_cons]
      · simp [List.countP_cons]
      · rintro _ _ - ⟨e, he, -⟩
        cases he
      · exact fun _ _ heq => by cases heq
      · intro sent' result' later hlog hother
        obtain ⟨rfl, rfl⟩ := Event.executed.inj (List.cons.inj hlog).1
        simp [h] at hother
      · intro error' hmem
        simp at hmem
  | replayed sent rejected token sent' result h htokens =>
      refine ⟨?_, ?_, ((each_nil.concat ?_).concat ?_).concat ?_, ?_, ?_⟩
      · simp [List.countP_cons]
      · simp [List.countP_cons]
      · rintro _ _ - ⟨e, he, -⟩
        cases he
      · exact fun _ _ heq => by cases heq
      · intro sent'' result' heq _
        obtain ⟨rfl, rfl⟩ := Event.executed.inj heq
        exact ⟨sent, rejected, token, rfl, h, htokens⟩
      · intro sent'' result' later hlog hother
        obtain ⟨rfl, rfl⟩ := Event.executed.inj (List.cons.inj hlog).1
        simp [h] at hother
      · intro error' hmem
        simp at hmem

end

/-! ## Rust -/

namespace Rust

open RustHttp (Reqwest Limits Request Response Error Outcome execute execute_isLast)

variable {β : Type*}

/-- A request under construction; an error in a step of it waits until it is sent. -/
abbrev RequestBuilder (β : Type*) := Except Error (Request β)

/-- `RequestBuilder::try_clone` -/
def tryClone (c : Reqwest β) : RequestBuilder β → Option (RequestBuilder β)
  | .ok request => (c.tryClone request).map .ok
  | .error _ => none

/-- `authorized`; `isHeaderValue` is what `HeaderValue::from_str` accepts. -/
def authorized (isHeaderValue : String → Bool) (request : RequestBuilder β) (token : String) :
    Except String (RequestBuilder β) :=
  if isHeaderValue token then
    .ok (request.map fun r => { r with headers := appendHeader r.headers tokenHeader token })
  else .error "token is not a header value: failed to parse header value"

def isUnauthorized : Error → Bool
  | .api error => error.status == 401
  | _ => false

def unauthorized : Except Error Response → Bool
  | .ok _ => false
  | .error error => isUnauthorized error

/-- `DataPlane::execute`: `current` is the token in the slot, `first` and `second` how the sendings
of the two executions end, and `refresh` what the mint returns. -/
def call (c : Reqwest β) (limits : Limits) (isHeaderValue : String → Bool)
    (request : RequestBuilder β) (current : String) (first : ℕ → Outcome)
    (refresh : Except Error String) (second : ℕ → Outcome) :
    Call (Request β) (Except Error Response) Error :=
  -- cloned before the token is attached, so that the replay carries the fresh one alone
  let replay := tryClone c request
  match authorized isHeaderValue request current with
  | .error message => ⟨[], .refused message⟩
  | .ok request =>
      let execution := execute c limits first request
      let executed := Event.executed execution.sent execution.result
      match execution.result, replay with
      | .error rejected, some replay =>
          if isUnauthorized rejected then
            match refresh with
            | .error error => ⟨[executed, .minted (.error error)], .mintFailed error⟩
            | .ok token =>
                let minted := Event.minted (.ok (some token))
                match authorized isHeaderValue replay token with
                | .error message => ⟨[executed, minted], .refused message⟩
                | .ok replay =>
                    let execution := execute c limits second replay
                    ⟨[executed, minted, .executed execution.sent execution.result],
                      .outcome execution.result⟩
          else ⟨[executed], .outcome (.error rejected)⟩
      | result, _ => ⟨[executed], .outcome result⟩

section

variable {c : Reqwest β} {limits : Limits} {isHeaderValue : String → Bool}
  {request replay : RequestBuilder β} {current token : String} {first second : ℕ → Outcome}
  {refresh : Except Error String}

theorem tryClone_eq_some (h : tryClone c request = some replay) :
    ∃ r, request = .ok r ∧ replay = .ok r := by
  cases request with
  | error error => cases h
  | ok r =>
      obtain ⟨clone, hclone, rfl⟩ := Option.map_eq_some_iff.mp h
      exact ⟨r, rfl, by rw [c.clone_eq hclone]⟩

/-- Everything an execution with the fresh token sends carries that token alone: the clone was made
before the rejected token was attached. -/
theorem tokensOf_replay {r : Request β} {authed : RequestBuilder β}
    (hno : tokensOf r.headers = [])
    (h : authorized isHeaderValue (.ok r) token = .ok authed) {k : ℕ} {sent : Request β}
    (hsent : (execute c limits second authed).sent[k]? = some sent) :
    tokensOf sent.headers = [token] := by
  unfold authorized at h
  split at h
  · obtain rfl := Except.ok.inj h
    obtain ⟨n, -, hall, -⟩ := execute_isLast c limits second
      { r with headers := appendHeader r.headers tokenHeader token }
    rw [Except.map, hall] at hsent
    obtain rfl := List.eq_of_mem_replicate (List.mem_of_getElem? hsent)
    exact tokensOf_append hno
  · cases h

/-- A call of the Rust SDK takes one of the courses; its mint's token is the one it sends. -/
theorem call_course (hno : ∀ r, request = .ok r → tokensOf r.headers = []) :
    Course unauthorized (fun r => tokensOf r.headers) (fun token _ => token)
      (call c limits isHeaderValue request current first refresh second) := by
  unfold call
  simp only
  split
  · exact .refused _
  · next authed hauthed =>
      split
      · next rejected replay hresult hreplay =>
          rw [hresult]
          split
          · next hunauthorized =>
              obtain ⟨r, rfl, rfl⟩ := tryClone_eq_some hreplay
              split
              · exact .mintFailed _ _ _ hunauthorized
              · split
                · exact .notReplayed _ _ _ _ hunauthorized
                · next token _ authed' hauthed' =>
                    exact .replayed _ _ _ _ _ hunauthorized fun k sent hsent =>
                      tokensOf_replay (hno r rfl) hauthed' hsent
          · exact .returned _ _
      · exact .returned _ _

/-- A request whose body cannot be cloned is executed at most once. -/
theorem executions_of_not_cloneable (h : tryClone c request = none) :
    (call c limits isHeaderValue request current first refresh second).log.countP
      Event.isExecuted ≤ 1 := by
  unfold call
  simp only [h]
  split <;> simp

end

end Rust

/-! ## TypeScript -/

/-- The lazily built client of a data-plane module: the token its headers were built with, and the
token it was built for. -/
structure ClientCache where
  client : Option String
  clientToken : Option String
  built : ∀ token, client = some token → clientToken = some token

/-- The module's client for a token, by the token in its headers; rebuilt when the token changed. -/
def dataplane (cache : ClientCache) (token : String) : String :=
  match cache.client with
  | none => token
  | some built => if cache.clientToken = some token then built else token

/-- Whatever another call has left in the cache, the client carries the token asked for. -/
theorem dataplane_eq (cache : ClientCache) (token : String) : dataplane cache token = token := by
  unfold dataplane
  split
  · rfl
  · next built hclient =>
      split
      · next hsame => exact Option.some.inj ((cache.built built hclient).symm.trans hsame)
      · rfl

namespace TypeScript

open FissionPlane.Lib.Attempts (IsLast)
open RequestPipeline (CallSpec FissionPlaneError Outcome Thrown again send send_spec)
open Retry.TypeScript (errorFromResponse)

variable {α ν : Type*}

/-- How a data-plane call travels: through the generated client, or as a raw byte-stream request. -/
inductive Transport where
  | client
  | bytes
  deriving DecidableEq

/-- What one call depends on: its retry budget and spec, how it travels, and its headers. -/
structure Setup where
  sandboxId : String
  maxRetries : ℕ
  spec : CallSpec
  transport : Transport
  defaults : HeaderMap
  extra : HeaderMap

/-- What a request comes to: a response whose value was read, one that is not a success, its own
timeout, a network failure, or a value thrown on the way. -/
inductive Answer (α ν : Type*) where
  | success (value : α)
  | failure (response : Retry.Response)
  | timedOut (url : String) (timeoutMs : ℕ)
  | networkFailure (message : String)
  | threw (value : ν)

/-- What the fetch wrapper rejects with when the timeout elapses. -/
def requestTimeout (url : String) (timeoutMs : ℕ) : Thrown ν :=
  .fissionPlane
    { name := .fissionPlane
      message := Lib.Json.units
        ("request to " ++ url ++ " timed out after " ++ toString timeoutMs ++ "ms")
      status := none
      code := some (Lib.Json.units "request_timeout")
      retryable := true
      requestId := none }

/-- How the attempt ends: `unwrap` of a response, or the rejection of the fetch wrapper. -/
def Answer.settle : Answer α ν → Outcome α ν
  | .success value => .ok value
  | .failure response =>
      .error (.fissionPlane (.ofResponse (errorFromResponse response.status response.members)))
  | .timedOut url timeoutMs => .error (requestTimeout url timeoutMs)
  | .networkFailure message => .error (.typeError message)
  | .threw value => .error (.other value)

/-- `error instanceof AuthenticationError` -/
def isAuthenticationError : Thrown ν → Bool
  | .fissionPlane error => error.name == .authentication
  | _ => false

def unauthorized : Outcome α ν → Bool
  | .error (.fissionPlane error) => error.status == some 401
  | _ => false

/-- The retry loop on behalf of a token: what it sent, and how it settled. -/
def execution (setup : Setup) (cache : ClientCache) (token : String) (answer : ℕ → Answer α ν) :
    Option (List HeaderMap × Outcome α ν) :=
  let credential := match setup.transport with
    | .client => dataplane cache token
    | .bytes => token
  let s := send setup.maxRetries setup.spec fun k => (answer k).settle
  match s.phase with
  | .settled result =>
      let headers := requestHeaders setup.defaults credential setup.extra
      some (List.replicate s.attempts headers, result)
  | .attempting | .sleeping _ => none

/-- `withFreshToken` around an execution. `current` is the token of the handle, `first` and `second`
what the requests of the two executions come to, and `mint` what `sandbox.mintToken` does, if the
handle has it; `since` is a token another call installed after it. -/
def call (setup : Setup) (current : Option String) (cache : ClientCache)
    (first : ℕ → Answer α ν) (mint : Option (Except (Thrown ν) String)) (since : Option String)
    (cache' : ClientCache) (second : ℕ → Answer α ν) :
    Option (Call HeaderMap (Outcome α ν) (Thrown ν)) :=
  match current with
  | none =>
      some ⟨[], .refused ("sandbox " ++ setup.sandboxId ++ " has no capability token; " ++
        "obtain one via sandboxes.create, sandbox.resume, or sandbox.mintToken")⟩
  | some token =>
      (execution setup cache token first).bind fun (sent, result) =>
        let executed := Event.executed sent result
        match result, mint with
        | .error error, some reply =>
            if isAuthenticationError error then
              match reply with
              | .error error => some ⟨[executed, .minted (.error error)], .mintFailed error⟩
              | .ok token =>
                  (execution setup cache' (since.getD token) second).map fun (sent, result) =>
                    ⟨[executed, .minted (.ok (some token)), .executed sent result],
                      .outcome result⟩
            else some ⟨[executed], .outcome (.error error)⟩
        | result, _ => some ⟨[executed], .outcome result⟩

section

variable {setup : Setup} {current since : Option String} {cache cache' : ClientCache}
  {first second : ℕ → Answer α ν} {mint : Option (Except (Thrown ν) String)}

/-- An attempt ends in an `AuthenticationError` exactly when its request is answered with a 401. -/
theorem isAuthenticationError_settle {answer : Answer α ν} {error : Thrown ν}
    (h : answer.settle = .error error) :
    isAuthenticationError error = unauthorized (.error error : Outcome α ν) := by
  cases answer with
  | success value => cases h
  | failure response =>
      obtain rfl := Except.error.inj h
      unfold isAuthenticationError unauthorized FissionPlaneError.ofResponse errorFromResponse
      by_cases h401 : response.status = 401
      · simp [h401]
      · simp only [h401, if_false, Option.some_beq_some, beq_eq_false_iff_ne.mpr h401]
        -- none of the other statuses names the class
        split_ifs <;> rfl
  | timedOut url timeoutMs =>
      obtain rfl := Except.error.inj h
      rfl
  | networkFailure message =>
      obtain rfl := Except.error.inj h
      rfl
  | threw value =>
      obtain rfl := Except.error.inj h
      rfl

/-- An execution settles as the last attempt ends that its budget and the answers allow, and all it
sends carries its token. -/
theorem execution_eq (setup : Setup) (cache : ClientCache) (token : String)
    (answer : ℕ → Answer α ν) :
    ∃ n, IsLast (again setup.spec) (fun k => (answer k).settle) setup.maxRetries n ∧
      execution setup cache token answer =
        some (List.replicate (n + 1) (requestHeaders setup.defaults token setup.extra),
          (answer n).settle) := by
  obtain ⟨n, hlast, hphase, hattempts⟩ :=
    send_spec setup.maxRetries setup.spec fun k => (answer k).settle
  refine ⟨n, hlast, ?_⟩
  have hcredential : (match setup.transport with
      | .client => dataplane cache token
      | .bytes => token) = token := by
    cases setup.transport with
    | client => exact dataplane_eq cache token
    | bytes => rfl
  simp only [execution, hphase, hattempts, hcredential]

/-- A call of the TypeScript SDK settles, and takes one of the courses. -/
theorem call_course (hextra : KeepsToken setup.extra) :
    ∃ result, call setup current cache first mint since cache' second = some result ∧
      Course unauthorized tokensOf (fun token _ => since.getD token) result := by
  unfold call
  cases current with
  | none => exact ⟨_, rfl, .refused _⟩
  | some token =>
      obtain ⟨n, -, hfirst⟩ := execution_eq setup cache token first
      simp only [hfirst, Option.bind_some]
      split
      · next error reply hresult =>
          rw [hresult]
          split
          · next hauthentication =>
              have hunauthorized : unauthorized (.error error : Outcome α ν) = true := by
                rw [← isAuthenticationError_settle hresult]
                exact hauthentication
              split
              · exact ⟨_, rfl, .mintFailed _ _ _ hunauthorized⟩
              · next token' =>
                  obtain ⟨m, -, hsecond⟩ := execution_eq setup cache' (since.getD token') second
                  rw [hsecond]
                  refine ⟨_, rfl, .replayed _ _ _ _ _ hunauthorized ?_⟩
                  intro k request hrequest
                  obtain rfl := List.eq_of_mem_replicate (List.mem_of_getElem? hrequest)
                  exact tokensOf_requestHeaders hextra
          · exact ⟨_, rfl, .returned _ _⟩
      · exact ⟨_, rfl, .returned _ _⟩

end

end TypeScript

/-! ## Python -/

namespace Python

open PythonCaller (RetryPolicy Outcome Raised Execution retrying)
open Retry.Python (ApiResponse)

variable {ε : Type*}

/-- What one call depends on: its policy, its idempotency, its headers, and the error an unarmed
handle raises. -/
structure Setup (ε : Type*) where
  policy : RetryPolicy
  idempotent : Bool
  defaults : HeaderMap
  extra : HeaderMap
  noToken : ε

def unauthorized : Except (Raised ε) ApiResponse → Bool
  | .ok response => response.statusCode == 401
  | .error _ => false

/-- An operation on `_dataplane()`, by attempts: each asks for the client anew, with the token the
handle holds by then, and raises where it holds none. -/
def armed (noToken : ε) (held : ℕ → Option String) (outcome : ℕ → Outcome ε) (k : ℕ) : Outcome ε :=
  match held k with
  | none => .exception noToken
  | some _ => outcome k

/-- `_execute` of such an operation. -/
def execution (setup : Setup ε) (cache : ℕ → ClientCache) (held : ℕ → Option String)
    (outcome : ℕ → Outcome ε) : List HeaderMap × Except (Raised ε) ApiResponse :=
  let execution :=
    retrying setup.policy setup.idempotent (armed setup.noToken held outcome) 0
  ((List.range execution.attempts).filterMap fun k => (held k).map fun token =>
      requestHeaders setup.defaults (dataplane (cache k) token) setup.extra,
    execution.result)

/-- `_invoke`, blocking or not. `held` is the token the handle holds at each attempt of the first
execution, `refresh` what `_refresh_token` does, if there is one, and `since` the tokens other calls
have installed after it, by the attempts of the second. -/
def call (setup : Setup ε) (held : ℕ → Option String) (cache : ℕ → ClientCache)
    (first : ℕ → Outcome ε) (refresh : Option (Except ε (Option String)))
    (since : ℕ → Option String) (cache' : ℕ → ClientCache) (second : ℕ → Outcome ε) :
    Call HeaderMap (Except (Raised ε) ApiResponse) ε :=
  let (sent, result) := execution setup cache held first
  let executed := Event.executed sent result
  match result, refresh with
  | .ok response, some reply =>
      if response.statusCode ≠ 401 then ⟨[executed], .outcome (.ok response)⟩
      else
        match reply with
        | .error error => ⟨[executed, .minted (.error error)], .mintFailed error⟩
        | .ok none => ⟨[executed, .minted (.ok none)], .outcome (.ok response)⟩
        | .ok (some token) =>
            let (sent, result) :=
              execution setup cache' (fun k => some ((since k).getD token)) second
            ⟨[executed, .minted (.ok (some token)), .executed sent result], .outcome result⟩
  | result, _ => ⟨[executed], .outcome result⟩

section

variable {setup : Setup ε} {held since : ℕ → Option String} {cache cache' : ℕ → ClientCache}
  {first second : ℕ → Outcome ε} {refresh : Option (Except ε (Option String))}

/-- Each request of an execution on an armed handle carries the token the handle held by then. -/
theorem tokensOf_execution (hextra : KeepsToken setup.extra) (token : ℕ → String) {k : ℕ}
    {request : HeaderMap}
    (h : (execution setup cache (fun k => some (token k)) first).1[k]? = some request) :
    tokensOf request = [token k] := by
  simp only [execution, Option.map_some, List.filterMap_eq_map', dataplane_eq,
    List.getElem?_map] at h
  obtain ⟨i, hi, rfl⟩ := Option.map_eq_some_iff.mp h
  obtain ⟨_, hik⟩ := List.getElem?_eq_some_iff.mp hi
  obtain rfl : k = i := by simpa using hik
  exact tokensOf_requestHeaders hextra

/-- A call returns what its first execution ends with, or follows a 401 up with a mint, and that
with a second execution. -/
theorem call_cases (setup : Setup ε) (held : ℕ → Option String) (cache : ℕ → ClientCache)
    (first : ℕ → Outcome ε) (refresh : Option (Except ε (Option String)))
    (since : ℕ → Option String) (cache' : ℕ → ClientCache) (second : ℕ → Outcome ε) :
    let e := execution setup cache held first
    let call := call setup held cache first refresh since cache' second
    (call = ⟨[.executed e.1 e.2], .outcome e.2⟩ ∧ (unauthorized e.2 = true → refresh = none)) ∨
    unauthorized e.2 = true ∧
      ((∃ error, refresh = some (.error error) ∧
        call = ⟨[.executed e.1 e.2, .minted (.error error)], .mintFailed error⟩) ∨
      (refresh = some (.ok none) ∧
        call = ⟨[.executed e.1 e.2, .minted (.ok none)], .outcome e.2⟩) ∨
      ∃ token, refresh = some (.ok (some token)) ∧
        let e' := execution setup cache' (fun k => some ((since k).getD token)) second
        call = ⟨[.executed e.1 e.2, .minted (.ok (some token)), .executed e'.1 e'.2],
          .outcome e'.2⟩) := by
  unfold call
  simp only
  generalize execution setup cache held first = e
  obtain ⟨sent, result⟩ := e
  simp only
  split
  · next response reply =>
      split
      · next hother => exact .inl ⟨rfl, fun h => absurd (by simpa [unauthorized] using h) hother⟩
      · next hstatus =>
          refine .inr ⟨by simpa [unauthorized] using hstatus, ?_⟩
          split
          · next error => exact .inl ⟨error, rfl, rfl⟩
          · exact .inr (.inl ⟨rfl, rfl⟩)
          · next token => exact .inr (.inr ⟨token, rfl, rfl⟩)
  · next hother =>
      refine .inl ⟨rfl, fun h => ?_⟩
      cases result with
      | error error => cases h
      | ok response =>
          cases refresh with
          | none => rfl
          | some reply => exact absurd rfl (hother response reply rfl)

/-- A call of the Python SDK takes one of the courses. -/
theorem call_course (hextra : KeepsToken setup.extra) :
    Course unauthorized tokensOf (fun token k => (since k).getD token)
      (call setup held cache first refresh since cache' second) := by
  obtain ⟨hcall, -⟩ | ⟨hunauthorized, ⟨error, -, hcall⟩ | ⟨-, hcall⟩ | ⟨token, -, hcall⟩⟩ :=
    call_cases setup held cache first refresh since cache' second
  · rw [hcall]
    exact .returned _ _
  · rw [hcall]
    exact .mintFailed _ _ _ hunauthorized
  · rw [hcall]
    exact .notReplayed _ _ _ _ hunauthorized
  · rw [hcall]
    refine .replayed _ _ _ _ _ hunauthorized fun k request hrequest => ?_
    exact tokensOf_execution hextra (fun k => (since k).getD token) hrequest

end

end Python

/-! ## The law, of all three -/

/-- Every data-plane call of the three SDKs recovers lawfully from a rejected token, provided that
nobody but the SDK sets the token's header; and in Rust a request whose body cannot be cloned is
executed once at most. -/
theorem call_recovers {β α ν ε : Type*} :
    (∀ (c : RustHttp.Reqwest β) (limits : RustHttp.Limits) (isHeaderValue : String → Bool)
        (request : Rust.RequestBuilder β) (current : String) (first : ℕ → RustHttp.Outcome)
        (refresh : Except RustHttp.Error String) (second : ℕ → RustHttp.Outcome),
      (∀ r, request = .ok r → tokensOf r.headers = []) →
        Recovers Rust.unauthorized (fun r => tokensOf r.headers) (fun token _ => token)
          (Rust.call c limits isHeaderValue request current first refresh second) ∧
        (Rust.tryClone c request = none →
          (Rust.call c limits isHeaderValue request current first refresh second).log.countP
            Event.isExecuted ≤ 1)) ∧
    (∀ (setup : TypeScript.Setup) (current : Option String) (cache : ClientCache)
        (first : ℕ → TypeScript.Answer α ν)
        (mint : Option (Except (RequestPipeline.Thrown ν) String)) (since : Option String)
        (cache' : ClientCache) (second : ℕ → TypeScript.Answer α ν),
      KeepsToken setup.extra →
        ∃ result, TypeScript.call setup current cache first mint since cache' second =
            some result ∧
          Recovers TypeScript.unauthorized tokensOf (fun token _ => since.getD token) result) ∧
    (∀ (setup : Python.Setup ε) (held : ℕ → Option String) (cache : ℕ → ClientCache)
        (first : ℕ → PythonCaller.Outcome ε) (refresh : Option (Except ε (Option String)))
        (since : ℕ → Option String) (cache' : ℕ → ClientCache)
        (second : ℕ → PythonCaller.Outcome ε),
      KeepsToken setup.extra →
        Recovers Python.unauthorized tokensOf (fun token k => (since k).getD token)
          (Python.call setup held cache first refresh since cache' second)) := by
  refine ⟨?_, ?_, ?_⟩
  · intro c limits isHeaderValue request current first refresh second hrequest
    exact ⟨(Rust.call_course hrequest).recovers, Rust.executions_of_not_cloneable⟩
  · intro setup current cache first mint since cache' second hextra
    have hcourse : ∃ result,
        TypeScript.call setup current cache first mint since cache' second = some result ∧
          Course TypeScript.unauthorized tokensOf (fun token _ => since.getD token) result :=
      TypeScript.call_course hextra
    exact hcourse.imp fun result h => ⟨h.1, h.2.recovers⟩
  · intro setup held cache first refresh since cache' second hextra
    exact (Python.call_course hextra).recovers

/-- A stale token is rejected and the minted one accepted: each SDK keeps to the law, and the
TypeScript call sends one request with either token. -/
theorem call_recovers_rejected :
    let rejected : Retry.Response := ⟨401, "", none, none⟩
    let c : RustHttp.Reqwest String := ⟨some, fun h => (Option.some.inj h).symm, fun _ => none,
      fun _ => "", fun _ => none⟩
    let setup : TypeScript.Setup := ⟨"s", 2, ⟨"GET /processes", true⟩, .client, [], []⟩
    let typeScript : ℕ → TypeScript.Answer Unit Empty := fun _ => .failure rejected
    let python : ℕ → PythonCaller.Outcome String := fun _ => .response ⟨401, none⟩
    Recovers Rust.unauthorized (fun r => tokensOf r.headers) (fun token _ => token)
        (Rust.call c ⟨2⟩ (fun _ => true) (.ok ⟨"GET", "/processes", [], none⟩) "stale"
          (fun _ => .response ⟨401, none, none⟩) (.ok "fresh")
          (fun _ => .response ⟨200, none, none⟩)) ∧
      (∃ result, TypeScript.call setup (some "stale") ⟨none, none, nofun⟩ typeScript
          (some (.ok "fresh")) none ⟨none, none, nofun⟩ (fun _ => .success ()) = some result ∧
        Recovers TypeScript.unauthorized tokensOf (fun token _ => token) result ∧
        result.log.map (fun e =>
            match e with
            | .executed sent _ => sent.map tokensOf
            | .minted _ => []) = [[["stale"]], [], [["fresh"]]]) ∧
      Recovers Python.unauthorized tokensOf (fun token _ => token)
        (Python.call ⟨.default 2, true, [], [], "no token"⟩ (fun _ => some "stale")
          (fun _ => ⟨none, none, nofun⟩) python (some (.ok (some "fresh"))) (fun _ => none)
          (fun _ => ⟨none, none, nofun⟩) python) := by
  intro rejected c setup typeScript python
  obtain ⟨hrust, htypeScript, hpython⟩ := call_recovers (β := String) (α := Unit) (ν := Empty)
    (ε := String)
  refine ⟨(hrust _ _ _ _ _ _ _ _ ?_).1, ?_, ?_⟩
  · rintro r hr
    obtain rfl := Except.ok.inj hr
    rfl
  · obtain ⟨result, hresult, hrecovers⟩ := htypeScript setup (some "stale") ⟨none, none, nofun⟩
      typeScript (some (.ok "fresh")) none ⟨none, none, nofun⟩ (fun _ => .success ())
      (List.forall_mem_nil _)
    refine ⟨result, hresult, hrecovers, ?_⟩
    have hlog : (some result).map (fun call => call.log.map fun e =>
        match e with
        | .executed sent _ => sent.map tokensOf
        | .minted _ => []) = some [[["stale"]], [], [["fresh"]]] := by
      rw [← hresult]
      decide +kernel
    exact Option.some.inj hlog
  · exact hpython ⟨.default 2, true, [], [], "no token"⟩ _ _ python _ (fun _ => none) _ python
      (List.forall_mem_nil _)

end FissionPlane.Sdk.DataPlane
