/-
# FissionPlane.Sdk.Kill -- how often one `kill` signals a process

A process may react to a signal each time it gets one, and an attempt that times out, fails on the
network or is answered with a server fault may have delivered its signal. `SignalsOnce` asks that no
request follow such an attempt.

The Rust and Python calls make one request and keep to it. The TypeScript call is marked idempotent,
and its loop replays a failure of that kind like any other: it keeps to the law exactly when no such
failure meets it while it has budget left.
-/
import FissionPlane.Sdk.DataPlane

namespace FissionPlane.Sdk.Kill

open FissionPlane.Sdk.DataPlane
open FissionPlane.Lib.Attempts (IsLast)
open FissionPlane.Sdk.RustHttp (HeaderMap)

variable {ρ σ μ : Type*}

/-- The requests made on behalf of a call. -/
def requests (call : Call ρ σ μ) : List ρ :=
  call.log.flatMap fun
    | .executed sent _ => sent
    | .minted _ => []

/-- No request follows an attempt whose outcome on the agent is unknown. -/
def SignalsOnce {ω : Type*} (unknown : ω → Bool) (outcome : ℕ → ω) (requests : ℕ) : Prop :=
  ∀ k, unknown (outcome k) = true → requests ≤ k + 1

theorem signalsOnce_of_le_one {ω : Type*} {unknown : ω → Bool} {outcome : ℕ → ω} {requests : ℕ}
    (h : requests ≤ 1) : SignalsOnce unknown outcome requests := by
  intro k _
  omega

def isServerFault (status : ℕ) : Bool := decide (500 ≤ status) && decide (status ≤ 599)

/-! ## TypeScript -/

namespace TypeScript

open DataPlane.TypeScript (Answer Setup execution_eq isAuthenticationError_settle)
open RequestPipeline (CallSpec Outcome Thrown again)

variable {α ν : Type*}

/-- The spec `Commands.kill` passes to the retry loop. -/
def killSpec : CallSpec := ⟨"DELETE /processes/\x7bpid\x7d", true⟩

/-- `Commands.kill` -/
def kill (setup : Setup) (current : Option String) (cache : ClientCache) (first : ℕ → Answer α ν)
    (mint : Option (Except (Thrown ν) String)) (since : Option String) (cache' : ClientCache)
    (second : ℕ → Answer α ν) : Option (Call HeaderMap (Outcome α ν) (Thrown ν)) :=
  DataPlane.TypeScript.call { setup with spec := killSpec, transport := .client } current cache
    first mint since cache' second

/-- A timeout, a network failure, a 5xx. -/
def unknown : Answer α ν → Bool
  | .failure response => isServerFault response.status
  | .timedOut _ _ => true
  | .networkFailure _ => true
  | .success _ => false
  | .threw _ => false

/-- Among the attempts the budget can follow up, a failure that is unknown and worth repeating comes
only after an answer that ends the call. -/
def NoUnknownReplayed (maxRetries : ℕ) (answer : ℕ → Answer α ν) : Prop :=
  ∀ k < maxRetries, unknown (answer k) = true → again killSpec (answer k).settle = true →
    ∃ j < k, again killSpec (answer j).settle = false

section

variable {setup : Setup} {current since : Option String} {cache cache' : ClientCache}
  {first second : ℕ → Answer α ν} {mint : Option (Except (Thrown ν) String)}
  {result : Call HeaderMap (Outcome α ν) (Thrown ν)}

/-- Without a 401 an attempt does not end in an `AuthenticationError`. -/
theorem not_isAuthenticationError {answer : Answer α ν} {error : Thrown ν}
    (hno : ∀ response, answer = .failure response → response.status ≠ 401)
    (h : answer.settle = .error error) :
    DataPlane.TypeScript.isAuthenticationError error = false := by
  rw [isAuthenticationError_settle h, ← h]
  cases answer with
  | failure response =>
      have hstatus := hno response rfl
      simpa [Answer.settle, DataPlane.TypeScript.unauthorized,
        RequestPipeline.FissionPlaneError.ofResponse, Retry.TypeScript.errorFromResponse]
        using hstatus
  | success value => rfl
  | timedOut url timeoutMs => rfl
  | networkFailure message => rfl
  | threw value => rfl

/-- On an armed handle, without a 401, a kill is one execution. -/
theorem requests_kill {token : String}
    (hno : ∀ k response, first k = .failure response → response.status ≠ 401)
    (h : kill setup (some token) cache first mint since cache' second = some result) :
    ∃ n, IsLast (again killSpec) (fun k => (first k).settle) setup.maxRetries n ∧
      (requests result).length = n + 1 := by
  obtain ⟨n, hlast, hfirst⟩ :=
    execution_eq { setup with spec := killSpec, transport := .client } cache token first
  refine ⟨n, hlast, ?_⟩
  unfold kill DataPlane.TypeScript.call at h
  simp only [hfirst, Option.bind_some] at h
  split at h
  · next error reply hresult =>
      rw [not_isAuthenticationError (hno n) hresult] at h
      obtain rfl := Option.some.inj h
      simp [requests]
  · obtain rfl := Option.some.inj h
    simp [requests]

/-- The TypeScript kill keeps to the law exactly when its handle is not armed, or no unknown failure
meets it that it repeats. -/
theorem signalsOnce_iff (hno : ∀ k response, first k = .failure response → response.status ≠ 401)
    (h : kill setup current cache first mint since cache' second = some result) :
    SignalsOnce unknown first (requests result).length ↔
      current = none ∨ NoUnknownReplayed setup.maxRetries first := by
  cases current with
  | none =>
      obtain rfl := Option.some.inj h
      exact iff_of_true (signalsOnce_of_le_one (Nat.zero_le 1)) (.inl rfl)
  | some token =>
      obtain ⟨n, hlast, hcount⟩ := requests_kill hno h
      have hle := hlast.le_iff (p := fun k => unknown (first k) = true)
      simp only [SignalsOnce, hcount, Nat.add_le_add_iff_right, reduceCtorEq, false_or]
      exact hle

end

end TypeScript

/-! ## Rust -/

namespace Rust

open DataPlane.Rust (isUnauthorized)
open RustHttp (Reqwest Limits Request Response Error Outcome Failure budget classify
  execute_isLast isIdempotent surface)

variable {β : Type*}

inductive Signal where
  | term
  | kill
  | int
  | hup
  deriving DecidableEq

/-- `Signal::as_str` -/
def Signal.asStr : Signal → String
  | .term => "SIGTERM"
  | .kill => "SIGKILL"
  | .int => "SIGINT"
  | .hup => "SIGHUP"

/-- The request `Commands::kill` builds on the agent's base URL, with the transport's headers. -/
def killRequest (base userAgent : String) (pid : UInt32) (signal : Option Signal) : Request β where
  method := "DELETE"
  url :=
    let url := base ++ "/processes/" ++ toString pid
    match signal with
    | none => url
    | some signal => url ++ "?signal=" ++ signal.asStr
  headers := [("user-agent", userAgent)]
  body := none

/-- `Commands::kill` -/
def kill (c : Reqwest β) (limits : Limits) (isHeaderValue : String → Bool)
    (base userAgent : String) (pid : UInt32) (signal : Option Signal) (current : String)
    (first : ℕ → Outcome) (refresh : Except Error String) (second : ℕ → Outcome) :
    Call (Request β) (Except Error Response) Error :=
  DataPlane.Rust.call c limits isHeaderValue (.ok (killRequest base userAgent pid signal)) current
    first refresh second

/-- A transport failure, a 5xx. -/
def unknown : Outcome → Bool
  | .response response => isServerFault response.status
  | .failed _ => true

section

variable {c : Reqwest β} {limits : Limits} {isHeaderValue : String → Bool}
  {base userAgent current : String} {pid : UInt32} {signal : Option Signal}
  {first second : ℕ → Outcome} {refresh : Except Error String}

/-- Neither the method nor a header makes the request one to replay. -/
theorem isIdempotent_killRequest (base userAgent token : String) (pid : UInt32)
    (signal : Option Signal) :
    isIdempotent ({ killRequest base userAgent pid signal with
      headers := appendHeader [("user-agent", userAgent)] tokenHeader token } : Request β) =
        false := by
  have htoken : tokenHeader.toLower = "x-sandbox-token" := by decide +kernel
  have hkey : "Idempotency-Key".toLower = "idempotency-key" := by decide +kernel
  simp [isIdempotent, killRequest, appendHeader, RustHttp.HeaderMap.containsKey, htoken, hkey]

/-- Without a 401 a sending does not surface as one. -/
theorem not_isUnauthorized {outcome : Outcome} {rejected : Error}
    (hno : ∀ response, outcome = .response response → response.status ≠ 401)
    (h : surface c outcome = .error rejected) : isUnauthorized rejected = false := by
  unfold surface classify at h
  cases outcome with
  | failed source =>
      obtain rfl := Except.error.inj h
      rfl
  | response response =>
      have hstatus := hno response rfl
      simp only at h
      split at h
      · cases h
      · obtain rfl : rejected = (Failure.fromResponse c response).error :=
          (Except.error.inj h).symm
        obtain ⟨error, herror, heq⟩ := Failure.error_fromResponse c response
        rw [herror]
        simpa [isUnauthorized, heq] using hstatus

/-- Without a 401 the Rust kill makes one request at most. -/
theorem requests_kill_le
    (hno : ∀ k response, first k = .response response → response.status ≠ 401) :
    (requests (kill c limits isHeaderValue base userAgent pid signal current first refresh
      second)).length ≤ 1 := by
  unfold kill DataPlane.Rust.call
  simp only
  split
  · simp [requests]
  · next authed hauthed =>
      unfold DataPlane.Rust.authorized at hauthed
      split at hauthed
      · obtain rfl : authed = .ok
            { killRequest base userAgent pid signal with
              headers := appendHeader [("user-agent", userAgent)] tokenHeader current } :=
          (Except.ok.inj hauthed).symm
        obtain ⟨n, hlast, hsent, hresult⟩ := execute_isLast c limits first
          { killRequest base userAgent pid signal with
            headers := appendHeader [("user-agent", userAgent)] tokenHeader current }
        have hbudget : n = 0 := by
          have hle := hlast.le
          simp only [budget, isIdempotent_killRequest] at hle
          simpa using hle
        subst hbudget
        split
        · next rejected replay hrejected _ =>
            rw [not_isUnauthorized (hno 0) (hresult.symm.trans hrejected)]
            simp [requests, hsent]
        · simp [requests, hsent]
      · cases hauthed

end

end Rust

/-! ## Python -/

namespace Python

open DataPlane.Python (Setup armed execution)
open PythonCaller (Outcome Raised retrying_not_idempotent)
open Retry.Python (ApiResponse)

variable {ε : Type*}

/-- `kill` passes no `idempotent` to `_invoke`. -/
def kill (setup : Setup ε) (held : ℕ → Option String) (cache : ℕ → ClientCache)
    (first : ℕ → Outcome ε) (refresh : Option (Except ε (Option String)))
    (since : ℕ → Option String) (cache' : ℕ → ClientCache) (second : ℕ → Outcome ε) :
    Call HeaderMap (Except (Raised ε) ApiResponse) ε :=
  DataPlane.Python.call { setup with idempotent := false } held cache first refresh since cache'
    second

/-- A transport failure, a 5xx. An exception of another kind may hide a response, so it counts. -/
def unknown : Outcome ε → Bool
  | .response response => isServerFault response.statusCode
  | .transportError _ => true
  | .exception _ => true

section

variable {setup : Setup ε} {held since : ℕ → Option String} {cache cache' : ℕ → ClientCache}
  {first second : ℕ → Outcome ε} {refresh : Option (Except ε (Option String))}

/-- Without a 401 the Python kill makes one request at most. -/
theorem requests_kill_le
    (hno : ∀ k response, first k = .response response → response.statusCode ≠ 401) :
    (requests (kill setup held cache first refresh since cache' second)).length ≤ 1 := by
  have hexecution :
      (execution { setup with idempotent := false } cache held first).1.length ≤ 1 := by
    simp only [execution, retrying_not_idempotent]
    exact List.length_filterMap_le _ _
  unfold kill DataPlane.Python.call
  simp only
  split
  · next response reply hresult =>
      split
      · simpa [requests] using hexecution
      · next hstatus =>
          -- a 401 would be the answer of the only attempt
          exfalso
          have hfirst : first 0 = .response response := by
            simp only [execution, retrying_not_idempotent, armed] at hresult
            split at hresult
            · cases hresult
            · cases hzero : first 0 with
              | response response' =>
                  rw [hzero] at hresult
                  exact congrArg _ (Except.ok.inj hresult)
              | transportError name => simp [hzero, PythonCaller.surface] at hresult
              | exception error => simp [hzero, PythonCaller.surface] at hresult
          exact hno 0 response hfirst (not_not.mp hstatus)
  · simpa [requests] using hexecution

end

end Python

/-! ## The law, of all three -/

section

variable {α ν β ε : Type*} {current since : Option String}
  {first second : ℕ → DataPlane.TypeScript.Answer α ν}
  {result : Call HeaderMap (RequestPipeline.Outcome α ν) (RequestPipeline.Thrown ν)}

/-- Without a 401 the three kill calls keep to the law exactly when the TypeScript one does: when
its handle is not armed, or when no timeout, network failure or 5xx worth repeating meets it with
budget left. -/
theorem kill_signalsOnce_iff (setup : DataPlane.TypeScript.Setup) (cache cache' : ClientCache)
    (mint : Option (Except (RequestPipeline.Thrown ν) String))
    (hkill : TypeScript.kill setup current cache first mint since cache' second = some result)
    (hno : ∀ k response, first k = .failure response → response.status ≠ 401)
    (c : RustHttp.Reqwest β) (limits : RustHttp.Limits) (isHeaderValue : String → Bool)
    (base userAgent : String) (pid : UInt32) (signal : Option Rust.Signal) (token : String)
    (rust rust' : ℕ → RustHttp.Outcome) (refresh : Except RustHttp.Error String)
    (hrust : ∀ k response, rust k = .response response → response.status ≠ 401)
    (pythonSetup : DataPlane.Python.Setup ε) (held since' : ℕ → Option String)
    (caches caches' : ℕ → ClientCache) (python python' : ℕ → PythonCaller.Outcome ε)
    (refresh' : Option (Except ε (Option String)))
    (hpython : ∀ k response, python k = .response response → response.statusCode ≠ 401) :
    (SignalsOnce TypeScript.unknown first (requests result).length ∧
      SignalsOnce Rust.unknown rust
        (requests (Rust.kill c limits isHeaderValue base userAgent pid signal token rust refresh
          rust')).length ∧
      SignalsOnce Python.unknown python
        (requests (Python.kill pythonSetup held caches python refresh' since' caches'
          python')).length) ↔
      current = none ∨ TypeScript.NoUnknownReplayed setup.maxRetries first := by
  rw [TypeScript.signalsOnce_iff hno hkill]
  refine and_iff_left ⟨?_, ?_⟩
  · exact signalsOnce_of_le_one (Rust.requests_kill_le hrust)
  · exact signalsOnce_of_le_one (Python.requests_kill_le hpython)

/-- A first attempt that times out at the agent, and a second that is answered: two signals. -/
theorem not_signalsOnce_timedOut :
    let answer : ℕ → DataPlane.TypeScript.Answer Unit Empty := fun k =>
      if k = 0 then .timedOut "https://49983-s.fissionplane.dev/processes/7" 60000 else .success ()
    ∃ result,
      TypeScript.kill ⟨"s", 2, TypeScript.killSpec, .client, [], []⟩ (some "token")
        ⟨none, none, nofun⟩ answer none none ⟨none, none, nofun⟩ answer = some result ∧
      ¬ SignalsOnce TypeScript.unknown answer (requests result).length := by
  intro answer
  have hlength : (TypeScript.kill ⟨"s", 2, TypeScript.killSpec, .client, [], []⟩ (some "token")
      ⟨none, none, nofun⟩ answer none none ⟨none, none, nofun⟩ answer).map
        (fun result => (requests result).length) = some 2 := by
    decide +kernel
  obtain ⟨result, hresult, htwo⟩ := Option.map_eq_some_iff.mp hlength
  refine ⟨result, hresult, fun h => ?_⟩
  have hone := h 0 rfl
  omega

/-- A rate limit and then a success: the replay follows an attempt that is known to have failed. -/
theorem kill_signalsOnce_rateLimited :
    let answer : ℕ → DataPlane.TypeScript.Answer Unit Empty := fun k =>
      if k = 0 then .failure ⟨429, "", none, none⟩ else .success ()
    let rust : ℕ → RustHttp.Outcome := fun _ => .failed ⟨false, true⟩
    let python : ℕ → PythonCaller.Outcome String := fun _ => .transportError "ReadTimeout"
    let c : RustHttp.Reqwest String := ⟨some, fun h => (Option.some.inj h).symm, fun _ => none,
      fun _ => "", fun _ => none⟩
    ∃ result,
      TypeScript.kill ⟨"s", 2, TypeScript.killSpec, .client, [], []⟩ (some "token")
        ⟨none, none, nofun⟩ answer none none ⟨none, none, nofun⟩ answer = some result ∧
      (requests result).length = 2 ∧
      SignalsOnce TypeScript.unknown answer (requests result).length ∧
      SignalsOnce Rust.unknown rust
        (requests (Rust.kill c ⟨2⟩ (fun _ => true) "https://49983-s.fissionplane.dev" "rust" 7
          (some .kill) "token" rust (.ok "fresh") rust)).length ∧
      SignalsOnce Python.unknown python
        (requests (Python.kill ⟨.default 2, true, [], [], "no token"⟩ (fun _ => some "token")
          (fun _ => ⟨none, none, nofun⟩) python none (fun _ => none)
          (fun _ => ⟨none, none, nofun⟩) python)).length := by
  intro answer rust python c
  have hlength : (TypeScript.kill ⟨"s", 2, TypeScript.killSpec, .client, [], []⟩ (some "token")
      ⟨none, none, nofun⟩ answer none none ⟨none, none, nofun⟩ answer).map
        (fun result => (requests result).length) = some 2 := by
    decide +kernel
  obtain ⟨result, hresult, htwo⟩ := Option.map_eq_some_iff.mp hlength
  refine ⟨result, hresult, htwo, (kill_signalsOnce_iff _ _ _ none hresult ?_ c ⟨2⟩ _ _ _ _ _ _
    rust rust _ ?_ _ _ (fun _ => none) _ _ python python none ?_).mpr (.inr ?_)⟩
  · rintro (_ | k) response h
    · obtain rfl : (⟨429, "", none, none⟩ : Retry.Response) = response :=
        DataPlane.TypeScript.Answer.failure.inj h
      decide
    · cases h
  · exact nofun
  · exact nofun
  · rintro (_ | k) _ hunknown
    · cases hunknown
    · cases hunknown

end

end FissionPlane.Sdk.Kill
