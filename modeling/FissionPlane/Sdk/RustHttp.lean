/-
# FissionPlane.Sdk.RustHttp -- the Rust SDK's transport

`Http::execute` sends a request and replays it while the failure is worth repeating and the request
is safe to repeat. The request itself is moved into each sending, so the loop clones it beforehand,
and only while a replay is still within the budget; a body that cannot be cloned ends the loop.

`Reqwest` stands for the HTTP client and serde: cloning a request gives an equal one or nothing.
-/
import FissionPlane.Lib.Attempts
import FissionPlane.Sdk.Retry

namespace FissionPlane.Sdk.RustHttp

open FissionPlane.Lib FissionPlane.Lib.Attempts
open FissionPlane.Sdk.Retry.Rust (ApiError)

/-! ## Requests and outcomes -/

/-- Header names are stored in lower case, one entry for each value. -/
abbrev HeaderMap := List (String × String)

def HeaderMap.containsKey (headers : HeaderMap) (name : String) : Bool :=
  headers.any fun entry => entry.1 == name.toLower

structure Request (β : Type*) where
  method : String
  url : String
  headers : HeaderMap
  body : Option β
  deriving DecidableEq

/-- A response to read; `body` is `none` when reading it fails. -/
structure Response where
  status : Nat
  /-- The `x-request-id` header, when it is text. -/
  requestId : Option String
  body : Option (List UInt8)
  deriving DecidableEq

/-- `reqwest::Error`, by what the SDK asks of it. -/
structure TransportError where
  isConnect : Bool
  isTimeout : Bool
  deriving DecidableEq

inductive Error where
  | http (source : TransportError)
  | api (error : Retry.Rust.Error)
  | config (message : String)

/-- How one sending ends. -/
inductive Outcome where
  | response (response : Response)
  | failed (source : TransportError)
  deriving DecidableEq

/-- The HTTP client and the JSON decoder. -/
structure Reqwest (β : Type*) where
  tryClone : Request β → Option (Request β)
  clone_eq : ∀ {request clone}, tryClone request = some clone → clone = request
  /-- `serde_json::from_slice::<ApiError>` -/
  apiError : List UInt8 → Option ApiError
  fromUtf8Lossy : List UInt8 → String
  canonicalReason : Nat → Option String

/-- `Limits`, as far as the loop reads them. -/
structure Limits where
  maxRetries : UInt32

variable {β : Type*}

/-! ## Classification -/

/-- A failed attempt: what the caller sees, and whether replaying it could plausibly do better. -/
structure Failure where
  error : Error
  retryable : Bool

def Response.isSuccess (response : Response) : Bool :=
  decide (200 ≤ response.status) && decide (response.status ≤ 299)

variable (c : Reqwest β)

/-- `Failure::from_response` -/
def Failure.fromResponse (response : Response) : Failure :=
  let body := response.body.getD []
  let seen : Retry.Response :=
    ⟨response.status, c.fromUtf8Lossy body, none, response.requestId⟩
  match c.apiError body with
  | some parsed =>
      { error := .api (Retry.Rust.Error.fromApiError seen parsed)
        -- an explicit `retryable: false` is the server telling us not to, even on a 5xx
        retryable := parsed.retryable.getD (Retry.Rust.retryableStatus response.status) }
  | none =>
      { error := .api (Retry.Rust.Error.fromStatus c.canonicalReason seen)
        retryable := Retry.Rust.retryableStatus response.status }

/-- Whatever the body says, the error is that of the response's status. -/
theorem Failure.error_fromResponse (response : Response) :
    ∃ error, (Failure.fromResponse c response).error = .api error ∧
      error.status = response.status := by
  unfold Failure.fromResponse
  simp only
  split
  · exact ⟨_, rfl, rfl⟩
  · exact ⟨_, rfl, rfl⟩

/-- `Failure::from_transport` -/
def Failure.fromTransport (source : TransportError) : Failure where
  error := .http source
  retryable := source.isConnect || source.isTimeout

/-- What the loop makes of one sending. -/
def classify : Outcome → Except Failure Response
  | .response response =>
      if response.isSuccess then .ok response else .error (Failure.fromResponse c response)
  | .failed source => .error (Failure.fromTransport source)

/-- The outcome as the caller gets it. -/
def surface (outcome : Outcome) : Except Error Response := (classify c outcome).mapError (·.error)

/-- The outcome is a failure worth repeating. -/
def again (outcome : Outcome) : Bool :=
  match classify c outcome with
  | .ok _ => false
  | .error failure => failure.retryable

/-- `is_idempotent` -/
def isIdempotent (request : Request β) : Bool :=
  ["GET", "HEAD"].contains request.method || request.headers.containsKey "Idempotency-Key"

/-- Replays are for a `GET`, a `HEAD` and a request with an idempotency key, and for no other. -/
theorem isIdempotent_iff (request : Request β) :
    isIdempotent request = true ↔ request.method = "GET" ∨ request.method = "HEAD" ∨
      ∃ value, ("idempotency-key", value) ∈ request.headers := by
  have hname : "Idempotency-Key".toLower = "idempotency-key" := by decide +kernel
  rw [isIdempotent, Bool.or_eq_true, List.contains_iff_mem, List.mem_cons, List.mem_singleton,
    or_assoc, HeaderMap.containsKey, hname, List.any_eq_true]
  refine or_congr_right (or_congr_right ⟨?_, ?_⟩)
  · rintro ⟨⟨name, value⟩, hmem, hkey⟩
    obtain rfl := beq_iff_eq.mp hkey
    exact ⟨value, hmem⟩
  · rintro ⟨value, hmem⟩
    exact ⟨_, hmem, beq_self_eq_true _⟩

/-! ## The loop -/

/-- Everything sent, first to last, and what the caller gets. -/
structure Execution (β : Type*) where
  sent : List (Request β)
  result : Except Error Response

/-- The loop of `Http::execute`; `outcome k` is how the sending of attempt `k` ends. -/
def loop (retries : UInt32) (outcome : ℕ → Outcome) (attempt : UInt32) (pending : Request β)
    (sent : List (Request β)) : Execution β :=
  let spare := if attempt < retries then c.tryClone pending else none
  let sent := sent ++ [pending]
  match classify c (outcome attempt.toNat) with
  | .ok response => ⟨sent, .ok response⟩
  | .error failure =>
      match h : spare.filter fun _ => failure.retryable with
      | none => ⟨sent, .error failure.error⟩
      | some next => loop retries outcome (attempt + 1) next sent
termination_by retries.toNat - attempt.toNat
decreasing_by
  have hlt : attempt < retries := by
    by_contra hge
    simp [spare, hge] at h
  have hlt : attempt.toNat < retries.toNat := hlt
  have hsize := retries.toNat_lt
  rw [UInt32.toNat_add, Nat.mod_eq_of_lt] <;> simp <;> omega

/-- `Http::execute`; a request that does not build is never sent. -/
def execute (limits : Limits) (outcome : ℕ → Outcome) (request : Except Error (Request β)) :
    Execution β :=
  match request with
  | .error error => ⟨[], .error error⟩
  | .ok pending =>
      let retries := if isIdempotent pending then limits.maxRetries else 0
      loop c retries outcome 0 pending []

/-- The replays a request is allowed. -/
def budget (limits : Limits) (request : Request β) : ℕ :=
  if isIdempotent request ∧ (c.tryClone request).isSome then limits.maxRetries.toNat else 0

/-! ## What the loop sends and returns -/

variable {retries attempt : UInt32}

/-- The replays still allowed at an attempt: none once the body turns out not to be cloneable. -/
def spares (c : Reqwest β) (retries attempt : UInt32) (pending : Request β) : ℕ :=
  if (c.tryClone pending).isSome then retries.toNat - attempt.toNat else 0

theorem toNat_succ (hlt : attempt < retries) : (attempt + 1).toNat = attempt.toNat + 1 := by
  have hlt : attempt.toNat < retries.toNat := hlt
  have hsize := retries.toNat_lt
  rw [UInt32.toNat_add, Nat.mod_eq_of_lt]
  · rfl
  · simp
    omega

/-- A spare is there exactly when a replay is allowed, and then it is the request itself. -/
theorem spare_cases (c : Reqwest β) (retries attempt : UInt32) (pending : Request β) :
    ((if attempt < retries then c.tryClone pending else none) = none ∧
      spares c retries attempt pending = 0) ∨
    ((if attempt < retries then c.tryClone pending else none) = some pending ∧
      attempt < retries ∧
      spares c retries attempt pending = spares c retries (attempt + 1) pending + 1) := by
  unfold spares
  by_cases hlt : attempt < retries
  · cases hclone : c.tryClone pending with
    | none => exact .inl ⟨by rw [if_pos hlt], rfl⟩
    | some clone =>
        obtain rfl := c.clone_eq hclone
        have hlt' : attempt.toNat < retries.toNat := hlt
        have hsucc := toNat_succ hlt
        refine .inr ⟨by rw [if_pos hlt], hlt, ?_⟩
        simp only [Option.isSome_some, if_true]
        omega
  · have hge : retries.toNat ≤ attempt.toNat := Nat.le_of_not_lt hlt
    refine .inl ⟨by rw [if_neg hlt], ?_⟩
    split
    · exact Nat.sub_eq_zero_of_le hge
    · rfl

/-- From any attempt on: the loop sends the same request until the last attempt that its budget and
the outcomes allow, and returns how that one ended. -/
theorem loop_spec (c : Reqwest β) (retries : UInt32) (outcome : ℕ → Outcome) (attempt : UInt32)
    (pending : Request β) (sent : List (Request β)) :
    ∃ n, IsLast (again c) (fun k => outcome (attempt.toNat + k)) (spares c retries attempt pending)
        n ∧
      (loop c retries outcome attempt pending sent).sent = sent ++ List.replicate (n + 1) pending ∧
      (loop c retries outcome attempt pending sent).result =
        surface c (outcome (attempt.toNat + n)) := by
  fun_induction loop c retries outcome attempt pending sent with
  | case1 attempt pending sent sent' response hok =>
      refine ⟨0, isLast_zero (.inr ?_), rfl, ?_⟩
      · simp [again, hok]
      · simp [surface, hok, Except.mapError]
  | case2 attempt pending sent spare sent' failure hfail hspare =>
      refine ⟨0, isLast_zero ?_, rfl, ?_⟩
      · obtain ⟨-, hzero⟩ | ⟨hsome, -, -⟩ := spare_cases c retries attempt pending
        · exact .inl hzero
        · -- a spare was there, so the failure is not worth repeating
          right
          have hspare : (some pending).filter (fun _ => failure.retryable) = none := hsome ▸ hspare
          simpa [again, hfail] using hspare
      · simp [surface, hfail, Except.mapError]
  | case3 attempt pending sent spare sent' failure hfail next hspare ih =>
      obtain ⟨hnone, -⟩ | ⟨hsome, hlt, hspares⟩ := spare_cases c retries attempt pending
      · have hspare : (none : Option (Request β)).filter (fun _ => failure.retryable) = some next :=
          hnone ▸ hspare
        cases hspare
      · have hspare : (some pending).filter (fun _ => failure.retryable) = some next :=
          hsome ▸ hspare
        obtain ⟨hnext, hretry⟩ := Option.filter_eq_some_iff.mp hspare
        obtain rfl := Option.some.inj hnext
        obtain ⟨n, hlast, hsent, hresult⟩ := ih
        have hshift (k : ℕ) : (attempt + 1).toNat + k = attempt.toNat + (k + 1) := by
          rw [toNat_succ hlt]
          omega
        simp only [hshift] at hlast hresult
        refine ⟨n + 1, ?_, ?_, hresult⟩
        · rw [hspares]
          exact hlast.succ (by simpa [again, hfail] using hretry)
        · rw [hsent, List.replicate_succ (n := n + 1), List.append_assoc]
          rfl

theorem spares_zero (c : Reqwest β) (limits : Limits) (request : Request β) :
    spares c (if isIdempotent request then limits.maxRetries else 0) 0 request =
      budget c limits request := by
  unfold spares budget
  by_cases hclone : (c.tryClone request).isSome <;> by_cases hidem : isIdempotent request <;>
    simp [hclone, hidem]

/-- The last attempt of `Http::execute`, what it sent and what it returns. -/
theorem execute_isLast (c : Reqwest β) (limits : Limits) (outcome : ℕ → Outcome)
    (request : Request β) :
    ∃ n, IsLast (again c) outcome (budget c limits request) n ∧
      (execute c limits outcome (.ok request)).sent = List.replicate (n + 1) request ∧
      (execute c limits outcome (.ok request)).result = surface c (outcome n) := by
  obtain ⟨n, hlast, hsent, hresult⟩ :=
    loop_spec c (if isIdempotent request then limits.maxRetries else 0) outcome 0 request []
  simp only [UInt32.toNat_zero, Nat.zero_add, spares_zero] at hlast hresult
  exact ⟨n, hlast, hsent, hresult⟩

end FissionPlane.Sdk.RustHttp
