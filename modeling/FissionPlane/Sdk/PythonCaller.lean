/-
# FissionPlane.Sdk.PythonCaller -- the Python SDK's two retry loops

`_retrying` blocks and `_retrying_async` is a coroutine. The first is a loop here and the second a
machine that gives control up twice in each turn, while its operation runs and while it sleeps. They
make the same attempts and come to the same end, for every policy.

The end is not always an attempt's. The delay raises the factor to the number of the attempt before
it is capped, and a power out of the range of a double raises `OverflowError`: with the default
factor after the 1025th attempt, where the budget allows that many.
-/
import FissionPlane.Lib.Attempts
import FissionPlane.Lib.Binary64
import FissionPlane.Sdk.Retry

namespace FissionPlane.Sdk.PythonCaller

open FissionPlane.Lib FissionPlane.Lib.Attempts
open FissionPlane.Sdk.Retry.Python (ApiResponse shouldRetry)

/-! ## Policies and outcomes -/

/-- `RetryPolicy`; the delays are floats. -/
structure RetryPolicy where
  maxRetries : ℤ
  baseDelay : ℚ
  factor : ℚ
  maxDelay : ℚ
  deriving DecidableEq

/-- The default base delay, factor and cap. -/
def RetryPolicy.default (maxRetries : ℤ) : RetryPolicy := ⟨maxRetries, 1 / 4, 2, 8⟩

variable {ε : Type*}

/-- How one attempt ends: a response, `httpx.TransportError`, or any other exception. -/
inductive Outcome (ε : Type*) where
  | response (response : ApiResponse)
  | transportError (name : String)
  | exception (error : ε)

/-- What a loop raises. -/
inductive Raised (ε : Type*) where
  | transportError (name : String)
  | exception (error : ε)
  | overflowError

/-- What came of a call. -/
structure Execution (ε : Type*) where
  attempts : ℕ
  result : Except (Raised ε) ApiResponse

/-- `factor**attempt` in floats: `none` is `OverflowError`. -/
def power (factor : ℚ) (attempt : ℕ) : Option ℚ := Binary64.ofRat (factor ^ attempt)

/-- The ceiling `_backoff` draws the delay below; a product out of range is an infinity. -/
def backoff (policy : RetryPolicy) (attempt : ℕ) : Option ℚ :=
  (power policy.factor attempt).map fun power =>
    match Binary64.ofRat (policy.baseDelay * power) with
    | some delay => min delay policy.maxDelay
    | none => policy.maxDelay

/-- `_attempts` -/
def attempts (policy : RetryPolicy) (idempotent : Bool) : ℤ :=
  if !idempotent || decide (policy.maxRetries ≤ 0) then 1 else policy.maxRetries + 1

/-! ## The two loops -/

variable (policy : RetryPolicy) (idempotent : Bool) (outcome : ℕ → Outcome ε)

/-- `_retrying`, from an attempt on; `outcome k` is how attempt `k` ends. -/
def retrying (attempt : ℕ) : Execution ε :=
  match outcome attempt with
  | .transportError name =>
      if _final : attempts policy idempotent - 1 ≤ attempt then
        ⟨attempt + 1, .error (.transportError name)⟩
      else
        match backoff policy attempt with
        | none => ⟨attempt + 1, .error .overflowError⟩
        | some _ => retrying (attempt + 1)
  | .exception error => ⟨attempt + 1, .error (.exception error)⟩
  | .response response =>
      if _final : attempts policy idempotent - 1 ≤ attempt ∨ shouldRetry response = false then
        ⟨attempt + 1, .ok response⟩
      else
        match backoff policy attempt with
        | none => ⟨attempt + 1, .error .overflowError⟩
        | some _ => retrying (attempt + 1)
termination_by (attempts policy idempotent - 1 - attempt).toNat
decreasing_by all_goals omega

/-- Where `_retrying_async` is suspended, or that it has returned. -/
inductive Coroutine (ε : Type*) where
  | operation (attempt : ℕ)
  | sleep (attempt : ℕ) (ceiling : ℚ)
  | returned (execution : Execution ε)

/-- The coroutine goes on when what it awaits is there, up to where it awaits again. -/
def resume : Coroutine ε → Coroutine ε
  | .operation attempt =>
      let final := decide (attempts policy idempotent - 1 ≤ attempt)
      match outcome attempt with
      | .transportError name =>
          if final then .returned ⟨attempt + 1, .error (.transportError name)⟩
          else
            match backoff policy attempt with
            | none => .returned ⟨attempt + 1, .error .overflowError⟩
            | some ceiling => .sleep attempt ceiling
      | .exception error => .returned ⟨attempt + 1, .error (.exception error)⟩
      | .response response =>
          if final || !shouldRetry response then .returned ⟨attempt + 1, .ok response⟩
          else
            match backoff policy attempt with
            | none => .returned ⟨attempt + 1, .error .overflowError⟩
            | some ceiling => .sleep attempt ceiling
  | .sleep attempt _ => .operation (attempt + 1)
  | .returned execution => .returned execution

/-- `_retrying_async` has returned after this many resumptions. -/
def after (n : ℕ) (s : Coroutine ε) : Coroutine ε := (resume policy idempotent outcome)^[n] s

/-! ## The coroutine does what the loop does -/

variable {policy idempotent outcome}

theorem after_succ {n : ℕ} {s : Coroutine ε} :
    after policy idempotent outcome (n + 1) s =
      after policy idempotent outcome n (resume policy idempotent outcome s) := by
  rw [after, Function.iterate_succ_apply]
  rfl

/-- The coroutine leaves the loop at once. -/
theorem exists_after_of_returned {s : Coroutine ε} {execution : Execution ε}
    (h : resume policy idempotent outcome s = .returned execution) :
    ∃ n, after policy idempotent outcome n s = .returned execution :=
  ⟨1, by rw [after_succ, h]; rfl⟩

/-- The coroutine sleeps and goes on with the next attempt. -/
theorem exists_after_of_sleep {attempt : ℕ} (ceiling : ℚ) {execution : Execution ε}
    (h : resume policy idempotent outcome (.operation attempt) = .sleep attempt ceiling)
    (hnext : ∃ n, after policy idempotent outcome n (.operation (attempt + 1)) =
      .returned execution) :
    ∃ n, after policy idempotent outcome n (.operation attempt) = .returned execution := by
  obtain ⟨n, hn⟩ := hnext
  refine ⟨n + 1 + 1, ?_⟩
  rw [after_succ, h, after_succ]
  exact hn

theorem done_eq_true_iff {attempt : ℕ} {response : ApiResponse} :
    (decide (attempts policy idempotent - 1 ≤ (attempt : ℤ)) || !shouldRetry response) = true ↔
      attempts policy idempotent - 1 ≤ attempt ∨ shouldRetry response = false := by
  rw [Bool.or_eq_true, decide_eq_true_iff, Bool.not_eq_true']

/-- From any attempt on, the coroutine returns, and returns what the loop returns. -/
theorem exists_after_eq_retrying (policy : RetryPolicy) (idempotent : Bool)
    (outcome : ℕ → Outcome ε) (attempt : ℕ) :
    ∃ n, after policy idempotent outcome n (.operation attempt) =
      .returned (retrying policy idempotent outcome attempt) := by
  fun_induction retrying policy idempotent outcome attempt with
  | case1 attempt name hout final =>
      apply exists_after_of_returned
      simp [resume, hout, final]
  | case2 attempt name hout final hbackoff =>
      apply exists_after_of_returned
      simp [resume, hout, final, hbackoff]
  | case3 attempt name hout final ceiling hbackoff ih =>
      refine exists_after_of_sleep ceiling ?_ ih
      simp [resume, hout, final, hbackoff]
  | case4 attempt error hout =>
      apply exists_after_of_returned
      simp [resume, hout]
  | case5 attempt response hout final =>
      have hdone := done_eq_true_iff.mpr final
      apply exists_after_of_returned
      simp only [resume, hout, hdone, if_true]
  | case6 attempt response hout final hbackoff =>
      have hdone := Bool.eq_false_of_not_eq_true (done_eq_true_iff.not.mpr final)
      apply exists_after_of_returned
      simp only [resume, hout, hdone, hbackoff, Bool.false_eq_true, if_false]
  | case7 attempt response hout final ceiling hbackoff ih =>
      have hdone := Bool.eq_false_of_not_eq_true (done_eq_true_iff.not.mpr final)
      refine exists_after_of_sleep ceiling ?_ ih
      simp only [resume, hout, hdone, hbackoff, Bool.false_eq_true, if_false]

/-! ## What the loop does -/

/-- The outcome is retryable. -/
def again : Outcome ε → Bool
  | .response response => shouldRetry response
  | .transportError _ => true
  | .exception _ => false

/-- The outcome as the caller gets it. -/
def surface : Outcome ε → Except (Raised ε) ApiResponse
  | .response response => .ok response
  | .transportError name => .error (.transportError name)
  | .exception error => .error (.exception error)

/-- The attempts made after the first. -/
def budget (maxRetries : ℕ) (idempotent : Bool) : ℕ := if idempotent then maxRetries else 0

/-- One turn of the loop. -/
theorem retrying_eq (policy : RetryPolicy) (idempotent : Bool) (outcome : ℕ → Outcome ε)
    (attempt : ℕ) :
    retrying policy idempotent outcome attempt =
      if attempts policy idempotent - 1 ≤ attempt ∨ again (outcome attempt) = false then
        ⟨attempt + 1, surface (outcome attempt)⟩
      else
        match backoff policy attempt with
        | none => ⟨attempt + 1, .error .overflowError⟩
        | some _ => retrying policy idempotent outcome (attempt + 1) := by
  rw [retrying]
  split
  · next name hout =>
      by_cases final : attempts policy idempotent - 1 ≤ attempt
      · rw [dif_pos final, if_pos (.inl final), hout]
        rfl
      · rw [dif_neg final, if_neg (by simpa [again, hout] using final)]
  · next error hout =>
      rw [if_pos (.inr (by rw [hout]; rfl)), hout]
      rfl
  · next response hout =>
      by_cases final : attempts policy idempotent - 1 ≤ attempt ∨ shouldRetry response = false
      · rw [dif_pos final, if_pos (by rw [hout]; exact final), hout]
        rfl
      · rw [dif_neg final, if_neg (by rw [hout]; exact final)]

theorem final_iff {policy : RetryPolicy} {maxRetries : ℕ} (h : policy.maxRetries = maxRetries)
    (idempotent : Bool) (attempt : ℕ) :
    attempts policy idempotent - 1 ≤ attempt ↔ budget maxRetries idempotent ≤ attempt := by
  unfold attempts budget
  cases idempotent with
  | false => simp
  | true =>
      rw [h]
      simp only [Bool.not_true, Bool.false_or, decide_eq_true_eq, if_true]
      split <;> omega

section

variable {policy : RetryPolicy} {maxRetries n m : ℕ} {idempotent : Bool} {outcome : ℕ → Outcome ε}

/-- Up to the last attempt that the budget and the outcomes allow, the loop goes from one attempt to
the next for as long as there is a delay to wait. -/
theorem retrying_zero_eq (h : policy.maxRetries = maxRetries)
    (hlast : IsLast again outcome (budget maxRetries idempotent) n) (hm : m ≤ n)
    (hbackoff : ∀ k < m, (backoff policy k).isSome) :
    retrying policy idempotent outcome 0 = retrying policy idempotent outcome m := by
  induction m with
  | zero => rfl
  | succ m ih =>
      have hagain := hlast.again_of_lt m (by omega)
      have hbudget := hlast.le
      obtain ⟨ceiling, hceiling⟩ := Option.isSome_iff_exists.mp (hbackoff m (by omega))
      rw [ih (by omega) fun k hk => hbackoff k (by omega), retrying_eq, if_neg]
      · rw [hceiling]
      · rw [final_iff h, hagain]
        simp
        omega

/-- With a delay to wait after each of its attempts, the loop ends with its last one. -/
theorem retrying_of_backoff (h : policy.maxRetries = maxRetries)
    (hlast : IsLast again outcome (budget maxRetries idempotent) n)
    (hbackoff : ∀ k < n, (backoff policy k).isSome) :
    retrying policy idempotent outcome 0 = ⟨n + 1, surface (outcome n)⟩ := by
  rw [retrying_zero_eq h hlast le_rfl hbackoff, retrying_eq, if_pos]
  rw [final_iff h]
  exact hlast.stops.imp (fun heq => heq.ge) id

/-- The first attempt before the last without a delay ends the loop with `OverflowError`. -/
theorem retrying_of_overflow (h : policy.maxRetries = maxRetries)
    (hlast : IsLast again outcome (budget maxRetries idempotent) n) (hm : m < n)
    (hbackoff : ∀ k < m, (backoff policy k).isSome) (hoverflow : backoff policy m = none) :
    retrying policy idempotent outcome 0 = ⟨m + 1, .error .overflowError⟩ := by
  have hagain := hlast.again_of_lt m hm
  have hbudget := hlast.le
  rw [retrying_zero_eq h hlast hm.le hbackoff, retrying_eq, if_neg]
  · rw [hoverflow]
  · rw [final_iff h, hagain]
    simp
    omega

end

/-- What is not idempotent is attempted once. -/
theorem retrying_not_idempotent (policy : RetryPolicy) (outcome : ℕ → Outcome ε) :
    retrying policy false outcome 0 = ⟨1, surface (outcome 0)⟩ := by
  rw [retrying_eq, if_pos]
  exact .inl (by simp [attempts])

/-- No delay is asked for after the attempt, or there is one to wait. -/
def DelayAvailable (policy : RetryPolicy) (idempotent : Bool) (outcome : ℕ → Outcome ε) (n : ℕ) :
    Prop :=
  attempts policy idempotent - 1 ≤ n ∨ again (outcome n) = false ∨ (backoff policy n).isSome

/-- The loop ends with its last attempt's outcome, unless it needs a delay that does not exist. -/
theorem retrying_result {policy : RetryPolicy} {idempotent : Bool} {outcome : ℕ → Outcome ε}
    {attempt n : ℕ} (h : (retrying policy idempotent outcome attempt).attempts = n + 1) :
    (DelayAvailable policy idempotent outcome n ∧
      (retrying policy idempotent outcome attempt).result = surface (outcome n)) ∨
    (¬ DelayAvailable policy idempotent outcome n ∧
      (retrying policy idempotent outcome attempt).result = .error .overflowError) := by
  unfold DelayAvailable
  fun_induction retrying policy idempotent outcome attempt with
  | case1 attempt name hout final =>
      obtain rfl : attempt = n := Nat.succ.inj h
      exact .inl ⟨.inl final, by rw [hout]; rfl⟩
  | case2 attempt name hout final hbackoff =>
      obtain rfl : attempt = n := Nat.succ.inj h
      exact .inr ⟨by simp [final, hout, again, hbackoff], rfl⟩
  | case3 attempt name hout final ceiling hbackoff ih => exact ih h
  | case4 attempt error hout =>
      obtain rfl : attempt = n := Nat.succ.inj h
      exact .inl ⟨.inr (.inl (by rw [hout]; rfl)), by rw [hout]; rfl⟩
  | case5 attempt response hout final =>
      obtain rfl : attempt = n := Nat.succ.inj h
      refine .inl ⟨final.imp_right fun hno => .inl ?_, by rw [hout]; rfl⟩
      rw [hout]
      exact hno
  | case6 attempt response hout final hbackoff =>
      obtain rfl : attempt = n := Nat.succ.inj h
      obtain ⟨hbudget, hagain⟩ := not_or.mp final
      exact .inr ⟨by simp [hbudget, hout, again, hagain, hbackoff], rfl⟩
  | case7 attempt response hout final ceiling hbackoff ih => exact ih h

/-! ## When both loops keep to the outcomes of their attempts -/

theorem backoff_default (maxRetries : ℤ) (attempt : ℕ) :
    (backoff (.default maxRetries) attempt).isSome ↔ attempt < 1024 := by
  rw [backoff, Option.isSome_map, power, RetryPolicy.default, Binary64.ofRat_two_pow]
  split
  · simpa
  · simpa using Nat.le_of_not_lt ‹_›

theorem surface_ne_overflowError (outcome : Outcome ε) :
    surface outcome ≠ .error .overflowError := by
  cases outcome <;> simp [surface]

/-- Both loops complete with as many attempts as the budget and the outcomes allow, and with the
outcome of the last one. -/
structure Completes (maxRetries : ℕ) (idempotent : Bool) (outcome : ℕ → Outcome ε) : Prop where
  sync : ∃ n, ((n + 1 : ℕ) : ℕ∞) =
      min ((budget maxRetries idempotent + 1 : ℕ) : ℕ∞) (position again outcome) ∧
    retrying (.default maxRetries) idempotent outcome 0 = ⟨n + 1, surface (outcome n)⟩
  async : ∃ resumptions, after (.default maxRetries) idempotent outcome resumptions (.operation 0) =
    .returned (retrying (.default maxRetries) idempotent outcome 0)

/-- The last attempt is within range exactly when the budget is, or an outcome stops before. -/
theorem last_le_iff {maxRetries n : ℕ} {idempotent : Bool} {outcome : ℕ → Outcome ε}
    (hlast : IsLast again outcome (budget maxRetries idempotent) n) :
    n ≤ 1024 ↔ idempotent = false ∨ maxRetries ≤ 1024 ∨ ∃ k ≤ 1024, again (outcome k) = false := by
  have hle := hlast.le
  constructor
  · intro hn
    rcases hlast.stops with rfl | hstop
    · cases idempotent with
      | false => exact .inl rfl
      | true => exact .inr (.inl hn)
    · exact .inr (.inr ⟨n, hn, hstop⟩)
  · rintro (rfl | hbudget | ⟨k, hk, hstop⟩)
    · simp only [budget, Bool.false_eq_true, if_false] at hle
      omega
    · have hmax : budget maxRetries idempotent ≤ maxRetries := by
        unfold budget
        split <;> omega
      omega
    · by_contra hlt
      have hagain := hlast.again_of_lt k (by omega)
      simp [hagain] at hstop

/-- The loops complete exactly when no delay out of range is asked for before the last attempt. -/
theorem completes_iff_last_le {maxRetries n : ℕ} {idempotent : Bool} {outcome : ℕ → Outcome ε}
    (hlast : IsLast again outcome (budget maxRetries idempotent) n) :
    Completes maxRetries idempotent outcome ↔ n ≤ 1024 := by
  have hpolicy : (RetryPolicy.default maxRetries).maxRetries = maxRetries := rfl
  constructor
  · rintro ⟨⟨m, hcount, hresult⟩, -⟩
    obtain rfl := hlast.unique (isLast_iff_count.mpr hcount)
    by_contra hlt
    -- the delay after the attempt numbered 1024 does not exist
    have hoverflow : backoff (.default maxRetries) 1024 = none := by
      have hnone := (backoff_default maxRetries 1024).not.mpr (by omega)
      exact Option.not_isSome_iff_eq_none.mp hnone
    have hloop := retrying_of_overflow hpolicy hlast (by omega)
      (fun k hk => (backoff_default maxRetries k).mpr hk) hoverflow
    have hraised := congrArg Execution.result (hresult.symm.trans hloop)
    exact surface_ne_overflowError (outcome n) hraised
  · intro hle
    refine ⟨⟨n, isLast_iff_count.mp hlast, ?_⟩, ?_⟩
    · exact retrying_of_backoff hpolicy hlast fun k hk =>
        (backoff_default maxRetries k).mpr (by omega)
    · exact exists_after_eq_retrying (.default maxRetries) idempotent outcome 0

/-- The two loops always end alike, and with the outcome of their last attempt exactly when the call
is not idempotent, at most 1024 attempts may follow the first, or one of the first 1025 outcomes is
not retryable. -/
theorem completes_iff (maxRetries : ℕ) (idempotent : Bool) (outcome : ℕ → Outcome ε) :
    Completes maxRetries idempotent outcome ↔
      idempotent = false ∨ maxRetries ≤ 1024 ∨ ∃ k ≤ 1024, again (outcome k) = false := by
  obtain ⟨n, hlast⟩ := exists_isLast again outcome (budget maxRetries idempotent)
  rw [completes_iff_last_le hlast, last_le_iff hlast]

/-- A proxy that answers 503 forever, and a budget of 1025: the loops raise an exception of their
own after the 1025th attempt, with one attempt left. -/
theorem not_completes_unavailable :
    ¬ Completes 1025 true (fun _ => (.response ⟨503, none⟩ : Outcome Empty)) := by
  have hlast : IsLast again (fun _ => (.response ⟨503, none⟩ : Outcome Empty)) (budget 1025 true)
      1025 := ⟨le_rfl, fun _ _ => by decide, .inl rfl⟩
  rw [completes_iff_last_le hlast]
  omega

end FissionPlane.Sdk.PythonCaller
