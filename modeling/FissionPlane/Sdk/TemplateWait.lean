/-
# FissionPlane.Sdk.TemplateWait -- waiting for a template build

A build is polled until it has succeeded or failed, or until a deadline has passed. The Rust and
Python handles look at the build they hold before they poll for the first time, the TypeScript
handle polls first. In each of them the status is looked at before the clock, so a build that has
finished is reported however late it is seen.

The three loops are written out as they stand, against a sequence of answers to polls and a
sequence of clock readings, and compared with one verdict per observation. An answer that is an
error ends a wait; the loops here look at it first thing in the next round.
-/
import FissionPlane.Lib.Binary64
import FissionPlane.Lib.Duration
import FissionPlane.Lib.Polling

namespace FissionPlane.Sdk.TemplateWait

open FissionPlane.Lib FissionPlane.Lib.Polling
open Binary64 (Number)

/-! ## Builds -/

inductive TemplateBuildStatus where
  | queued
  | building
  | succeeded
  | failed
  deriving DecidableEq, Repr

/-- `succeeded` and `failed` are terminal, the others are in progress. -/
def TemplateBuildStatus.isTerminal : TemplateBuildStatus → Bool
  | .queued | .building => false
  | .succeeded | .failed => true

/-- The fields of a build that a wait reads. -/
structure TemplateBuild where
  buildId : String
  status : TemplateBuildStatus
  error : Option String
  deriving DecidableEq, Repr

/-! ## What a wait does and returns -/

/-- What is seen of a wait; `ι` is the type of its poll interval. -/
inductive Event (ι : Type) where
  | observed (status : TemplateBuildStatus)
  | checkedClock
  | slept (interval : ι)
  | polled
  deriving DecidableEq

/-- How a wait ends; `ε` is the error of a poll, `φ` what is said of a failed build and `τ` of a
timeout. -/
inductive Outcome (ε φ τ : Type) where
  | succeeded (info : TemplateBuild)
  | buildFailed (failure : φ)
  | waitTimeout (expiry : τ)
  | pollFailed (error : ε)
  deriving DecidableEq

/-- The readings of a clock, one for each time it is looked at. -/
structure Clock (τ : Type) [LE τ] where
  reading : ℕ → τ
  mono : ∀ i j, i ≤ j → reading i ≤ reading j

variable {ε φ τ ι : Type}

/-- The clock is looked at after an observation only if there is a timeout. -/
def checks {α : Type} (timeout : Option α) : List (Event ι) :=
  if timeout.isSome then [.checkedClock] else []

/-! ## Deadlines of the handles that count in doubles -/

/-- The deadline, computed before the first observation. -/
def deadline (timeout : Option Number) (start : ℚ) : Option Number :=
  timeout.map fun timeout => (Number.finite start).add timeout

/-- The check after an observation. -/
def passed (deadline : Option Number) (now : ℚ) : Bool :=
  match deadline with
  | some deadline => (Number.finite now).ge deadline
  | none => false

/-! ## The Rust handle -/

namespace Rust

structure WaitOptions where
  pollInterval : Duration
  timeout : Option Duration

/-- The detail of `Error::BuildFailed`. -/
def failure (info : TemplateBuild) : String := info.error.getD "build failed without detail"

/-- The check after an observation: the time since the start has reached the timeout. -/
def timedOut (options : WaitOptions) (started now : Instant) : Bool :=
  match options.timeout with
  | some timeout => decide (timeout ≤ now.durationSince started)
  | none => false

/-- The loop of `wait` after `k` polls, where `latest` is the build it holds. -/
def loop (options : WaitOptions) (clock : Clock Instant) (polls : ℕ → Except ε TemplateBuild) :
    ℕ → ℕ → Except ε TemplateBuild → List (Event Duration) × Option (Outcome ε String Unit)
  | 0, _, _ => ([], none)
  | _ + 1, _, .error e => ([], some (.pollFailed e))
  | fuel + 1, k, .ok info =>
      match info.status with
      | .succeeded => ([.observed info.status], some (.succeeded info))
      | .failed => ([.observed info.status], some (.buildFailed (failure info)))
      | .queued | .building =>
          if timedOut options (clock.reading 0) (clock.reading (k + 1)) then
            (.observed info.status :: checks options.timeout, some (.waitTimeout ()))
          else
            let rest := loop options clock polls fuel (k + 1) (polls k)
            (.observed info.status :: checks options.timeout ++
              [.slept options.pollInterval, .polled] ++ rest.1, rest.2)

/-- `TemplateBuildHandle::wait`, for so many rounds. -/
def wait (info : TemplateBuild) (options : WaitOptions) (clock : Clock Instant)
    (polls : ℕ → Except ε TemplateBuild) (fuel : ℕ) :
    List (Event Duration) × Option (Outcome ε String Unit) :=
  loop options clock polls fuel 0 (.ok info)

end Rust

/-! ## The TypeScript handle -/

namespace TypeScript

structure WaitForBuildOptions where
  pollIntervalMs : Option Number
  timeoutMs : Option Number

/-- The message and the detail of `TemplateBuildError`. -/
def failure (info : TemplateBuild) : String × Option String :=
  ("template build " ++ info.buildId ++ " failed: " ++ info.error.getD "no error reported",
    info.error)

/-- What the message of a timeout is made of: the build, the timeout and the last status. -/
def expiry (timeoutMs : Option Number) (info : TemplateBuild) :
    String × Option Number × TemplateBuildStatus :=
  (info.buildId, timeoutMs, info.status)

/-- The loop of `wait` after `k` polls. -/
def loop (pollIntervalMs : Number) (timeoutMs : Option Number) (clock : Clock ℚ)
    (polls : ℕ → Except ε TemplateBuild) : ℕ → ℕ → List (Event Number) ×
      Option (Outcome ε (String × Option String) (String × Option Number × TemplateBuildStatus))
  | 0, _ => ([], none)
  | fuel + 1, k =>
      match polls k with
      | .error e => ([.polled], some (.pollFailed e))
      | .ok info =>
          if info.status = .succeeded then
            ([.polled, .observed info.status], some (.succeeded info))
          else if info.status = .failed then
            ([.polled, .observed info.status], some (.buildFailed (failure info)))
          else if passed (deadline timeoutMs (clock.reading 0)) (clock.reading (k + 1)) then
            ([.polled, .observed info.status] ++ checks timeoutMs,
              some (.waitTimeout (expiry timeoutMs info)))
          else
            let rest := loop pollIntervalMs timeoutMs clock polls fuel (k + 1)
            ([.polled, .observed info.status] ++ checks timeoutMs ++ [.slept pollIntervalMs] ++
              rest.1, rest.2)

/-- `TemplateBuild.wait`, for so many rounds. -/
def wait (options : WaitForBuildOptions) (clock : Clock ℚ) (polls : ℕ → Except ε TemplateBuild)
    (fuel : ℕ) : List (Event Number) ×
      Option (Outcome ε (String × Option String) (String × Option Number × TemplateBuildStatus)) :=
  loop (options.pollIntervalMs.getD (.finite 2000)) options.timeoutMs clock polls fuel 0

end TypeScript

/-! ## The Python handles -/

namespace Python

def terminalStatuses : List TemplateBuildStatus := [.succeeded, .failed]

/-- The message of `TemplateBuildError`. -/
def failure (info : TemplateBuild) : String := info.error.getD "template build failed"

/-- A successful build, or its failure. -/
def finished (info : TemplateBuild) : Outcome ε String τ :=
  if info.status = .failed then .buildFailed (failure info) else .succeeded info

/-- What the message of a timeout is made of: the handle's build and the timeout. -/
def expiry (buildId : String) (timeout : Option Number) : String × Option Number :=
  (buildId, timeout)

/-- The `while` loop, the same in both handles. -/
def loop (pollInterval : Number) (timeout : Option Number) (clock : Clock ℚ)
    (polls : ℕ → Except ε TemplateBuild) : ℕ → ℕ → Except ε TemplateBuild →
      List (Event Number) × Option (Outcome ε String (String × Option Number))
  | 0, _, _ => ([], none)
  | _ + 1, _, .error e => ([], some (.pollFailed e))
  | fuel + 1, k, .ok info =>
      if info.status ∉ terminalStatuses then
        if passed (deadline timeout (clock.reading 0)) (clock.reading (k + 1)) then
          (.observed info.status :: checks timeout,
            some (.waitTimeout (expiry info.buildId timeout)))
        else
          let rest := loop pollInterval timeout clock polls fuel (k + 1) (polls k)
          (.observed info.status :: checks timeout ++ [.slept pollInterval, .polled] ++ rest.1,
            rest.2)
      else ([.observed info.status], some (finished info))

/-- `TemplateBuild.wait`, for so many rounds. -/
def TemplateBuild.wait (info : TemplateBuild) (pollInterval : Number) (timeout : Option Number)
    (clock : Clock ℚ) (polls : ℕ → Except ε TemplateBuild) (fuel : ℕ) :
    List (Event Number) × Option (Outcome ε String (String × Option Number)) :=
  loop pollInterval timeout clock polls fuel 0 (.ok info)

/-- `AsyncTemplateBuild.wait`, for so many rounds. -/
def AsyncTemplateBuild.wait (info : TemplateBuild) (pollInterval : Number)
    (timeout : Option Number) (clock : Clock ℚ) (polls : ℕ → Except ε TemplateBuild) (fuel : ℕ) :
    List (Event Number) × Option (Outcome ε String (String × Option Number)) :=
  loop pollInterval timeout clock polls fuel 0 (.ok info)

end Python

/-! ## One verdict per observation -/

/-- The builds a handle with a stored one looks at: that one, and then the answers. -/
def storedFirst (info : TemplateBuild) (polls : ℕ → Except ε TemplateBuild) :
    ℕ → Except ε TemplateBuild
  | 0 => .ok info
  | k + 1 => polls k

section

variable (failure : TemplateBuild → φ) (expiry : TemplateBuild → τ)
  (observed : ℕ → Except ε TemplateBuild) (reached : ℕ → Bool)

/-- What the `k`-th observation comes to: the status first, then the deadline. -/
def verdict (k : ℕ) : Option (Outcome ε φ τ) :=
  match observed k with
  | .error e => some (.pollFailed e)
  | .ok info =>
      match info.status with
      | .succeeded => some (.succeeded info)
      | .failed => some (.buildFailed (failure info))
      | .queued | .building => if reached k then some (.waitTimeout (expiry info)) else none

/-- A build in progress, and the deadline not reached at the check. -/
def Waiting (k : ℕ) : Prop :=
  ∃ info, observed k = .ok info ∧ info.status.isTerminal = false ∧ reached k = false

/-- A wait ends with the first observation that is terminal or meets the deadline, and says which.
The observation alone decides on success and failure. -/
structure Conforms (wait : ℕ → List (Event ι) × Option (Outcome ε φ τ)) : Prop where
  succeeded : ∀ info, (∃ fuel, (wait fuel).2 = some (.succeeded info)) ↔
    ∃ n, (∀ k < n, Waiting observed reached k) ∧ observed n = .ok info ∧ info.status = .succeeded
  buildFailed : ∀ detail, (∃ fuel, (wait fuel).2 = some (.buildFailed detail)) ↔
    ∃ n info, (∀ k < n, Waiting observed reached k) ∧ observed n = .ok info ∧
      info.status = .failed ∧ detail = failure info
  waitTimeout : ∀ detail, (∃ fuel, (wait fuel).2 = some (.waitTimeout detail)) ↔
    ∃ n info, (∀ k < n, Waiting observed reached k) ∧ observed n = .ok info ∧
      info.status.isTerminal = false ∧ reached n = true ∧ detail = expiry info
  pollFailed : ∀ error, (∃ fuel, (wait fuel).2 = some (.pollFailed error)) ↔
    ∃ n, (∀ k < n, Waiting observed reached k) ∧ observed n = .error error
  quiet : ∀ fuel pre status post, (wait fuel).1 = pre ++ .observed status :: post →
    status.isTerminal = true → post = []

variable {failure expiry observed reached}

theorem verdict_eq_none_iff {k : ℕ} :
    verdict failure expiry observed reached k = none ↔ Waiting observed reached k := by
  unfold verdict Waiting
  cases hobs : observed k with
  | error e => simp
  | ok info => cases hstatus : info.status <;> simp [hstatus, TemplateBuildStatus.isTerminal]

theorem verdict_eq_succeeded_iff {k : ℕ} {info : TemplateBuild} :
    verdict failure expiry observed reached k = some (.succeeded info) ↔
      observed k = .ok info ∧ info.status = .succeeded := by
  unfold verdict
  cases observed k with
  | error e => simp
  | ok found => cases hstatus : found.status <;> grind

theorem verdict_eq_buildFailed_iff {k : ℕ} {detail : φ} :
    verdict failure expiry observed reached k = some (.buildFailed detail) ↔
      ∃ info, observed k = .ok info ∧ info.status = .failed ∧ detail = failure info := by
  unfold verdict
  cases observed k with
  | error e => simp
  | ok found => cases hstatus : found.status <;> grind

theorem verdict_eq_waitTimeout_iff {k : ℕ} {detail : τ} :
    verdict failure expiry observed reached k = some (.waitTimeout detail) ↔
      ∃ info, observed k = .ok info ∧ info.status.isTerminal = false ∧ reached k = true ∧
        detail = expiry info := by
  unfold verdict
  cases observed k with
  | error e => simp
  | ok found => cases hstatus : found.status <;> grind [TemplateBuildStatus.isTerminal]

theorem verdict_eq_pollFailed_iff {k : ℕ} {error : ε} :
    verdict failure expiry observed reached k = some (.pollFailed error) ↔
      observed k = .error error := by
  unfold verdict
  cases observed k with
  | error e => simp
  | ok found => cases hstatus : found.status <;> grind

/-- A loop that comes to these verdicts, and looks at a terminal status last, conforms. -/
theorem conforms_of_run {wait : ℕ → List (Event ι) × Option (Outcome ε φ τ)}
    {done : ℕ → List (Event ι)}
    (hrun : ∀ fuel, wait fuel = run done (verdict failure expiry observed reached) fuel 0)
    (hlast : ∀ k pre status post, done k = pre ++ .observed status :: post →
      status.isTerminal = true → post = [] ∧ ¬ Waiting observed reached k) :
    Conforms failure expiry observed reached wait := by
  have hreturns : ∀ outcome, (∃ fuel, (wait fuel).2 = some outcome) ↔
      ∃ n, (∀ k < n, Waiting observed reached k) ∧
        verdict failure expiry observed reached n = some outcome := by
    intro outcome
    simp only [hrun, returns_iff, First, verdict_eq_none_iff]
  constructor
  · intro info
    simp only [hreturns, verdict_eq_succeeded_iff]
  · intro detail
    simp only [hreturns, verdict_eq_buildFailed_iff, exists_and_left]
  · intro detail
    simp only [hreturns, verdict_eq_waitTimeout_iff, exists_and_left]
  · intro error
    simp only [hreturns, verdict_eq_pollFailed_iff]
  · intro fuel pre status post hlog hterminal
    rw [hrun] at hlog
    refine nil_of_log (P := fun e => ∃ status, e = .observed status ∧ status.isTerminal = true)
      ?_ hlog ⟨status, rfl, hterminal⟩
    rintro k pre e post hdone ⟨status, rfl, hterminal⟩
    obtain ⟨hnil, hwaiting⟩ := hlast k pre status post hdone hterminal
    exact ⟨hnil, fun hnone => hwaiting (verdict_eq_none_iff.mp hnone)⟩

/-! ## The loops come to these verdicts -/

variable (observed reached) in
/-- What is seen of a round: `before` precedes the observation, and unless that is terminal the
clock is checked after it, and `resume` follows if the deadline is not reached. -/
def round (before checks resume : List (Event ι)) (k : ℕ) : List (Event ι) :=
  match observed k with
  | .error _ => before
  | .ok info => before ++ .observed info.status ::
      (if info.status.isTerminal then [] else if reached k then checks else checks ++ resume)

/-- A terminal status is the last thing seen of its round, and the build is not waited for. -/
theorem round_last {before checks resume : List (Event ι)}
    (hno : ∀ status, .observed status ∉ before ++ checks ++ resume) {k : ℕ} {pre : List (Event ι)}
    {status : TemplateBuildStatus} {post : List (Event ι)}
    (h : round observed reached before checks resume k = pre ++ .observed status :: post)
    (hterminal : status.isTerminal = true) : post = [] ∧ ¬ Waiting observed reached k := by
  have hbefore : .observed status ∉ before := fun hmem =>
    hno status (List.mem_append_left _ (List.mem_append_left _ hmem))
  unfold round at h
  cases hobs : observed k with
  | error e =>
      rw [hobs] at h
      dsimp only at h
      rw [h] at hbefore
      exact absurd (List.mem_append_right pre List.mem_cons_self) hbefore
  | ok info =>
      rw [hobs] at h
      dsimp only at h
      rw [List.append_cons_inj_of_notMem hbefore] at h
      · obtain ⟨-, hstatus, hpost⟩ := h
        obtain rfl : info.status = status := Event.observed.inj hstatus
        rw [if_pos hterminal] at hpost
        refine ⟨hpost.symm, ?_⟩
        rintro ⟨found, hfound, hprogress, -⟩
        obtain rfl := Except.ok.inj (hobs.symm.trans hfound)
        rw [hterminal] at hprogress
        cases hprogress
      · intro hmem
        have hall := hno status
        simp only [List.mem_append, not_or] at hall
        split_ifs at hmem
        · exact List.not_mem_nil hmem
        · exact hall.1.2 hmem
        · rcases List.mem_append.mp hmem with hmem | hmem
          · exact hall.1.2 hmem
          · exact hall.2 hmem

/-- A round and what comes after it, by what is observed. -/
theorem run_round (before checks resume : List (Event ι)) (fuel k : ℕ) :
    run (round observed reached before checks resume) (verdict failure expiry observed reached)
      (fuel + 1) k =
    let rest := run (round observed reached before checks resume)
      (verdict failure expiry observed reached) fuel (k + 1)
    match observed k with
    | .error e => (before, some (.pollFailed e))
    | .ok info =>
        match info.status with
        | .succeeded => (before ++ [.observed info.status], some (.succeeded info))
        | .failed => (before ++ [.observed info.status], some (.buildFailed (failure info)))
        | .queued | .building =>
            if reached k then
              (before ++ .observed info.status :: checks, some (.waitTimeout (expiry info)))
            else (before ++ .observed info.status :: (checks ++ resume) ++ rest.1, rest.2) := by
  rw [run]
  unfold round verdict
  cases observed k with
  | error e => rfl
  | ok info =>
      cases hstatus : info.status with
      | succeeded => simp [hstatus, TemplateBuildStatus.isTerminal]
      | failed => simp [hstatus, TemplateBuildStatus.isTerminal]
      | queued | building =>
          cases reached k <;> simp [hstatus, TemplateBuildStatus.isTerminal]

/-- No round without an observation observes anything. -/
theorem observed_not_mem_checks {α : Type} (timeout : Option α) (interval : ι)
    (status : TemplateBuildStatus) :
    .observed status ∉ [] ++ checks timeout ++ [.slept interval, .polled] ∧
      .observed status ∉ [.polled] ++ checks timeout ++ [.slept interval] := by
  unfold checks
  split <;> simp

end

/-- A deadline in doubles is reached at the check after observation `k`. -/
def reached (timeout : Option Number) (clock : Clock ℚ) (k : ℕ) : Bool :=
  (deadline timeout (clock.reading 0)).any (Number.finite (clock.reading (k + 1))).ge

theorem passed_eq (timeout : Option Number) (clock : Clock ℚ) (k : ℕ) :
    passed (deadline timeout (clock.reading 0)) (clock.reading (k + 1)) =
      reached timeout clock k := by
  unfold passed reached
  cases deadline timeout (clock.reading 0) <;> rfl

namespace Rust

/-- The deadline of a wait is reached at the check after observation `k`. -/
def reached (options : WaitOptions) (clock : Clock Instant) (k : ℕ) : Bool :=
  options.timeout.any fun timeout =>
    decide ((clock.reading 0).sinceEarliest.nanos + timeout.nanos ≤
      (clock.reading (k + 1)).sinceEarliest.nanos)

/-- The clock never runs backwards, so the time since the start is a difference. -/
theorem timedOut_eq (options : WaitOptions) (clock : Clock Instant) (k : ℕ) :
    timedOut options (clock.reading 0) (clock.reading (k + 1)) = reached options clock k := by
  have hle : (clock.reading 0).sinceEarliest.nanos ≤ (clock.reading (k + 1)).sinceEarliest.nanos :=
    clock.mono 0 (k + 1) (Nat.zero_le _)
  unfold timedOut reached
  cases options.timeout with
  | none => rfl
  | some timeout =>
      apply decide_eq_decide.mpr
      show timeout.nanos ≤ _ - _ ↔ _
      omega

variable (info : TemplateBuild) (options : WaitOptions) (clock : Clock Instant)
  (polls : ℕ → Except ε TemplateBuild)

theorem loop_eq_run : ∀ fuel k,
    loop options clock polls fuel k (storedFirst info polls k) =
      run (round (storedFirst info polls) (reached options clock) [] (checks options.timeout)
          [.slept options.pollInterval, .polled])
        (verdict failure (fun _ => ()) (storedFirst info polls) (reached options clock)) fuel k
  | 0, _ => rfl
  | fuel + 1, k => by
      rw [run_round, ← loop_eq_run fuel (k + 1)]
      cases storedFirst info polls k with
      | error e => rfl
      | ok latest =>
          rw [loop, timedOut_eq]
          rfl

theorem conforms : Conforms failure (fun _ => ()) (storedFirst info polls)
    (reached options clock) (wait info options clock polls) := by
  apply conforms_of_run fun fuel => loop_eq_run info options clock polls fuel 0
  intro k pre status post
  exact round_last fun status => (observed_not_mem_checks _ _ status).1

end Rust

namespace TypeScript

variable (options : WaitForBuildOptions) (clock : Clock ℚ) (polls : ℕ → Except ε TemplateBuild)

theorem loop_eq_run (pollIntervalMs : Number) (timeoutMs : Option Number) : ∀ fuel k,
    loop pollIntervalMs timeoutMs clock polls fuel k =
      run (round polls (reached timeoutMs clock) [.polled] (checks timeoutMs)
          [.slept pollIntervalMs])
        (verdict failure (expiry timeoutMs) polls (reached timeoutMs clock)) fuel k
  | 0, _ => rfl
  | fuel + 1, k => by
      rw [run_round, ← loop_eq_run pollIntervalMs timeoutMs fuel (k + 1), loop]
      cases polls k with
      | error e => rfl
      | ok info =>
          dsimp only
          rw [passed_eq]
          cases hstatus : info.status with
          | succeeded => rfl
          | failed => rfl
          | queued | building =>
              cases reached timeoutMs clock k <;> simp

theorem conforms : Conforms failure (expiry options.timeoutMs) polls
    (reached options.timeoutMs clock) (wait options clock polls) := by
  apply conforms_of_run fun fuel => loop_eq_run clock polls _ _ fuel 0
  intro k pre status post
  exact round_last fun status => (observed_not_mem_checks _ _ status).2

end TypeScript

namespace Python

variable (info : TemplateBuild) (pollInterval : Number) (timeout : Option Number) (clock : Clock ℚ)
  (polls : ℕ → Except ε TemplateBuild)

theorem loop_eq_run : ∀ fuel k,
    loop pollInterval timeout clock polls fuel k (storedFirst info polls k) =
      run (round (storedFirst info polls) (reached timeout clock) [] (checks timeout)
          [.slept pollInterval, .polled])
        (verdict failure (fun info => expiry info.buildId timeout) (storedFirst info polls)
          (reached timeout clock)) fuel k
  | 0, _ => rfl
  | fuel + 1, k => by
      rw [run_round, ← loop_eq_run fuel (k + 1)]
      cases storedFirst info polls k with
      | error e => rfl
      | ok latest =>
          rw [loop, passed_eq]
          cases hstatus : latest.status with
          | succeeded => simp [terminalStatuses, finished, hstatus]
          | failed => simp [terminalStatuses, finished, hstatus]
          | queued | building =>
              simp only [hstatus]
              rfl

theorem conforms : Conforms failure (fun info => expiry info.buildId timeout)
    (storedFirst info polls) (reached timeout clock)
    (fun fuel => loop pollInterval timeout clock polls fuel 0 (.ok info)) := by
  apply conforms_of_run fun fuel => loop_eq_run info pollInterval timeout clock polls fuel 0
  intro k pre status post
  exact round_last fun status => (observed_not_mem_checks _ _ status).1

end Python

/-- Every wait ends as its first observation of a terminal status says, or with a timeout at the
first check that finds the deadline reached, and does nothing after a terminal status. -/
theorem wait_conforms :
    (∀ (ε : Type) (info : TemplateBuild) (options : Rust.WaitOptions) (clock : Clock Instant)
        (polls : ℕ → Except ε TemplateBuild),
      Conforms Rust.failure (fun _ => ()) (storedFirst info polls) (Rust.reached options clock)
        (Rust.wait info options clock polls)) ∧
    (∀ (ε : Type) (options : TypeScript.WaitForBuildOptions) (clock : Clock ℚ)
        (polls : ℕ → Except ε TemplateBuild),
      Conforms TypeScript.failure (TypeScript.expiry options.timeoutMs) polls
        (reached options.timeoutMs clock) (TypeScript.wait options clock polls)) ∧
    (∀ (ε : Type) (info : TemplateBuild) (pollInterval : Number) (timeout : Option Number)
        (clock : Clock ℚ) (polls : ℕ → Except ε TemplateBuild),
      Conforms Python.failure (fun info => Python.expiry info.buildId timeout)
        (storedFirst info polls) (reached timeout clock)
        (Python.TemplateBuild.wait info pollInterval timeout clock polls) ∧
      Conforms Python.failure (fun info => Python.expiry info.buildId timeout)
        (storedFirst info polls) (reached timeout clock)
        (Python.AsyncTemplateBuild.wait info pollInterval timeout clock polls)) :=
  ⟨fun _ => Rust.conforms, fun _ => TypeScript.conforms,
    fun _ info pollInterval timeout clock polls =>
      ⟨Python.conforms info pollInterval timeout clock polls,
        Python.conforms info pollInterval timeout clock polls⟩⟩

end FissionPlane.Sdk.TemplateWait
