/-
# FissionPlane.Sdk.RequestPipeline -- the TypeScript SDK's retry loop under cancellation

`send` runs one call: an attempt, and after a failure worth repeating a wait and another attempt.
The caller's signal can be aborted at any moment. A state is what the loop is waiting for, an
attempt or the end of a wait; a run is a list of what happens to it. The attempt itself is the
caller's function, so how it reacts to an abort is one of its outcomes.

An abort reason is any thrown value. One that looks like a failure worth repeating only leads the
loop into a wait, and a wait on an aborted signal is refused.
-/
import FissionPlane.Lib.Attempts
import FissionPlane.Lib.History
import FissionPlane.Lib.Transition
import FissionPlane.Sdk.Retry

namespace FissionPlane.Sdk.RequestPipeline

open FissionPlane.Lib.Attempts FissionPlane.Lib.History FissionPlane.Lib.Transition
open FissionPlane.Sdk.Retry.TypeScript (ErrorClass)

/-! ## Thrown values -/

/-- `FissionPlaneError`; one that does not come from a response has no status. -/
structure FissionPlaneError where
  name : ErrorClass
  message : List Nat
  status : Option Nat
  code : Option (List Nat)
  retryable : Bool
  requestId : Option (List Nat)
  deriving DecidableEq

/-- The error of a failed response. -/
def FissionPlaneError.ofResponse (error : Retry.TypeScript.FissionPlaneError) :
    FissionPlaneError where
  name := error.name
  message := error.message
  status := some error.status
  code := error.code
  retryable := error.retryable
  requestId := error.requestId

/-- What an attempt rejects with, or a signal is aborted with. -/
inductive Thrown (ν : Type*) where
  | fissionPlane (error : FissionPlaneError)
  /-- `fetch` reports network failures as a plain `TypeError`. -/
  | typeError (message : String)
  | other (value : ν)
  deriving DecidableEq

variable {α ν : Type*}

/-- Whether a failure justifies another attempt. -/
def shouldRetry (error : Thrown ν) (idempotent : Bool) : Bool :=
  if !idempotent then false
  else
    match error with
    | .fissionPlane error => error.retryable
    | .typeError _ => true
    | .other _ => false

/-- The window `retryDelayMs` draws the wait from. -/
def retryWindowMs (attempt : Nat) : Nat := min (250 * 2 ^ attempt) 8000

/-! ## State and steps -/

structure CallSpec where
  operation : String
  idempotent : Bool

/-- The caller's signal. -/
inductive Signal (ν : Type*) where
  | absent
  | live
  | aborted (reason : Thrown ν)
  deriving DecidableEq

abbrev Outcome (α ν : Type*) := Except (Thrown ν) α

inductive Phase (α ν : Type*) where
  | attempting
  | sleeping (windowMs : Nat)
  | settled (result : Outcome α ν)

inductive Event (α ν : Type*) where
  | started
  | ended (outcome : Outcome α ν)
  | waited
  | aborted (reason : Thrown ν)

/-- `attempt` counts from zero, as in the source; the log is oldest first. -/
structure State (α ν : Type*) where
  attempt : Nat
  phase : Phase α ν
  signal : Signal ν
  log : List (Event α ν)

inductive Action (α ν : Type*) where
  | settle (outcome : Outcome α ν)
  | timer
  | abort (reason : Thrown ν)

/-- `send` is called, and starts the first attempt whatever the signal. -/
def State.init (signal : Signal ν) : State α ν where
  attempt := 0
  phase := .attempting
  signal := signal
  log :=
    match signal with
    | .aborted reason => [.aborted reason, .started]
    | .absent | .live => [.started]

/-- `sleep`: refused at once when the signal is aborted already. -/
def sleep (s : State α ν) : State α ν :=
  match s.signal with
  | .aborted reason => { s with phase := .settled (.error reason) }
  | .absent | .live => { s with phase := .sleeping (retryWindowMs s.attempt) }

/-- One turn of the loop in `send`, after the attempt. -/
def afterAttempt (maxRetries : Nat) (spec : CallSpec) (outcome : Outcome α ν) (s : State α ν) :
    State α ν :=
  match outcome with
  | .ok value => { s with phase := .settled (.ok value) }
  | .error error =>
      if maxRetries ≤ s.attempt ∨ shouldRetry error spec.idempotent = false then
        { s with phase := .settled (.error error) }
      else sleep s

/-- What can happen to a call: its attempt settles, its wait ends, its signal is aborted. -/
def step (maxRetries : Nat) (spec : CallSpec) (s : State α ν) : Action α ν → Option (State α ν)
  | .settle outcome =>
      match s.phase with
      | .attempting =>
          some (afterAttempt maxRetries spec outcome { s with log := s.log ++ [.ended outcome] })
      | _ => none
  | .timer =>
      match s.phase with
      | .sleeping _ =>
          some { s with
            attempt := s.attempt + 1
            phase := .attempting
            log := s.log ++ [.waited] ++ [.started] }
      | _ => none
  | .abort reason =>
      match s.signal with
      | .live =>
          let s := { s with signal := .aborted reason, log := s.log ++ [Event.aborted reason] }
          match s.phase with
          -- `onAbort` clears the timer and rejects the wait
          | .sleeping _ => some { s with phase := .settled (.error reason) }
          | _ => some s
      | _ => none

/-! ## What holds of a call -/

def Event.outcome? : Event α ν → Option (Outcome α ν)
  | .ended outcome => some outcome
  | _ => none

/-- The outcome is a failure worth repeating. -/
def again (spec : CallSpec) : Outcome α ν → Bool
  | .ok _ => false
  | .error error => shouldRetry error spec.idempotent

/-- Whether the event starts an attempt. -/
def Event.isStarted : Event α ν → Bool
  | .started => true
  | _ => false

namespace State

/-- The attempts made so far. -/
def attempts (s : State α ν) : Nat := s.log.countP Event.isStarted

/-- How the attempts ended, first to last. -/
def outcomes (s : State α ν) : List (Outcome α ν) := s.log.filterMap Event.outcome?

end State

/-- The law of the loop, of any state a call can reach. -/
structure Lawful (maxRetries : Nat) (spec : CallSpec) (s : State α ν) : Prop where
  bounded : s.attempts ≤ maxRetries + 1
  idempotent : 1 < s.attempts → spec.idempotent = true
  /-- Every attempt but the first follows only failures worth repeating. -/
  stops : Each (fun earlier e => e.isStarted → ∀ outcome, Event.ended outcome ∈ earlier →
    again spec outcome = true) s.log
  /-- Every attempt but the first starts as a wait ends before which nothing was aborted. -/
  cancels : Each (fun earlier e => e.isStarted → (∃ e' ∈ earlier, e'.isStarted) →
    ∃ before, earlier = before ++ [.waited] ∧ ∀ reason, Event.aborted reason ∉ before) s.log
  /-- The result is how the last attempt ended, or the reason of the abort. -/
  settles : ∀ result, s.phase = .settled result →
    s.outcomes.length = s.attempts ∧
      (s.outcomes.getLast? = some result ∨
        ∃ reason, result = .error reason ∧ Event.aborted reason ∈ s.log)
  /-- Left alone, the loop gives up on a failure worth repeating only with its budget spent. -/
  exhausts : ∀ result, s.phase = .settled result → (∀ reason, Event.aborted reason ∉ s.log) →
    again spec result = true → s.attempts = maxRetries + 1

/-! ## What a step can do -/

variable {maxRetries : Nat} {spec : CallSpec} {s s' : State α ν} {a : Action α ν}

/-- The loop gives up on an outcome, refuses to wait, or waits. -/
theorem afterAttempt_cases (maxRetries : Nat) (spec : CallSpec) (outcome : Outcome α ν)
    (s : State α ν) :
    ((again spec outcome = true → maxRetries ≤ s.attempt) ∧
      afterAttempt maxRetries spec outcome s = { s with phase := .settled outcome }) ∨
    (again spec outcome = true ∧ s.attempt < maxRetries ∧
      ((∃ reason, s.signal = .aborted reason ∧
          afterAttempt maxRetries spec outcome s = { s with phase := .settled (.error reason) }) ∨
        ((∀ reason, s.signal ≠ .aborted reason) ∧
          afterAttempt maxRetries spec outcome s =
            { s with phase := .sleeping (retryWindowMs s.attempt) }))) := by
  cases outcome with
  | ok value => exact .inl ⟨fun h => absurd h (by simp [again]), rfl⟩
  | error error =>
      by_cases hgive : maxRetries ≤ s.attempt ∨ shouldRetry error spec.idempotent = false
      · refine .inl ⟨fun h => hgive.resolve_right ?_, by rw [afterAttempt, if_pos hgive]⟩
        simpa [again] using h
      · right
        obtain ⟨hlt, hretry⟩ := not_or.mp hgive
        refine ⟨by simpa [again] using hretry, Nat.lt_of_not_le hlt, ?_⟩
        rw [afterAttempt, if_neg hgive, sleep]
        cases s.signal with
        | aborted reason => exact .inl ⟨reason, rfl, rfl⟩
        | absent => exact .inr ⟨nofun, rfl⟩
        | live => exact .inr ⟨nofun, rfl⟩

theorem step_cases (h : step maxRetries spec s a = some s') :
    (∃ outcome, a = .settle outcome ∧ s.phase = .attempting ∧
      s' = afterAttempt maxRetries spec outcome { s with log := s.log ++ [.ended outcome] }) ∨
    (∃ windowMs, a = .timer ∧ s.phase = .sleeping windowMs ∧
      s' = { s with
        attempt := s.attempt + 1
        phase := .attempting
        log := s.log ++ [.waited] ++ [.started] }) ∨
    (∃ reason phase, a = .abort reason ∧ s.signal = .live ∧
      ((∃ windowMs, s.phase = .sleeping windowMs ∧ phase = .settled (.error reason)) ∨
        (∀ windowMs, s.phase ≠ .sleeping windowMs) ∧ phase = s.phase) ∧
      s' = { s with
        phase := phase
        signal := .aborted reason
        log := s.log ++ [.aborted reason] }) := by
  cases a with
  | settle outcome =>
      simp only [step] at h
      split at h
      · next hphase => exact .inl ⟨outcome, rfl, hphase, (Option.some.inj h).symm⟩
      · cases h
  | timer =>
      simp only [step] at h
      split at h
      · next windowMs hphase =>
          exact .inr (.inl ⟨windowMs, rfl, hphase, (Option.some.inj h).symm⟩)
      · cases h
  | abort reason =>
      simp only [step] at h
      split at h
      · next hsignal =>
          split at h
          · next windowMs hphase =>
              exact .inr (.inr ⟨reason, _, rfl, hsignal, .inl ⟨windowMs, hphase, rfl⟩,
                (Option.some.inj h).symm⟩)
          · next hphase =>
              exact .inr (.inr ⟨reason, _, rfl, hsignal, .inr ⟨hphase, rfl⟩,
                (Option.some.inj h).symm⟩)
      · cases h

/-! ## The invariant -/

/-- Every outcome so far is a failure worth repeating. -/
def AllAgain (spec : CallSpec) (s : State α ν) : Prop :=
  ∀ outcome, Event.ended outcome ∈ s.log → again spec outcome = true

/-- What holds while the loop waits for something, by what it waits for. -/
structure Inv (maxRetries : Nat) (spec : CallSpec) (s : State α ν) : Prop where
  lawful : Lawful maxRetries spec s
  attempts : s.attempts = s.attempt + 1
  signal : ∀ reason, Event.aborted reason ∈ s.log ↔ s.signal = .aborted reason
  attempting : s.phase = .attempting → s.outcomes.length = s.attempt ∧ AllAgain spec s
  sleeping : ∀ windowMs, s.phase = .sleeping windowMs →
    s.outcomes.length = s.attempt + 1 ∧ AllAgain spec s ∧ s.attempt < maxRetries ∧
      spec.idempotent = true ∧ ∀ reason, s.signal ≠ .aborted reason

theorem idempotent_of_again {outcome : Outcome α ν} (h : again spec outcome = true) :
    spec.idempotent = true := by
  cases outcome with
  | ok value => cases h
  | error error =>
      by_contra hidem
      simp [again, shouldRetry, hidem] at h

/-- The conditions on the order of events. -/
structure OrderLawful (spec : CallSpec) (log : List (Event α ν)) : Prop where
  stops : Each (fun earlier e => e.isStarted → ∀ outcome, Event.ended outcome ∈ earlier →
    again spec outcome = true) log
  cancels : Each (fun earlier e => e.isStarted → (∃ e' ∈ earlier, e'.isStarted) →
    ∃ before, earlier = before ++ [.waited] ∧ ∀ reason, Event.aborted reason ∉ before) log

/-- An event that starts no attempt may come at any time. -/
theorem OrderLawful.concat {log : List (Event α ν)} (h : OrderLawful spec log) {e : Event α ν}
    (he : e.isStarted = false) : OrderLawful spec (log ++ [e]) where
  stops := h.stops.concat fun hstart => absurd hstart (by simp [he])
  cancels := h.cancels.concat fun hstart => absurd hstart (by simp [he])

theorem Inv.order (h : Inv maxRetries spec s) : OrderLawful spec s.log :=
  ⟨h.lawful.stops, h.lawful.cancels⟩

theorem attempts_concat {e : Event α ν} (hlog : s'.log = s.log ++ [e]) (he : e.isStarted = false) :
    s'.attempts = s.attempts := by
  simp [State.attempts, hlog, he]

theorem outcomes_concat {e : Event α ν} (hlog : s'.log = s.log ++ [e]) :
    s'.outcomes = s.outcomes ++ e.outcome?.toList := by
  cases e <;> simp [State.outcomes, hlog, Event.outcome?]

/-- The call is over, its last attempt being the last event but perhaps for an abort. -/
theorem Inv.settled (h : Inv maxRetries spec s) {result : Outcome α ν} {e : Event α ν}
    (hphase : s'.phase = .settled result) (hattempt : s'.attempt = s.attempt)
    (hlog : s'.log = s.log ++ [e]) (he : e.isStarted = false)
    (hsignal : ∀ reason, Event.aborted reason ∈ s'.log ↔ s'.signal = .aborted reason)
    (hlength : s'.outcomes.length = s.attempt + 1)
    (hresult : s'.outcomes.getLast? = some result ∨
      ∃ reason, result = .error reason ∧ Event.aborted reason ∈ s'.log)
    (hexhausts : (∀ reason, Event.aborted reason ∉ s'.log) → again spec result = true →
      maxRetries ≤ s.attempt) : Inv maxRetries spec s' := by
  have hattempts := attempts_concat hlog he
  have horder : OrderLawful spec s'.log := hlog ▸ h.order.concat he
  have hbounded := h.lawful.bounded
  have hcount := h.attempts
  refine ⟨⟨?_, ?_, horder.stops, horder.cancels, ?_, ?_⟩, ?_, hsignal, ?_, ?_⟩
  · rw [hattempts]
    exact hbounded
  · rw [hattempts]
    exact h.lawful.idempotent
  · intro result' hresult'
    obtain rfl := Phase.settled.inj (hphase.symm.trans hresult')
    exact ⟨by omega, hresult⟩
  · intro result' hresult' hnone hagain
    obtain rfl := Phase.settled.inj (hphase.symm.trans hresult')
    have hspent := hexhausts hnone hagain
    omega
  · omega
  · intro hattempting
    cases hphase.symm.trans hattempting
  · intro windowMs hsleeping
    cases hphase.symm.trans hsleeping

/-- The attempt in flight ends. -/
theorem Inv.afterAttempt (h : Inv maxRetries spec s) (hphase : s.phase = .attempting)
    (outcome : Outcome α ν) :
    Inv maxRetries spec
      (afterAttempt maxRetries spec outcome { s with log := s.log ++ [.ended outcome] }) := by
  obtain ⟨hlength, hall⟩ := h.attempting hphase
  have hout : ({ s with log := s.log ++ [.ended outcome] } : State α ν).outcomes =
      s.outcomes ++ [outcome] := outcomes_concat (e := .ended outcome) rfl
  have hlength' : (s.outcomes ++ [outcome]).length = s.attempt + 1 := by
    rw [List.length_append, hlength]
    rfl
  have hsignal : ∀ reason, Event.aborted reason ∈ s.log ++ [.ended outcome] ↔
      s.signal = .aborted reason := by
    intro reason
    simpa using h.signal reason
  obtain ⟨hgive, heq⟩ | ⟨hagain, hlt, ⟨reason, haborted, heq⟩ | ⟨hnot, heq⟩⟩ :=
    afterAttempt_cases maxRetries spec outcome { s with log := s.log ++ [.ended outcome] }
  · rw [heq]
    refine h.settled rfl rfl rfl rfl hsignal ((congrArg List.length hout).trans hlength') ?_ ?_
    · exact .inl ((congrArg List.getLast? hout).trans List.getLast?_concat)
    · exact fun _ hagain => hgive hagain
  · rw [heq]
    have hmem : Event.aborted reason ∈ s.log ++ [.ended outcome] := (hsignal reason).mpr haborted
    refine h.settled rfl rfl rfl rfl hsignal ((congrArg List.length hout).trans hlength') ?_ ?_
    · exact .inr ⟨reason, rfl, hmem⟩
    · exact fun hnone _ => absurd hmem (hnone reason)
  · rw [heq]
    have horder := h.order.concat (e := .ended outcome) rfl
    have hattempts : ({ s with log := s.log ++ [.ended outcome] } : State α ν).attempts =
        s.attempts := attempts_concat rfl rfl
    refine ⟨⟨?_, ?_, horder.stops, horder.cancels, nofun, nofun⟩, ?_, hsignal, nofun, ?_⟩
    · exact hattempts.le.trans h.lawful.bounded
    · exact fun hmany => h.lawful.idempotent (hattempts ▸ hmany)
    · exact hattempts.trans h.attempts
    · intro _ _
      refine ⟨(congrArg List.length hout).trans hlength', ?_, hlt, idempotent_of_again hagain, hnot⟩
      intro outcome' hmem
      rcases List.mem_append.mp hmem with hmem | hmem
      · exact hall outcome' hmem
      · obtain rfl : outcome' = outcome := by simpa using hmem
        exact hagain

/-- The wait ends and the next attempt starts. -/
theorem Inv.timer (h : Inv maxRetries spec s) {windowMs : Nat}
    (hphase : s.phase = .sleeping windowMs) :
    Inv maxRetries spec { s with
      attempt := s.attempt + 1
      phase := .attempting
      log := s.log ++ [.waited] ++ [.started] } := by
  obtain ⟨hlength, hall, hlt, hidem, hnot⟩ := h.sleeping windowMs hphase
  have horder := h.order.concat (e := .waited) rfl
  have hcount := h.attempts
  have hattempts : ({ s with
      attempt := s.attempt + 1
      phase := .attempting
      log := s.log ++ [.waited] ++ [.started] } : State α ν).attempts = s.attempts + 1 := by
    simp [State.attempts, Event.isStarted]
  have hall' : ∀ outcome, Event.ended outcome ∈ s.log ++ [.waited] → again spec outcome = true := by
    intro outcome hmem
    exact hall outcome (by simpa using hmem)
  refine ⟨⟨?_, fun _ => hidem, horder.stops.concat fun _ => hall', ?_, nofun, nofun⟩, ?_, ?_, ?_,
    nofun⟩
  · omega
  · refine horder.cancels.concat fun _ _ => ⟨s.log, rfl, fun reason hmem => ?_⟩
    exact hnot reason ((h.signal reason).mp hmem)
  · show _ = s.attempt + 1 + 1
    omega
  · intro reason
    simpa using h.signal reason
  · intro _
    refine ⟨?_, fun outcome hmem => hall' outcome (by simpa using hmem)⟩
    simpa [State.outcomes, Event.outcome?, List.filterMap_cons] using hlength

/-- The caller aborts: a wait is over at once, an attempt goes on. -/
theorem Inv.abort (h : Inv maxRetries spec s) {reason : Thrown ν} {phase : Phase α ν}
    (hlive : s.signal = .live)
    (hphase : (∃ windowMs, s.phase = .sleeping windowMs ∧ phase = .settled (.error reason)) ∨
      (∀ windowMs, s.phase ≠ .sleeping windowMs) ∧ phase = s.phase) :
    Inv maxRetries spec { s with
      phase := phase
      signal := .aborted reason
      log := s.log ++ [.aborted reason] } := by
  have hmem : Event.aborted reason ∈ s.log ++ [.aborted reason] := by simp
  have hsignal : ∀ reason', Event.aborted reason' ∈ s.log ++ [.aborted reason] ↔
      Signal.aborted reason = .aborted reason' := by
    intro reason'
    have hnone : Event.aborted reason' ∉ s.log := by
      rw [h.signal reason', hlive]
      nofun
    simp [hnone, eq_comm]
  have hout : ({ s with
      phase := phase
      signal := .aborted reason
      log := s.log ++ [.aborted reason] } : State α ν).outcomes = s.outcomes := by
    simp [State.outcomes, Event.outcome?]
  have hattempts : ({ s with
      phase := phase
      signal := .aborted reason
      log := s.log ++ [.aborted reason] } : State α ν).attempts = s.attempts :=
    attempts_concat rfl rfl
  have horder := h.order.concat (e := .aborted reason) rfl
  obtain ⟨windowMs, hsleeping, rfl⟩ | ⟨hawake, rfl⟩ := hphase
  · obtain ⟨hlength, -⟩ := h.sleeping windowMs hsleeping
    refine h.settled rfl rfl rfl rfl hsignal ((congrArg List.length hout).trans hlength) ?_ ?_
    · exact .inr ⟨reason, rfl, hmem⟩
    · exact fun hnone _ => absurd hmem (hnone reason)
  · refine ⟨⟨?_, ?_, horder.stops, horder.cancels, ?_, ?_⟩, ?_, hsignal, ?_, ?_⟩
    · exact hattempts.le.trans h.lawful.bounded
    · exact fun hmany => h.lawful.idempotent (hattempts ▸ hmany)
    · intro result hresult
      obtain ⟨hlength, hresult⟩ := h.lawful.settles result hresult
      refine ⟨by rw [hout, hattempts]; exact hlength, ?_⟩
      rw [hout]
      exact hresult.imp id fun ⟨reason', heq, hmem'⟩ =>
        ⟨reason', heq, List.mem_append_left _ hmem'⟩
    · exact fun _ _ hnone => absurd hmem (hnone reason)
    · exact hattempts.trans h.attempts
    · intro hattempting
      obtain ⟨hlength, hall⟩ := h.attempting hattempting
      exact ⟨(congrArg List.length hout).trans hlength, fun outcome hout' =>
        hall outcome (by simpa using hout')⟩
    · exact fun windowMs hsleeping => absurd hsleeping (hawake windowMs)

theorem Inv.step (h : Inv maxRetries spec s) (hstep : step maxRetries spec s a = some s') :
    Inv maxRetries spec s' := by
  obtain ⟨outcome, rfl, hphase, rfl⟩ | ⟨windowMs, rfl, hphase, rfl⟩ |
    ⟨reason, phase, rfl, hlive, hphase, rfl⟩ := step_cases hstep
  · exact h.afterAttempt hphase outcome
  · exact h.timer hphase
  · exact h.abort hlive hphase

/-- The first attempt may start after anything that is neither an attempt nor its end. -/
theorem OrderLawful.first {log : List (Event α ν)} (h : OrderLawful spec log)
    (hstarted : ∀ e ∈ log, e.isStarted = false) (hended : ∀ outcome, Event.ended outcome ∉ log) :
    OrderLawful spec (log ++ [.started]) where
  stops := h.stops.concat fun _ outcome hmem => absurd hmem (hended outcome)
  cancels := by
    refine h.cancels.concat ?_
    rintro - ⟨e, hmem, he⟩
    simp [hstarted e hmem] at he

theorem orderLawful_init (spec : CallSpec) (signal : Signal ν) :
    OrderLawful spec (State.init signal : State α ν).log := by
  have hempty : OrderLawful spec ([] : List (Event α ν)) := ⟨each_nil, each_nil⟩
  cases signal with
  | absent | live => exact hempty.first (by simp) (by simp)
  | aborted reason =>
      exact (hempty.concat (e := .aborted reason) rfl).first (by simp [Event.isStarted]) (by simp)

theorem inv_init (maxRetries : Nat) (spec : CallSpec) (signal : Signal ν) :
    Inv maxRetries spec (State.init signal : State α ν) := by
  have horder := orderLawful_init (α := α) spec signal
  have hattempts : (State.init signal : State α ν).attempts = 1 := by
    cases signal <;> rfl
  have hended : ∀ outcome, Event.ended outcome ∉ (State.init signal : State α ν).log := by
    intro outcome
    cases signal <;> simp [State.init]
  refine ⟨⟨?_, ?_, horder.stops, horder.cancels, nofun, nofun⟩, hattempts, ?_, ?_, nofun⟩
  · omega
  · omega
  · intro reason
    cases signal <;> simp [State.init, eq_comm]
  · intro _
    refine ⟨?_, fun outcome hmem => absurd hmem (hended outcome)⟩
    cases signal <;> rfl

/-! ## A call comes to an end -/

/-- How much can still happen to a call. -/
def State.remaining (maxRetries : Nat) (s : State α ν) : Nat :=
  (match s.phase with
    | .attempting => 2 * (maxRetries - s.attempt) + 1
    | .sleeping _ => 2 * (maxRetries - s.attempt)
    | .settled _ => 0) +
  match s.signal with
  | .live => 1
  | .absent | .aborted _ => 0

/-- Every step uses some of it up. -/
theorem remaining_lt (h : Inv maxRetries spec s) (hstep : step maxRetries spec s a = some s') :
    s'.remaining maxRetries < s.remaining maxRetries := by
  obtain ⟨outcome, rfl, hphase, rfl⟩ | ⟨windowMs, rfl, hphase, rfl⟩ |
    ⟨reason, phase, rfl, hlive, hphase, rfl⟩ := step_cases hstep
  · obtain ⟨-, heq⟩ | ⟨-, hlt, ⟨reason, -, heq⟩ | ⟨-, heq⟩⟩ :=
      afterAttempt_cases maxRetries spec outcome { s with log := s.log ++ [.ended outcome] } <;>
    · rw [heq]
      simp only [State.remaining, hphase]
      omega
  · obtain ⟨-, -, hlt, -⟩ := h.sleeping windowMs hphase
    simp only [State.remaining, hphase]
    omega
  · obtain ⟨windowMs, hsleeping, rfl⟩ | ⟨-, rfl⟩ := hphase
    · simp only [State.remaining, hsleeping, hlive]
      omega
    · simp only [State.remaining, hlive]
      omega

theorem length_le {as : List (Action α ν)} :
    ∀ {s s' : State α ν}, Inv maxRetries spec s → run (step maxRetries spec) s as = some s' →
      as.length ≤ s.remaining maxRetries := by
  induction as with
  | nil => exact fun _ _ => Nat.zero_le _
  | cons a as ih =>
      intro s s' h hrun
      obtain ⟨s₁, hstep, hrest⟩ := run_cons_eq_some.mp hrun
      have hlt := remaining_lt h hstep
      have hle := ih (h.step hstep) hrest
      rw [List.length_cons]
      omega

/-- Whatever its attempts do and whenever it is aborted, a call keeps to the law of the loop; only
so much can happen to it, and when neither an attempt nor a wait is left to end it has settled. -/
theorem send_lawful {signal : Signal ν} {as : List (Action α ν)}
    (hrun : run (step maxRetries spec) (State.init signal) as = some s) :
    Lawful maxRetries spec s ∧ as.length ≤ 2 * maxRetries + 2 ∧
      ((∀ outcome, step maxRetries spec s (.settle outcome) = none) →
        step maxRetries spec s .timer = none → ∃ result, s.phase = .settled result) := by
  have hinit := inv_init (α := α) maxRetries spec signal
  refine ⟨(run_inv Inv.step hinit hrun).lawful, ?_, ?_⟩
  · have hle := length_le hinit hrun
    have hstart : (State.init signal : State α ν).remaining maxRetries ≤ 2 * maxRetries + 2 := by
      cases signal <;> simp [State.remaining, State.init]
    omega
  · intro hsettle htimer
    cases hphase : s.phase with
    | settled result => exact ⟨result, rfl⟩
    | sleeping windowMs => simp [step, hphase] at htimer
    | attempting =>
        have hnone := hsettle (.error (.typeError ""))
        simp [step, hphase] at hnone

/-! ## A call without a signal -/

variable {outcome : ℕ → Outcome α ν}

/-- What the loop waits for happens: attempt `k` ends with `outcome k`, a wait runs out. -/
def advance (maxRetries : Nat) (spec : CallSpec) (outcome : ℕ → Outcome α ν) (s : State α ν) :
    State α ν :=
  match s.phase with
  | .attempting => (step maxRetries spec s (.settle (outcome s.attempt))).getD s
  | .sleeping _ => (step maxRetries spec s .timer).getD s
  | .settled _ => s

/-- A whole call whose signal, if it has one, is never aborted. -/
def send (maxRetries : Nat) (spec : CallSpec) (outcome : ℕ → Outcome α ν) : State α ν :=
  (advance maxRetries spec outcome)^[2 * maxRetries + 1] (.init .absent)

/-- A failure worth repeating within the budget: the loop waits, and starts the next attempt. -/
theorem advance_again (hphase : s.phase = .attempting) (hsignal : s.signal = .absent)
    (hagain : again spec (outcome s.attempt) = true) (hlt : s.attempt < maxRetries) :
    advance maxRetries spec outcome (advance maxRetries spec outcome s) =
      { s with
        attempt := s.attempt + 1
        log := s.log ++ [.ended (outcome s.attempt)] ++ [.waited] ++ [.started] } := by
  have hone : advance maxRetries spec outcome s =
      { s with
        phase := .sleeping (retryWindowMs s.attempt)
        log := s.log ++ [.ended (outcome s.attempt)] } := by
    obtain ⟨hgive, -⟩ | ⟨-, -, ⟨reason, haborted, -⟩ | ⟨-, heq⟩⟩ :=
      afterAttempt_cases maxRetries spec (outcome s.attempt)
        { s with log := s.log ++ [.ended (outcome s.attempt)] }
    · exact absurd (hgive hagain) (Nat.not_le_of_lt hlt)
    · cases hsignal.symm.trans haborted
    · simp only [advance, hphase, step, Option.getD_some]
      exact heq
  rw [hone]
  simp [advance, step, hphase]

/-- Any other outcome, or a spent budget: the call settles with it. -/
theorem advance_last (hphase : s.phase = .attempting)
    (hstops : again spec (outcome s.attempt) = true → maxRetries ≤ s.attempt) :
    advance maxRetries spec outcome s =
      { s with
        phase := .settled (outcome s.attempt)
        log := s.log ++ [.ended (outcome s.attempt)] } := by
  obtain ⟨-, heq⟩ | ⟨hagain, hlt, -⟩ := afterAttempt_cases maxRetries spec
    (outcome s.attempt) { s with log := s.log ++ [.ended (outcome s.attempt)] }
  · simp only [advance, hphase, step, Option.getD_some]
    exact heq
  · exact absurd (hstops hagain) (Nat.not_le_of_lt hlt)

theorem advance_settled {result : Outcome α ν} (hphase : s.phase = .settled result) :
    advance maxRetries spec outcome s = s := by
  simp [advance, hphase]

/-- The attempt numbered `m` is reached after `m` failures worth repeating. -/
theorem advance_iterate {m : ℕ} (hle : m ≤ maxRetries)
    (hagain : ∀ k < m, again spec (outcome k) = true) :
    ∃ s : State α ν, (advance maxRetries spec outcome)^[2 * m] (.init .absent) = s ∧
      s.phase = .attempting ∧ s.signal = .absent ∧ s.attempt = m ∧ s.attempts = m + 1 := by
  induction m with
  | zero => exact ⟨_, rfl, rfl, rfl, rfl, rfl⟩
  | succ m ih =>
      obtain ⟨s, hs, hphase, hsignal, hattempt, hattempts⟩ :=
        ih (by omega) fun k hk => hagain k (by omega)
      have hretry : again spec (outcome s.attempt) = true := by
        rw [hattempt]
        exact hagain m (Nat.lt_succ_self m)
      have hlt : s.attempt < maxRetries := by omega
      have hstep := advance_again hphase hsignal hretry hlt
      refine ⟨{ s with
        attempt := s.attempt + 1
        log := s.log ++ [.ended (outcome s.attempt)] ++ [.waited] ++ [.started] }, ?_, hphase,
        hsignal, congrArg (· + 1) hattempt, ?_⟩
      · rw [Nat.mul_succ, Nat.add_comm, Function.iterate_add_apply, hs]
        exact hstep
      · rw [← hattempts]
        simp [State.attempts, Event.isStarted]

theorem advance_iterate_settled {result : Outcome α ν} (hphase : s.phase = .settled result)
    (m : ℕ) : (advance maxRetries spec outcome)^[m] s = s := by
  induction m with
  | zero => rfl
  | succ m ih => rw [Function.iterate_succ_apply, advance_settled hphase, ih]

/-- Without an abort the loop makes as many attempts as its budget and the outcomes allow, and
settles with the outcome of the last one. -/
theorem send_spec (maxRetries : Nat) (spec : CallSpec) (outcome : ℕ → Outcome α ν) :
    ∃ n, IsLast (again spec) outcome maxRetries n ∧
      (send maxRetries spec outcome).phase = .settled (outcome n) ∧
      (send maxRetries spec outcome).attempts = n + 1 := by
  obtain ⟨n, hlast⟩ := exists_isLast (again spec) outcome maxRetries
  obtain ⟨s, hs, hphase, -, hattempt, hattempts⟩ :=
    advance_iterate (α := α) (ν := ν) hlast.le hlast.again_of_lt
  have hstops : again spec (outcome s.attempt) = true → maxRetries ≤ s.attempt := by
    intro hagain
    rw [hattempt] at hagain ⊢
    exact (hlast.stops.resolve_right (by simp [hagain])).ge
  have hend := advance_last hphase hstops
  refine ⟨n, hlast, ?_⟩
  -- the wait and the attempt that are left of the budget change nothing any more
  have hcount : 2 * maxRetries + 1 = (2 * (maxRetries - n)) + (1 + 2 * n) := by
    have hle := hlast.le
    omega
  have hsend : send maxRetries spec outcome =
      { s with
        phase := .settled (outcome s.attempt)
        log := s.log ++ [.ended (outcome s.attempt)] } := by
    rw [send, hcount, Function.iterate_add_apply, Function.iterate_add_apply, hs,
      Function.iterate_one, hend]
    exact advance_iterate_settled rfl _
  rw [hsend, hattempt]
  refine ⟨rfl, ?_⟩
  rw [← hattempts]
  exact attempts_concat rfl rfl

/-- Fails, waits, fails, and is aborted in its second wait. -/
def abortedInWait : List (Action Nat Empty) :=
  [.settle (.error (.typeError "fetch failed")), .timer,
    .settle (.error (.typeError "fetch failed")), .abort (.typeError "stop")]

/-- The reason itself looks worth repeating, and still there is no third attempt. -/
theorem send_lawful_abortedInWait :
    ∃ s, run (step 5 ⟨"GET /v1/sandboxes", true⟩) (.init .live) abortedInWait = some s ∧
      s.attempts = 2 ∧ s.phase = .settled (.error (.typeError "stop")) ∧
      Lawful 5 ⟨"GET /v1/sandboxes", true⟩ s := by
  have hrun : run (step 5 ⟨"GET /v1/sandboxes", true⟩) (.init .live) abortedInWait = some _ := rfl
  exact ⟨_, hrun, rfl, rfl, (send_lawful hrun).1⟩

end FissionPlane.Sdk.RequestPipeline
