/-
# FissionPlane.Sdk.HttpFetch -- how far a TypeScript call's deadline and its signal reach

Each attempt of a call goes through the fetch wrapper, which starts a timer, listens to the caller's
signal, and lets go of both as soon as it has the response's headers. The body is read afterwards:
by the generated client within the attempt, or, for a download, after the retry loop has returned.

The state of a call is that of its retry loop and of the wrapper of its last attempt. The schedule
says when headers, body, failures, ticks of the clock and the abort arrive. A deadline and an abort
that land before the headers end the attempt; one that lands in the body does not.
-/
import FissionPlane.Lib.Transition
import FissionPlane.Sdk.DataPlane

namespace FissionPlane.Sdk.HttpFetch

open FissionPlane.Lib.Transition
open FissionPlane.Sdk.RequestPipeline (CallSpec FissionPlaneError Outcome Signal Thrown)
open FissionPlane.Sdk.DataPlane.TypeScript (isAuthenticationError requestTimeout)
open FissionPlane.Sdk.Retry.TypeScript (errorFromResponse)

variable {α ν : Type*}

/-! ## State -/

/-- Who reads the body of a response: the generated client, within the attempt; `SandboxFiles.read`,
after the retry loop; or, after `SandboxFiles.write`, nobody. The last two read the body of an error
within the attempt. -/
inductive Reading (α : Type*) where
  | parsed
  | downloaded
  | discarded (value : α)

/-- What one call depends on. `timeoutMs` is the timeout that applies to it, 0 for none; a call of
the data plane can mint a token. -/
structure Setup (α : Type*) where
  maxRetries : ℕ
  spec : CallSpec
  url : String
  timeoutMs : ℕ
  reading : Reading α
  mints : Bool

/-- The fetch wrapper of an attempt: its timer, whether an abort is forwarded to the outbound
request, and the status once the headers are there. -/
structure Wrapper where
  startedAt : ℕ
  timer : Option ℕ
  forwards : Bool
  status : Option ℕ
  deriving DecidableEq

/-- Where a call is: in `RequestPipeline.send`, in `sandbox.mintToken`, in `response.arrayBuffer`,
or at its end. -/
inductive Stage (α ν : Type*) where
  | sending
  | minting
  | downloading
  | settled (result : Outcome α ν)

/-- `send` returns a value that was read within the attempt, or the response itself. `cancelled`
counts the outbound requests aborted so far. -/
structure State (α ν : Type*) where
  now : ℕ
  send : RequestPipeline.State (Option α) ν
  wrapper : Wrapper
  replayed : Bool
  stage : Stage α ν
  cancelled : ℕ

inductive Action (α ν : Type*) where
  | headers (status : ℕ)
  | chunk
  /-- The body is complete, and read as this outcome. -/
  | bodyEnd (outcome : Outcome α ν)
  /-- The connection fails. -/
  | failure (message : String)
  | tick
  /-- The wait before a replay ends. -/
  | wake
  | abort (reason : Thrown ν)
  | minted (reply : Except (Thrown ν) String)

variable (setup : Setup α)

/-! ## Steps -/

/-- Where `send` and `withFreshToken` leave the call once the loop is where it is. -/
def afterSend (s : State α ν) : State α ν :=
  match s.send.phase with
  | .attempting | .sleeping _ => s
  | .settled (.ok (some value)) => { s with stage := .settled (.ok value) }
  | .settled (.ok none) =>
      match setup.reading with
      | .discarded value => { s with stage := .settled (.ok value) }
      | .parsed | .downloaded => { s with stage := .downloading }
  | .settled (.error error) =>
      if isAuthenticationError error && setup.mints && !s.replayed then { s with stage := .minting }
      else { s with stage := .settled (.error error) }

/-- The wrapper's `finally`; without a timeout there is none, and the request keeps the caller's
signal. -/
def Wrapper.finally (wrapper : Wrapper) : Wrapper :=
  if setup.timeoutMs = 0 then wrapper else { wrapper with timer := none, forwards := false }

/-- The attempt in flight ends. -/
def settleAttempt (outcome : Outcome (Option α) ν) (s : State α ν) : State α ν :=
  afterSend setup { s with
    send := RequestPipeline.afterAttempt setup.maxRetries setup.spec outcome
      { s.send with log := s.send.log ++ [.ended outcome] }
    wrapper := s.wrapper.finally setup }

/-- An attempt starts: the wrapper sets its timer, and forwards an abort that has happened at once,
so that the request is rejected. -/
def startAttempt (s : State α ν) : State α ν :=
  let s := { s with
    wrapper :=
      { startedAt := s.now
        timer := if setup.timeoutMs = 0 then none else some (s.now + setup.timeoutMs)
        forwards := true
        status := none } }
  match s.send.signal with
  | .aborted reason => settleAttempt setup (.error reason) { s with cancelled := s.cancelled + 1 }
  | .absent | .live => s

/-- The headers or the body that something waits for is rejected. The reader of an error's body
takes that for a body it cannot parse. -/
def rejectRead (error : Thrown ν) (s : State α ν) : State α ν :=
  match s.stage with
  | .downloading => { s with stage := .settled (.error error) }
  | .sending =>
      match s.wrapper.status, setup.reading with
      | none, _ | some _, .parsed => settleAttempt setup (.error error) s
      | some status, .downloaded | some status, .discarded _ =>
          settleAttempt setup
            (.error (.fissionPlane (.ofResponse (errorFromResponse status none)))) s
  | .minting | .settled _ => s

/-- A call starts, under the caller's signal. -/
def State.init (signal : Signal ν) : State α ν :=
  startAttempt setup
    { now := 0
      send := .init signal
      wrapper := ⟨0, none, false, none⟩
      replayed := false
      stage := .sending
      cancelled := 0 }

/-- `send` has an attempt in flight. -/
def State.attempting (s : State α ν) : Bool :=
  match s.stage, s.send.phase with
  | .sending, .attempting => true
  | _, _ => false

/-- The headers are there, and the body is being read. -/
def State.inBody (s : State α ν) : Bool :=
  match s.stage with
  | .downloading => true
  | .sending => s.attempting && s.wrapper.status.isSome
  | .minting | .settled _ => false

/-- The response of an attempt is not completely received. -/
def State.pending (s : State α ν) : Bool := s.attempting || s.inBody

/-- `response.ok` -/
def isOk (status : ℕ) : Bool := decide (200 ≤ status) && decide (status ≤ 299)

def step (s : State α ν) : Action α ν → Option (State α ν)
  | .headers status =>
      if s.attempting && s.wrapper.status.isNone then
        let s := { s with wrapper := { s.wrapper.finally setup with status := some status } }
        match setup.reading, isOk status with
        | .parsed, _ | _, false => some s
        | .downloaded, true | .discarded _, true => some (settleAttempt setup (.ok none) s)
      else none
  | .chunk => if s.inBody then some s else none
  | .bodyEnd outcome =>
      if s.inBody then
        match s.stage, setup.reading, outcome with
        | .downloading, _, .ok value => some { s with stage := .settled (.ok value) }
        | .downloading, _, .error _ => none
        | _, .parsed, outcome => some (settleAttempt setup (outcome.map some) s)
        | _, _, .error error => some (settleAttempt setup (.error error) s)
        | _, _, .ok _ => none
      else none
  | .failure message =>
      if s.pending then some (rejectRead setup (.typeError message) s) else none
  | .tick =>
      let s := { s with now := s.now + 1 }
      match s.wrapper.timer with
      | none => some s
      | some due =>
          if s.now < due then some s
          else
            -- the deadline decides the outcome, and the abort releases the transport
            some (settleAttempt setup (.error (requestTimeout setup.url setup.timeoutMs))
              { s with cancelled := s.cancelled + 1 })
  | .wake =>
      match s.stage with
      | .sending =>
          (RequestPipeline.step setup.maxRetries setup.spec s.send .timer).map fun send =>
            startAttempt setup { s with send := send }
      | _ => none
  | .abort reason =>
      match s.stage with
      | .settled _ => none
      | _ =>
          (RequestPipeline.step setup.maxRetries setup.spec s.send (.abort reason)).map fun send =>
            let pending := s.pending && s.wrapper.forwards
            let s := { s with send := send }
            if pending then rejectRead setup reason { s with cancelled := s.cancelled + 1 }
            else
              match s.stage with
              | .sending => afterSend setup s
              | _ => s
  | .minted reply =>
      match s.stage, reply with
      | .minting, .error error => some { s with stage := .settled (.error error) }
      | .minting, .ok _ =>
          some (startAttempt setup
            { s with replayed := true, send := .init s.send.signal, stage := .sending })
      | _, _ => none

/-! ## What the deadline and the signal promise -/

/-- A request made for the call is outstanding. -/
def State.inFlight (s : State α ν) : Prop := s.pending = true ∨ s.stage = .minting

/-- The promise is rejected. -/
def State.Rejected (s : State α ν) : Prop := ∃ error, s.stage = .settled (.error error)

/-- The promise is rejected, or is as soon as a mint is replied to. -/
def State.Rejecting (s : State α ν) : Prop :=
  s.Rejected ∨
    (s.stage = .minting ∧ ∀ reply s', step setup s (.minted reply) = some s' → s'.Rejected)

/-- What a step has to do for deadline and signal to reach to the end of the call. -/
structure ReachesToEnd (s : State α ν) (a : Action α ν) (s' : State α ν) : Prop where
  /-- An abort aborts the outbound request. -/
  cancels : ∀ reason, a = .abort reason → s.inFlight → s'.cancelled = s.cancelled + 1
  /-- From an abort on the promise is rejected. -/
  rejects : ∀ reason, s'.send.signal = .aborted reason → s'.Rejecting setup
  /-- An attempt whose response is not complete when its time is up fails with a timeout. -/
  expires : a = .tick → s.pending = true → s.wrapper.startedAt + setup.timeoutMs ≤ s.now + 1 →
    s'.send.log = s.send.log ++ [.ended (.error (requestTimeout setup.url setup.timeoutMs))]

/-- No abort lands in a body or during a mint, and no attempt's time is up in a body. -/
structure LandsBeforeBody (s : State α ν) (a : Action α ν) (_ : State α ν) : Prop where
  abort : ∀ reason, a = .abort reason → s.inBody = false ∧ s.stage ≠ .minting
  tick : a = .tick → s.inBody = true → s.now + 1 < s.wrapper.startedAt + setup.timeoutMs

/-! ## The invariant -/

/-- What holds of a call between its events, but for the promise itself. -/
structure Inv (s : State α ν) : Prop where
  /-- An attempt without headers has its timer and its listener. -/
  waiting : s.attempting = true → s.wrapper.status = none →
    s.wrapper.timer = some (s.wrapper.startedAt + setup.timeoutMs) ∧ s.wrapper.forwards = true ∧
      s.now < s.wrapper.startedAt + setup.timeoutMs
  /-- Any other time the wrapper has let go. -/
  released : s.attempting = false ∨ s.wrapper.status.isSome →
    s.wrapper.timer = none ∧ s.wrapper.forwards = false
  /-- Only a call that is over or waits for a mint is aborted. -/
  aborted : ∀ reason, s.send.signal = .aborted reason → s.Rejecting setup
  sending : s.stage = .sending → ∀ result, s.send.phase ≠ .settled result

section

variable {setup} {s s' : State α ν} {a : Action α ν}

theorem finally_of_pos (hpos : 0 < setup.timeoutMs) (wrapper : Wrapper) :
    wrapper.finally setup = { wrapper with timer := none, forwards := false } := by
  rw [Wrapper.finally, if_neg (by omega)]

theorem attempting_iff : s.attempting = true ↔ s.stage = .sending ∧ s.send.phase = .attempting := by
  unfold State.attempting
  split
  · next hstage hphase => exact iff_of_true rfl ⟨hstage, hphase⟩
  · next hother => exact iff_of_false Bool.false_ne_true fun h => hother h.1 h.2

theorem inBody_iff :
    s.inBody = true ↔
      s.stage = .downloading ∨ (s.attempting = true ∧ s.wrapper.status.isSome = true) := by
  unfold State.inBody
  cases hstage : s.stage with
  | downloading => simp
  | sending => simp
  | minting => simp [attempting_iff, hstage]
  | settled result => simp [attempting_iff, hstage]

theorem pending_iff : s.pending = true ↔ s.attempting = true ∨ s.stage = .downloading := by
  rw [State.pending, Bool.or_eq_true, inBody_iff]
  tauto

/-! ### Where the end of an attempt leaves a call -/

/-- The wrapper has let go, and the call is not aborted or is rejected: all that the invariant asks
of a call without an attempt in flight. -/
theorem Inv.of_released (hwrapper : s.wrapper.timer = none ∧ s.wrapper.forwards = false)
    (hidle : s.attempting = false)
    (haborted : ∀ reason, s.send.signal = .aborted reason → s.Rejecting setup)
    (hsending : s.stage = .sending → ∀ result, s.send.phase ≠ .settled result) : Inv setup s where
  waiting := fun h => absurd h (by simp [hidle])
  released := fun _ => hwrapper
  aborted := haborted
  sending := hsending

/-- An attempt without headers, under its timer and its listener. -/
theorem Inv.of_waiting (hattempting : s.attempting = true) (hstatus : s.wrapper.status = none)
    (htimer : s.wrapper.timer = some (s.wrapper.startedAt + setup.timeoutMs))
    (hforwards : s.wrapper.forwards = true)
    (hnow : s.now < s.wrapper.startedAt + setup.timeoutMs)
    (hsignal : ∀ reason, s.send.signal ≠ .aborted reason) : Inv setup s where
  waiting := fun _ _ => ⟨htimer, hforwards, hnow⟩
  released := by
    rintro (h | h)
    · simp [hattempting] at h
    · simp [hstatus] at h
  aborted := fun reason h => absurd h (hsignal reason)
  sending := by
    intro _ result hresult
    cases (attempting_iff.mp hattempting).2.symm.trans hresult

/-- A call with a response to come is not aborted. -/
theorem Inv.not_aborted (h : Inv setup s) (hstage : s.stage = .sending ∨ s.stage = .downloading)
    (reason : Thrown ν) : s.send.signal ≠ .aborted reason := by
  intro haborted
  obtain ⟨error, hsettled⟩ | ⟨hminting, -⟩ := h.aborted reason haborted
  · rw [hsettled] at hstage
    simp at hstage
  · rw [hminting] at hstage
    simp at hstage

theorem afterSend_frame (setup : Setup α) (s : State α ν) :
    ∃ stage, afterSend setup s = { s with stage := stage } := by
  unfold afterSend
  split
  · exact ⟨_, rfl⟩
  · exact ⟨_, rfl⟩
  · exact ⟨_, rfl⟩
  · split <;> exact ⟨_, rfl⟩
  · split <;> exact ⟨_, rfl⟩

theorem send_afterSend (setup : Setup α) (s : State α ν) :
    (afterSend setup s).send = s.send := by
  obtain ⟨stage, h⟩ := afterSend_frame setup s
  rw [h]

theorem wrapper_afterSend (setup : Setup α) (s : State α ν) :
    (afterSend setup s).wrapper = s.wrapper := by
  obtain ⟨stage, h⟩ := afterSend_frame setup s
  rw [h]

theorem cancelled_afterSend (setup : Setup α) (s : State α ν) :
    (afterSend setup s).cancelled = s.cancelled := by
  obtain ⟨stage, h⟩ := afterSend_frame setup s
  rw [h]

/-- A loop that is over has left the call elsewhere. -/
theorem stage_afterSend_ne {result : Outcome (Option α) ν} (h : s.send.phase = .settled result) :
    (afterSend setup s).stage ≠ .sending := by
  unfold afterSend
  rw [h]
  cases result with
  | error error =>
      simp only
      split <;> simp
  | ok value =>
      cases value with
      | some value => simp
      | none =>
          simp only
          split <;> simp

/-- A loop that failed has the promise rejected, or the first time perhaps a mint. -/
theorem afterSend_of_error {error : Thrown ν} (h : s.send.phase = .settled (.error error)) :
    (afterSend setup s).Rejected ∨ ((afterSend setup s).stage = .minting ∧ s.replayed = false) := by
  unfold afterSend
  rw [h]
  simp only
  split
  · next hmint =>
      refine .inr ⟨rfl, ?_⟩
      simp only [Bool.and_eq_true, Bool.not_eq_true'] at hmint
      exact hmint.2
  · exact .inl ⟨error, rfl⟩

/-- After the end of an attempt the loop is over or asleep, and asleep only while not aborted. -/
theorem phase_afterAttempt (outcome : Outcome (Option α) ν)
    (s : RequestPipeline.State (Option α) ν) (maxRetries : ℕ) (spec : CallSpec) :
    let t := RequestPipeline.afterAttempt maxRetries spec outcome s
    t.signal = s.signal ∧ t.log = s.log ∧
      (t.phase = .settled outcome ∨ (∃ reason, t.phase = .settled (.error reason)) ∨
        ((∃ windowMs, t.phase = .sleeping windowMs) ∧ ∀ reason, t.signal ≠ .aborted reason)) := by
  intro t
  obtain ⟨-, h⟩ | ⟨-, -, ⟨reason, -, h⟩ | ⟨hnot, h⟩⟩ :=
    RequestPipeline.afterAttempt_cases maxRetries spec outcome s
  · have ht : t = _ := h
    rw [ht]
    exact ⟨rfl, rfl, .inl rfl⟩
  · have ht : t = _ := h
    rw [ht]
    exact ⟨rfl, rfl, .inr (.inl ⟨reason, rfl⟩)⟩
  · have ht : t = _ := h
    rw [ht]
    exact ⟨rfl, rfl, .inr (.inr ⟨⟨_, rfl⟩, hnot⟩)⟩

theorem log_settleAttempt (outcome : Outcome (Option α) ν) (s : State α ν) :
    (settleAttempt setup outcome s).send.log = s.send.log ++ [.ended outcome] := by
  rw [settleAttempt, send_afterSend]
  exact (phase_afterAttempt outcome _ setup.maxRetries setup.spec).2.1

theorem signal_settleAttempt (outcome : Outcome (Option α) ν) (s : State α ν) :
    (settleAttempt setup outcome s).send.signal = s.send.signal := by
  rw [settleAttempt, send_afterSend]
  exact (phase_afterAttempt outcome _ setup.maxRetries setup.spec).1

theorem cancelled_settleAttempt (outcome : Outcome (Option α) ν) (s : State α ν) :
    (settleAttempt setup outcome s).cancelled = s.cancelled := by
  rw [settleAttempt, cancelled_afterSend]

/-- So has an attempt that fails under an aborted signal: the wait before a replay is refused. -/
theorem settleAttempt_of_aborted {error reason : Thrown ν} (h : s.send.signal = .aborted reason) :
    (settleAttempt setup (.error error) s).Rejected ∨
      ((settleAttempt setup (.error error) s).stage = .minting ∧ s.replayed = false) := by
  unfold settleAttempt
  obtain ⟨hsignal, -, hphase | ⟨reason', hphase⟩ | ⟨-, hnot⟩⟩ := phase_afterAttempt
    (.error error) { s.send with log := s.send.log ++ [.ended (.error error)] } setup.maxRetries
    setup.spec
  · exact afterSend_of_error hphase
  · exact afterSend_of_error hphase
  · exact absurd (hsignal.trans h) (hnot reason)

/-- The replay of a call that is aborted by then is rejected, as the call is if the mint fails. -/
theorem rejected_minted {reason : Thrown ν} {reply : Except (Thrown ν) String}
    (haborted : s.send.signal = .aborted reason) (h : step setup s (.minted reply) = some s') :
    s'.Rejected := by
  simp only [step] at h
  split at h
  · next error hstage =>
      obtain rfl := Option.some.inj h
      exact ⟨error, rfl⟩
  · obtain rfl := Option.some.inj h
    unfold startAttempt
    simp only [RequestPipeline.State.init, haborted]
    refine (settleAttempt_of_aborted rfl).resolve_right ?_
    exact fun hmint => Bool.noConfusion hmint.2
  · cases h

/-- Only the stage matters to whether the promise of an aborted call is rejected. -/
theorem State.Rejecting.of_stage {t : State α ν} {reason : Thrown ν} (h : s.Rejecting setup)
    (hstage : t.stage = s.stage) (haborted : t.send.signal = .aborted reason) :
    t.Rejecting setup := by
  obtain ⟨error, hsettled⟩ | ⟨hminting, -⟩ := h
  · exact .inl ⟨error, hstage.trans hsettled⟩
  · exact .inr ⟨hstage.trans hminting, fun reply t' ht => rejected_minted haborted ht⟩

theorem rejecting_settleAttempt {error reason : Thrown ν} (h : s.send.signal = .aborted reason) :
    (settleAttempt setup (.error error) s).Rejecting setup := by
  refine (settleAttempt_of_aborted h).imp_right fun hmint => ⟨hmint.1, fun reply t ht => ?_⟩
  exact rejected_minted ((signal_settleAttempt _ s).trans h) ht

/-- The end of an attempt keeps the invariant, if an aborted one fails. -/
theorem inv_settleAttempt (hpos : 0 < setup.timeoutMs) {outcome : Outcome (Option α) ν}
    (h : ∀ reason, s.send.signal = .aborted reason → ∃ error, outcome = .error error) :
    Inv setup (settleAttempt setup outcome s) := by
  refine .of_released ?_ ?_ ?_ ?_
  · rw [settleAttempt, wrapper_afterSend, finally_of_pos hpos]
    exact ⟨rfl, rfl⟩
  · rw [← Bool.not_eq_true, attempting_iff, settleAttempt, send_afterSend]
    rintro ⟨-, hattempting⟩
    obtain ⟨-, -, hphase | ⟨reason, hphase⟩ | ⟨⟨windowMs, hphase⟩, -⟩⟩ := phase_afterAttempt
      outcome { s.send with log := s.send.log ++ [.ended outcome] } setup.maxRetries setup.spec
    all_goals cases hphase.symm.trans hattempting
  · intro reason hreason
    rw [signal_settleAttempt] at hreason
    obtain ⟨error, rfl⟩ := h reason hreason
    exact rejecting_settleAttempt hreason
  · intro hsending result hresult
    rw [settleAttempt, send_afterSend] at hresult
    exact stage_afterSend_ne hresult hsending

/-- So does the start of an attempt. -/
theorem inv_startAttempt (hpos : 0 < setup.timeoutMs) (hstage : s.stage = .sending)
    (hphase : s.send.phase = .attempting) : Inv setup (startAttempt setup s) := by
  have hwaiting : (∀ reason, s.send.signal ≠ .aborted reason) → Inv setup { s with
      wrapper := ⟨s.now, some (s.now + setup.timeoutMs), true, none⟩ } := fun hsignal =>
    .of_waiting (attempting_iff.mpr ⟨hstage, hphase⟩) rfl rfl rfl (Nat.lt_add_of_pos_right hpos)
      hsignal
  unfold startAttempt
  rw [if_neg (by omega)]
  simp only
  split
  · next reason hsignal => exact inv_settleAttempt hpos fun _ _ => ⟨reason, rfl⟩
  · next hsignal =>
      refine hwaiting fun reason h => ?_
      cases hsignal.symm.trans h
  · next hsignal =>
      refine hwaiting fun reason h => ?_
      cases hsignal.symm.trans h

theorem inv_init (hpos : 0 < setup.timeoutMs) (signal : Signal ν) :
    Inv setup (State.init setup signal) :=
  inv_startAttempt hpos rfl rfl

/-! ### What a step does to promise and invariant -/

/-- The step keeps the promise exactly when it lands well, and then it keeps the invariant. -/
def Agrees (setup : Setup α) (s : State α ν) (a : Action α ν) (s' : State α ν) : Prop :=
  (ReachesToEnd setup s a s' ↔ LandsBeforeBody setup s a s') ∧
    (LandsBeforeBody setup s a s' → Inv setup s')

/-- Any other action than a tick or an abort only has to keep the invariant. -/
theorem Agrees.of_inv (htick : a ≠ .tick) (habort : ∀ reason, a ≠ .abort reason)
    (h : Inv setup s') : Agrees setup s a s' := by
  refine ⟨iff_of_true ⟨?_, h.aborted, ?_⟩ ⟨?_, ?_⟩, fun _ => h⟩
  · exact fun reason ha => absurd ha (habort reason)
  · exact fun ha => absurd ha htick
  · exact fun reason ha => absurd ha (habort reason)
  · exact fun ha => absurd ha htick

theorem agrees_headers (hpos : 0 < setup.timeoutMs) (hinv : Inv setup s) {status : ℕ}
    (h : step setup s (.headers status) = some s') : Agrees setup s (.headers status) s' := by
  refine .of_inv nofun nofun ?_
  simp only [step] at h
  split at h
  · next hwaiting =>
      simp only [Bool.and_eq_true] at hwaiting
      have hsignal := hinv.not_aborted (.inl (attempting_iff.mp hwaiting.1).1)
      have hbody : Inv setup { s with
          wrapper := { s.wrapper.finally setup with status := some status } } := by
        refine ⟨nofun, fun _ => ?_, fun reason h => absurd h (hsignal reason), hinv.sending⟩
        rw [finally_of_pos hpos]
        exact ⟨rfl, rfl⟩
      split at h
      · obtain rfl := Option.some.inj h
        exact hbody
      · obtain rfl := Option.some.inj h
        exact hbody
      · obtain rfl := Option.some.inj h
        exact inv_settleAttempt hpos fun reason haborted => absurd haborted (hsignal reason)
      · obtain rfl := Option.some.inj h
        exact inv_settleAttempt hpos fun reason haborted => absurd haborted (hsignal reason)
  · cases h

/-- The promise settles on a call that is not aborted. -/
theorem inv_settled (hinv : Inv setup s) (hstage : s.stage = .downloading ∨ s.stage = .minting)
    {result : Outcome α ν}
    (h : ∀ reason, s.send.signal = .aborted reason → ∃ error, result = .error error) :
    Inv setup { s with stage := .settled result } := by
  have hidle : s.attempting = false := by
    rw [← Bool.not_eq_true, attempting_iff]
    rintro ⟨hsending, -⟩
    rw [hsending] at hstage
    simp at hstage
  refine .of_released (hinv.released (.inl hidle)) rfl ?_ nofun
  intro reason haborted
  obtain ⟨error, rfl⟩ := h reason haborted
  exact .inl ⟨error, rfl⟩

theorem agrees_bodyEnd (hpos : 0 < setup.timeoutMs) (hinv : Inv setup s) {outcome : Outcome α ν}
    (h : step setup s (.bodyEnd outcome) = some s') : Agrees setup s (.bodyEnd outcome) s' := by
  refine .of_inv nofun nofun ?_
  simp only [step] at h
  split at h
  · next hbody =>
      have hstage : s.stage = .sending ∨ s.stage = .downloading := by
        rcases inBody_iff.mp hbody with hdownloading | ⟨hattempting, -⟩
        · exact .inr hdownloading
        · exact .inl (attempting_iff.mp hattempting).1
      have hsignal := hinv.not_aborted hstage
      split at h
      · next hdownloading =>
          obtain rfl := Option.some.inj h
          exact inv_settled hinv (.inl hdownloading) fun reason haborted =>
            absurd haborted (hsignal reason)
      · cases h
      · obtain rfl := Option.some.inj h
        exact inv_settleAttempt hpos fun reason haborted => absurd haborted (hsignal reason)
      · obtain rfl := Option.some.inj h
        exact inv_settleAttempt hpos fun reason haborted => absurd haborted (hsignal reason)
      · cases h
  · cases h

/-- What is waited for is rejected: the promise with it, or the attempt fails. -/
theorem inv_rejectRead (hpos : 0 < setup.timeoutMs) (hinv : Inv setup s) (error : Thrown ν) :
    Inv setup (rejectRead setup error s) := by
  unfold rejectRead
  split
  · next hstage => exact inv_settled hinv (.inl hstage) fun _ _ => ⟨error, rfl⟩
  · split
    all_goals exact inv_settleAttempt hpos fun _ _ => ⟨_, rfl⟩
  · exact hinv
  · exact hinv

/-- A wrapper that has not let go has its attempt waiting for the headers. -/
theorem Inv.waits (hinv : Inv setup s)
    (h : s.wrapper.timer.isSome = true ∨ s.wrapper.forwards = true) :
    s.attempting = true ∧ s.wrapper.status = none := by
  by_contra hnot
  have hreleased : s.attempting = false ∨ s.wrapper.status.isSome := by
    rw [← Bool.not_eq_true, Option.isSome_iff_ne_none]
    tauto
  obtain ⟨htimer, hforwards⟩ := hinv.released hreleased
  simp [htimer, hforwards] at h

theorem inBody_of_waiting (hattempting : s.attempting = true) (hstatus : s.wrapper.status = none) :
    s.inBody = false := by
  rw [← Bool.not_eq_true, inBody_iff]
  rintro (hdownloading | ⟨-, hsome⟩)
  · cases (attempting_iff.mp hattempting).1.symm.trans hdownloading
  · simp [hstatus] at hsome

theorem agrees_tick (hpos : 0 < setup.timeoutMs) (hinv : Inv setup s)
    (h : step setup s .tick = some s') : Agrees setup s .tick s' := by
  simp only [step] at h
  split at h
  · next htimer =>
      -- nothing waits for headers, so a response to come has its body to come
      obtain rfl := Option.some.inj h
      have hbody : s.pending = true → s.inBody = true := by
        intro hpending
        rcases pending_iff.mp hpending with hattempting | hdownloading
        · refine inBody_iff.mpr (.inr ⟨hattempting, ?_⟩)
          by_contra hstatus
          rw [Option.not_isSome_iff_eq_none] at hstatus
          cases htimer.symm.trans (hinv.waiting hattempting hstatus).1
        · exact inBody_iff.mpr (.inl hdownloading)
      have hinv' : Inv setup { s with now := s.now + 1 } := by
        refine ⟨fun hattempting hstatus => ?_, hinv.released, fun reason haborted => ?_,
          hinv.sending⟩
        · cases htimer.symm.trans (hinv.waiting hattempting hstatus).1
        · exact (hinv.aborted reason haborted).of_stage rfl haborted
      refine ⟨⟨fun hreaches => ⟨nofun, fun _ hin => ?_⟩, fun hlands => ⟨nofun, hinv'.aborted, ?_⟩⟩,
        fun _ => hinv'⟩
      · by_contra hlate
        have hlog := hreaches.expires rfl (by simp [State.pending, hin]) (by omega)
        simp at hlog
      · intro _ hpending hlate
        have hearly := hlands.tick rfl (hbody hpending)
        omega
  · next due htimer =>
      obtain ⟨hattempting, hstatus⟩ := hinv.waits (.inl (by rw [htimer]; rfl))
      obtain ⟨hdue, -, -⟩ := hinv.waiting hattempting hstatus
      obtain rfl : due = s.wrapper.startedAt + setup.timeoutMs :=
        Option.some.inj (htimer.symm.trans hdue)
      have hlands : LandsBeforeBody setup s .tick s' :=
        ⟨nofun, fun _ hin => absurd hin (by simp [inBody_of_waiting hattempting hstatus])⟩
      have hsignal := hinv.not_aborted (.inl (attempting_iff.mp hattempting).1)
      split at h
      · next hearly =>
          obtain rfl := Option.some.inj h
          have hinv' : Inv setup { s with now := s.now + 1 } :=
            .of_waiting hattempting hstatus htimer (hinv.waiting hattempting hstatus).2.1 hearly
              hsignal
          refine ⟨iff_of_true ⟨nofun, hinv'.aborted, fun _ _ hlate => ?_⟩ hlands, fun _ => hinv'⟩
          omega
      · obtain rfl := Option.some.inj h
        have hinv' : Inv setup (settleAttempt setup
            (.error (requestTimeout setup.url setup.timeoutMs) : Outcome (Option α) ν)
            { s with now := s.now + 1, cancelled := s.cancelled + 1 }) :=
          inv_settleAttempt hpos fun _ _ => ⟨_, rfl⟩
        exact ⟨iff_of_true ⟨nofun, hinv'.aborted, fun _ _ _ => log_settleAttempt _ _⟩ hlands,
          fun _ => hinv'⟩

theorem agrees_wake (hpos : 0 < setup.timeoutMs) (h : step setup s .wake = some s') :
    Agrees setup s .wake s' := by
  refine .of_inv nofun nofun ?_
  simp only [step] at h
  split at h
  · next hstage =>
      obtain ⟨send, hsend, rfl⟩ := Option.map_eq_some_iff.mp h
      obtain ⟨outcome, ha, -⟩ | ⟨windowMs, -, -, rfl⟩ | ⟨reason, phase, ha, -⟩ :=
        RequestPipeline.step_cases hsend
      · cases ha
      · exact inv_startAttempt hpos hstage rfl
      · cases ha
  · cases h

theorem agrees_minted (hpos : 0 < setup.timeoutMs) (hinv : Inv setup s)
    {reply : Except (Thrown ν) String} (h : step setup s (.minted reply) = some s') :
    Agrees setup s (.minted reply) s' := by
  refine .of_inv nofun nofun ?_
  simp only [step] at h
  split at h
  · next error hstage =>
      obtain rfl := Option.some.inj h
      exact inv_settled hinv (.inr hstage) fun _ _ => ⟨error, rfl⟩
  · obtain rfl := Option.some.inj h
    exact inv_startAttempt hpos rfl rfl
  · cases h

/-- An abort while headers are awaited aborts the request and rejects the promise. -/
theorem agrees_abort_waiting (hpos : 0 < setup.timeoutMs) {reason : Thrown ν}
    (hattempting : s.attempting = true) (hstatus : s.wrapper.status = none)
    {send : RequestPipeline.State (Option α) ν}
    (hs' : s' = settleAttempt setup (.error reason)
      { s with send := send, stage := .sending, cancelled := s.cancelled + 1 }) :
    Agrees setup s (.abort reason) s' := by
  subst hs'
  have hinv' : Inv setup (settleAttempt setup (.error reason : Outcome (Option α) ν)
      { s with send := send, stage := .sending, cancelled := s.cancelled + 1 }) :=
    inv_settleAttempt hpos fun _ _ => ⟨reason, rfl⟩
  refine ⟨iff_of_true ⟨fun _ _ _ => cancelled_settleAttempt _ _, hinv'.aborted, nofun⟩
    ⟨fun _ _ => ⟨inBody_of_waiting hattempting hstatus, ?_⟩, nofun⟩, fun _ => hinv'⟩
  rw [(attempting_iff.mp hattempting).1]
  exact nofun

/-- An abort in a body or during a mint aborts nothing. -/
theorem agrees_abort_missed {reason : Thrown ν} (hmissed : s.inBody = true ∨ s.stage = .minting)
    (hs' : s'.cancelled = s.cancelled) : Agrees setup s (.abort reason) s' := by
  have hnot : ¬ LandsBeforeBody setup s (.abort reason) s' := by
    intro hlands
    obtain ⟨hbody, hmint⟩ := hlands.abort reason rfl
    simp [hbody, hmint] at hmissed
  refine ⟨iff_of_false (fun hreaches => ?_) hnot, fun hlands => absurd hlands hnot⟩
  have hflight : s.inFlight := hmissed.imp_left fun hbody => by simp [State.pending, hbody]
  have hcancels := hreaches.cancels reason rfl hflight
  omega

/-- An abort during the wait before a replay rejects the promise. -/
theorem agrees_abort_sleeping (hinv : Inv setup s) {reason : Thrown ν} {windowMs : ℕ}
    (hstage : s.stage = .sending) (hphase : s.send.phase = .sleeping windowMs)
    {send : RequestPipeline.State (Option α) ν} (hsend : send.phase = .settled (.error reason))
    (hsignal : send.signal = .aborted reason)
    (hs' : s' = afterSend setup { s with send := send, stage := .sending }) :
    Agrees setup s (.abort reason) s' := by
  subst hs'
  have hidle : s.attempting = false := by
    rw [← Bool.not_eq_true, attempting_iff]
    rintro ⟨-, hattempting⟩
    cases hphase.symm.trans hattempting
  have hbody : s.inBody = false := by
    rw [← Bool.not_eq_true, inBody_iff, hstage, hidle]
    simp
  have hinv' : Inv setup (afterSend setup { s with send := send, stage := .sending }) := by
    refine .of_released ?_ ?_ ?_ ?_
    · rw [wrapper_afterSend]
      exact hinv.released (.inl hidle)
    · rw [← Bool.not_eq_true, attempting_iff, send_afterSend]
      rintro ⟨-, hattempting⟩
      cases hsend.symm.trans hattempting
    · intro _ _
      refine (afterSend_of_error hsend).imp_right fun hmint => ⟨hmint.1, fun reply t ht => ?_⟩
      exact rejected_minted ((congrArg _ (send_afterSend setup _)).trans hsignal) ht
    · exact fun hsending => absurd hsending (stage_afterSend_ne hsend)
  refine ⟨iff_of_true ⟨fun _ _ hflight => ?_, hinv'.aborted, nofun⟩
    ⟨fun _ _ => ⟨hbody, by simp [hstage]⟩, nofun⟩, fun _ => hinv'⟩
  simp [State.inFlight, State.pending, hidle, hbody, hstage] at hflight

theorem agrees_abort (hpos : 0 < setup.timeoutMs) (hinv : Inv setup s) {reason : Thrown ν}
    (h : step setup s (.abort reason) = some s') : Agrees setup s (.abort reason) s' := by
  simp only [step] at h
  split at h
  · cases h
  · next hopen =>
      obtain ⟨send, hsend, hs'⟩ := Option.map_eq_some_iff.mp h
      obtain ⟨outcome, ha, -⟩ | ⟨windowMs, ha, -⟩ | ⟨reason', phase, ha, -, hphase, rfl⟩ :=
        RequestPipeline.step_cases hsend
      · cases ha
      · cases ha
      · obtain rfl := RequestPipeline.Action.abort.inj ha
        have hforwards : s.attempting = false ∨ s.wrapper.status.isSome = true →
            (s.pending && s.wrapper.forwards) = false := by
          intro hreleased
          simp [(hinv.released hreleased).2]
        cases hstage : s.stage with
        | settled result => exact absurd hstage (hopen result)
        | minting =>
            have hidle : s.attempting = false := by
              simp [← Bool.not_eq_true, attempting_iff, hstage]
            refine agrees_abort_missed (.inr hstage) ?_
            simp only [hforwards (.inl hidle), hstage] at hs'
            rw [← hs']
            rfl
        | downloading =>
            have hidle : s.attempting = false := by
              simp [← Bool.not_eq_true, attempting_iff, hstage]
            refine agrees_abort_missed (.inl (inBody_iff.mpr (.inl hstage))) ?_
            simp only [hforwards (.inl hidle), hstage] at hs'
            rw [← hs']
            rfl
        | sending =>
            cases hp : s.send.phase with
            | settled result => exact absurd hp (hinv.sending hstage result)
            | sleeping windowMs =>
                have hidle : s.attempting = false := by
                  simp [← Bool.not_eq_true, attempting_iff, hp]
                obtain ⟨windowMs', -, rfl⟩ | ⟨hnot, -⟩ := hphase
                · simp only [hforwards (.inl hidle), hstage, Bool.false_eq_true, if_false] at hs'
                  refine agrees_abort_sleeping hinv hstage hp ?_ ?_ hs'.symm
                  · rfl
                  · rfl
                · exact absurd hp (hnot windowMs)
            | attempting =>
                have hattempting := attempting_iff.mpr ⟨hstage, hp⟩
                cases hstatus : s.wrapper.status with
                | none =>
                    have hpending : (s.pending && s.wrapper.forwards) = true := by
                      simp [State.pending, hattempting, (hinv.waiting hattempting hstatus).2.1]
                    simp only [hpending, if_true, rejectRead, hstage, hstatus] at hs'
                    exact agrees_abort_waiting hpos hattempting hstatus hs'.symm
                | some status =>
                    have hsome : s.wrapper.status.isSome = true := by rw [hstatus]; rfl
                    have hbody := inBody_iff.mpr (.inr ⟨hattempting, hsome⟩)
                    refine agrees_abort_missed (.inl hbody) ?_
                    simp only [hforwards (.inr hsome), hstage] at hs'
                    rw [← hs']
                    exact cancelled_afterSend setup _

theorem agrees_chunk (hinv : Inv setup s) (h : step setup s .chunk = some s') :
    Agrees setup s .chunk s' := by
  refine .of_inv nofun nofun ?_
  simp only [step] at h
  split at h
  · obtain rfl := Option.some.inj h
    exact hinv
  · cases h

theorem agrees_failure (hpos : 0 < setup.timeoutMs) (hinv : Inv setup s) {message : String}
    (h : step setup s (.failure message) = some s') : Agrees setup s (.failure message) s' := by
  refine .of_inv nofun nofun ?_
  simp only [step] at h
  split at h
  · obtain rfl := Option.some.inj h
    exact inv_rejectRead hpos hinv _
  · cases h

theorem agrees_step (hpos : 0 < setup.timeoutMs) (hinv : Inv setup s)
    (h : step setup s a = some s') : Agrees setup s a s' := by
  cases a with
  | headers status => exact agrees_headers hpos hinv h
  | chunk => exact agrees_chunk hinv h
  | bodyEnd outcome => exact agrees_bodyEnd hpos hinv h
  | failure message => exact agrees_failure hpos hinv h
  | tick => exact agrees_tick hpos hinv h
  | wake => exact agrees_wake hpos h
  | abort reason => exact agrees_abort hpos hinv h
  | minted reply => exact agrees_minted hpos hinv h

end

/-! ## When deadline and signal reach to the end -/

/-- With a timeout, deadline and signal reach to the end of a call exactly on the schedules in which
no abort lands between a response's headers and the end of its body or during a mint, and in no such
place an attempt's time is up. A call whose signal is aborted beforehand is rejected at once. -/
theorem reachesToEnd_iff (setup : Setup α) (hpos : 0 < setup.timeoutMs) (signal : Signal ν)
    (schedule : List (Action α ν)) :
    (∀ reason, signal = .aborted reason → (State.init setup signal).Rejecting setup) ∧
    (EveryStep (step setup) (ReachesToEnd setup) (State.init setup signal) schedule ↔
      EveryStep (step setup) (LandsBeforeBody setup) (State.init setup signal) schedule) := by
  refine ⟨?_, ?_, ?_⟩
  · rintro reason rfl
    exact rejecting_settleAttempt rfl
  · refine EveryStep.imp_of_inv (fun hinv h hreaches => ?_) (inv_init hpos signal)
    obtain ⟨hiff, hinv'⟩ := agrees_step hpos hinv h
    exact ⟨hiff.mp hreaches, hinv' (hiff.mp hreaches)⟩
  · refine EveryStep.imp_of_inv (fun hinv h hlands => ?_) (inv_init hpos signal)
    obtain ⟨hiff, hinv'⟩ := agrees_step hpos hinv h
    exact ⟨hiff.mpr hlands, hinv' hlands⟩

/-- A download whose body stalls past its deadline, and one that is aborted in its body: both
resolve all the same. -/
theorem not_reachesToEnd_body :
    let setup : Setup Unit :=
      ⟨2, ⟨"GET /files/content", true⟩, "https://49983-s.fissionplane.dev", 2, .downloaded, true⟩
    let stalled : List (Action Unit String) :=
      [.headers 200, .chunk, .tick, .tick, .chunk, .bodyEnd (.ok ())]
    let aborted : List (Action Unit String) :=
      [.headers 200, .chunk, .abort (.other "AbortError"), .bodyEnd (.ok ())]
    ((run (step setup) (.init setup .live) stalled).map State.stage = some (.settled (.ok ())) ∧
        ¬ EveryStep (step setup) (ReachesToEnd setup) (.init setup .live) stalled) ∧
      (run (step setup) (.init setup .live) aborted).map State.stage = some (.settled (.ok ())) ∧
        ¬ EveryStep (step setup) (ReachesToEnd setup) (.init setup .live) aborted := by
  intro setup stalled aborted
  refine ⟨⟨rfl, fun h => ?_⟩, rfl, fun h => ?_⟩
  · have htick := ((((h _ rfl).2 _ rfl).2 _ rfl).2 _ rfl).1
    have hlog := congrArg List.length (htick.expires rfl rfl (by decide))
    cases hlog
  · have habort := (((h _ rfl).2 _ rfl).2 _ rfl).1
    have hcancels := habort.cancels _ rfl (.inl rfl)
    cases hcancels

/-- A deadline and then an abort, each before the headers. -/
theorem reachesToEnd_beforeHeaders :
    let setup : Setup Unit :=
      ⟨2, ⟨"GET /files/content", true⟩, "https://49983-s.fissionplane.dev", 2, .downloaded, true⟩
    let schedule : List (Action Unit String) :=
      [.tick, .tick, .wake, .abort (.other "AbortError")]
    (run (step setup) (.init setup .live) schedule).map State.stage =
        some (.settled (.error (.other "AbortError"))) ∧
      EveryStep (step setup) (ReachesToEnd setup) (.init setup .live) schedule := by
  intro setup schedule
  refine ⟨rfl, (reachesToEnd_iff setup (by decide) .live schedule).2.mpr ?_⟩
  refine fun _ h₁ => ⟨⟨nofun, fun _ hin => ?_⟩, fun _ h₂ => ⟨⟨nofun, fun _ hin => ?_⟩, fun _ h₃ =>
    ⟨⟨nofun, nofun⟩, fun _ h₄ => ⟨⟨fun _ _ => ?_, nofun⟩, trivial⟩⟩⟩⟩
  · cases hin
  · obtain rfl := Option.some.inj h₁
    cases hin
  · obtain rfl := Option.some.inj h₁
    obtain rfl := Option.some.inj h₂
    obtain rfl := Option.some.inj h₃
    exact ⟨rfl, nofun⟩

end FissionPlane.Sdk.HttpFetch
