/-
# FissionPlane.Sdk.FetchWrapper -- the fetch wrapper of the TypeScript SDK

One call of the wrapper, from its start to the settlement of its promise and beyond: the underlying
send, the timer and the caller's abort arrive in any order, and promise reactions run from a queue,
first in, first out. The wrapper settles with whichever of send and timer is first in the schedule;
its `finally` runs before it does.

A request without a positive finite timeout is sent as it is, but for its headers, and follows the
caller's signal itself.
-/
import FissionPlane.Lib.AbortSignal
import FissionPlane.Lib.Binary64
import FissionPlane.Lib.FetchHeaders
import FissionPlane.Lib.Transition
import FissionPlane.Sdk.DataPlane

namespace FissionPlane.Sdk.FetchWrapper

open FissionPlane.Lib FissionPlane.Lib.FetchHeaders FissionPlane.Lib.Transition
open FissionPlane.Lib.Binary64 (Number)
open FissionPlane.Sdk.RequestPipeline (Thrown)

variable {ρ ν κ : Type*}

/-! ## Headers -/

/-- `TIMEOUT_HEADER`, which carries a timeout of one call to the wrapper. -/
def timeoutHeader : String := "x-fissionplane-request-timeout-ms"

def sdkVersion : String := "0.0.1-beta"

def userAgent : String := "fissionplane-typescript/" ++ sdkVersion

/-- Headers every request carries unless the caller supplies its own. -/
def defaultHeaders : List (String × String) := [("User-Agent", userAgent)]

/-- The headers a request is sent with; `none` if one cannot be set. -/
def outboundHeaders (headers : Headers) : Option Headers :=
  defaultHeaders.foldlM
    (fun headers header =>
      if headers.has header.1 then some headers else headers.set header.1 header.2)
    (headers.delete timeoutHeader)

/-! ## Overrides of a call -/

/-- Per-call overrides; a record of headers that is absent is empty. -/
structure RequestOptions (σ : Type*) where
  requestTimeoutMs : Option Number
  signal : Option σ
  headers : List (String × String)

/-- The init fragment made of them. -/
structure CallInit (σ : Type*) where
  signal : Option σ
  headers : Option (List (String × String))

/-- `record[key] = value` -/
def assign (record : List (String × String)) (key value : String) : List (String × String) :=
  match record with
  | [] => [(key, value)]
  | entry :: record =>
      if entry.1 = key then (key, value) :: record else entry :: assign record key value

/-- `RequestPipeline.init` -/
def init {σ : Type*} (render : Number → String) (options : RequestOptions σ) : CallInit σ :=
  let headers :=
    match options.requestTimeoutMs with
    | some ms => assign options.headers timeoutHeader (render ms)
    | none => options.headers
  { signal := options.signal
    headers := if headers.isEmpty then none else some headers }

theorem lookup_assign (key value : String) : ∀ record : List (String × String),
    (assign record key value).lookup key = some value
  | [] => by rw [assign, List.lookup_cons_self]
  | entry :: record => by
      rw [assign]
      split_ifs with heq
      · rw [List.lookup_cons_self]
      · rw [List.lookup_cons, beq_eq_false_iff_ne.mpr (Ne.symm heq)]
        exact lookup_assign key value record

/-- A timeout of the call is in its record under the header, whatever the caller put there. -/
theorem lookup_init {σ : Type*} {render : Number → String} {options : RequestOptions σ}
    {ms : Number} (h : options.requestTimeoutMs = some ms) :
    ((init render options).headers.getD []).lookup timeoutHeader = some (render ms) := by
  have hlookup := lookup_assign timeoutHeader (render ms) options.headers
  have hne : (assign options.headers timeoutHeader (render ms)).isEmpty = false := by
    cases hassign : assign options.headers timeoutHeader (render ms) with
    | nil =>
        rw [hassign] at hlookup
        cases hlookup
    | cons entry record => rfl
  simp only [init, h, hne]
  exact hlookup

/-! ## One call -/

/-- A `Request`. Its signal is the one the caller set: it is aborted with it. -/
structure Request (ν κ : Type*) where
  url : String
  headers : Headers
  signal : AbortSignal (Thrown ν) κ

/-- What the wrapper settles with: what `send` came to, or the rejection of its timer. -/
inductive Outcome (ρ ν : Type*) where
  | sent (result : Except (Thrown ν) ρ)
  | timedOut (error : Thrown ν)

/-- What the caller of the wrapper sees. -/
def Outcome.result : Outcome ρ ν → Except (Thrown ν) ρ
  | .sent result => result
  | .timedOut error => .error error

/-- Why the outbound request is aborted: for the reason of the caller's signal, or by the timer. -/
inductive Cause (ν : Type*) where
  | caller (reason : Thrown ν)
  | timer
  deriving DecidableEq

/-- The timer of a call, with what `expiry` is to be rejected with. -/
inductive Timer (ν : Type*) where
  | unset
  | armed (error : Thrown ν)
  | fired
  | cleared

/-- The underlying send: not back yet, failed on the spot, or back with a promise. -/
inductive Send where
  | calling
  | threw
  | pending
  | settled
  deriving DecidableEq

/-- A promise reaction: of the race to one of its promises, or of the wrapper to the race. -/
inductive Job (ρ ν : Type*) where
  | react (outcome : Outcome ρ ν)
  | resume (outcome : Outcome ρ ν)

/-- `signal` is the caller's, whose other listeners are known as `some`; the wrapper's own `abort`
is `none`. `follows` says that the outbound request follows this signal itself, and not
`deadline`. -/
structure State (ρ ν κ : Type*) where
  wire : String × Headers
  signal : AbortSignal (Thrown ν) (Option κ)
  follows : Bool
  cancelled : Option (Cause ν)
  timer : Timer ν
  send : Send
  jobs : List (Job ρ ν)
  race : Option (Outcome ρ ν)
  settled : Option (Outcome ρ ν)

inductive Event (ρ ν : Type*) where
  /-- `send` throws. -/
  | throws (error : Thrown ν)
  /-- `send` returns its promise. -/
  | returns
  | sendSettles (result : Except (Thrown ν) ρ)
  | timerFires
  | callerAborts (reason : Thrown ν)
  /-- The reaction that is next in the queue runs. -/
  | tick

/-- What the wrapper's timer rejects with. -/
def requestTimeout (url timeoutMs : String) : Thrown ν :=
  .fissionPlane
    { name := .fissionPlane
      message := Json.units ("request to " ++ url ++ " timed out after " ++ timeoutMs ++ "ms")
      status := none
      code := some (Json.units "request_timeout")
      retryable := true
      requestId := none }

/-- The error that the model of the retry loop takes a timeout for. -/
theorem requestTimeout_toString (url : String) (timeoutMs : ℕ) :
    DataPlane.TypeScript.requestTimeout url timeoutMs =
      (requestTimeout url (toString timeoutMs) : Thrown ν) := rfl

/-! ## Steps -/

section

variable [DecidableEq κ]

/-- `deadline.abort`, or an abort the outbound request follows; a second one has no effect. -/
def cancel (s : State ρ ν κ) (cause : Cause ν) : State ρ ν κ :=
  { s with cancelled := s.cancelled <|> some cause }

/-- The wrapper settles; under a timeout its `finally` runs first. -/
def settle (s : State ρ ν κ) (outcome : Outcome ρ ν) : State ρ ν κ :=
  if s.follows then { s with settled := some outcome }
  else
    { s with
      timer := .cleared
      signal := s.signal.removeEventListener none
      settled := some outcome }

def runJob (s : State ρ ν κ) : Job ρ ν → State ρ ν κ
  | .react outcome =>
      match s.race with
      -- a promise settles once
      | some _ => s
      | none =>
          let s := { s with race := some outcome }
          if s.follows then settle s outcome else { s with jobs := s.jobs ++ [.resume outcome] }
  | .resume outcome => settle s outcome

def step (s : State ρ ν κ) : Event ρ ν → Option (State ρ ν κ)
  | .throws error =>
      if s.send = .calling then some (settle { s with send := .threw } (.sent (.error error)))
      else none
  | .returns => if s.send = .calling then some { s with send := .pending } else none
  | .sendSettles result =>
      if s.send = .pending then
        some { s with send := .settled, jobs := s.jobs ++ [.react (.sent result)] }
      else none
  | .timerFires =>
      match s.timer with
      | .armed error =>
          if s.send = .calling then none
          else
            -- the rejection comes before the abort, so the race hears of it first
            some (cancel { s with timer := .fired, jobs := s.jobs ++ [.react (.timedOut error)] }
              .timer)
      | _ => none
  | .callerAborts reason =>
      if s.signal.aborted then none
      else
        let (signal, told) := s.signal.abort reason
        let s := { s with signal := signal }
        if s.follows || decide (none ∈ told) then some (cancel s (.caller reason)) else some s
  | .tick =>
      match s.jobs with
      | [] => none
      | job :: jobs => some (runJob { s with jobs := jobs } job)

/-- When an event can happen: a call of `send` comes back, a pending send settles, an armed timer
fires once `send` is back, a signal that is live is aborted, and a queued reaction runs. -/
def Possible (s : State ρ ν κ) : Event ρ ν → Prop
  | .throws _ | .returns => s.send = .calling
  | .sendSettles _ => s.send = .pending
  | .timerFires => (∃ error, s.timer = .armed error) ∧ s.send ≠ .calling
  | .callerAborts _ => s.signal.aborted = false
  | .tick => s.jobs ≠ []

/-- These are the events of a schedule, and no others. -/
theorem step_isSome_iff (s : State ρ ν κ) (e : Event ρ ν) :
    (step s e).isSome = true ↔ Possible s e := by
  cases e with
  | throws error => rw [step, Possible, Option.isSome_ite]
  | returns => rw [step, Possible, Option.isSome_ite]
  | sendSettles result => rw [step, Possible, Option.isSome_ite]
  | timerFires =>
      rw [step, Possible]
      cases htimer : s.timer with
      | armed error =>
          dsimp only
          split_ifs with h
          · exact iff_of_false nofun fun hpossible => hpossible.2 h
          · exact iff_of_true rfl ⟨⟨error, rfl⟩, h⟩
      | unset => exact iff_of_false nofun (by rintro ⟨⟨_, h⟩, -⟩; cases h)
      | fired => exact iff_of_false nofun (by rintro ⟨⟨_, h⟩, -⟩; cases h)
      | cleared => exact iff_of_false nofun (by rintro ⟨⟨_, h⟩, -⟩; cases h)
  | callerAborts reason =>
      rw [step, Possible]
      split_ifs with h
      · exact iff_of_false nofun (by rw [h]; nofun)
      · dsimp only
        split
        · exact iff_of_true rfl (Bool.eq_false_iff.mpr h)
        · exact iff_of_true rfl (Bool.eq_false_iff.mpr h)
  | tick =>
      rw [step, Possible]
      cases s.jobs with
      | nil => exact iff_of_false nofun fun h => h rfl
      | cons job jobs => exact iff_of_true rfl (List.cons_ne_nil _ _)

/-! ## The start of a call -/

variable (parse : String → Number) (render : Number → String)

/-- The timeout of a request: its own, or the client's. -/
def timeoutMs (requestTimeoutMs : Number) (headers : Headers) : Number :=
  match headers.get timeoutHeader with
  | some override => parse override
  | none => requestTimeoutMs

/-- `Number.isFinite(timeoutMs)` and not `timeoutMs <= 0` -/
def isTimed : Number → Bool
  | .finite ms => decide (0 < ms)
  | _ => false

/-- The rejection of the timer of a request. -/
def timeoutError (requestTimeoutMs : Number) (request : Request ν κ) : Thrown ν :=
  requestTimeout request.url (render (timeoutMs parse requestTimeoutMs request.headers))

/-- A request that is about to be sent with these headers, under no timeout. -/
def direct (request : Request ν κ) (headers : Headers) : State ρ ν κ where
  wire := (request.url, headers)
  signal := request.signal.map some
  follows := true
  cancelled := request.signal.reason.map .caller
  timer := .unset
  send := .calling
  jobs := []
  race := none
  settled := none

/-- `createHttpFetch`, up to its call of `send`. -/
def createHttpFetch (requestTimeoutMs : Number) (request : Request ν κ) :
    Option (State ρ ν κ) :=
  (outboundHeaders request.headers).map fun headers =>
    let s := direct request headers
    if isTimed (timeoutMs parse requestTimeoutMs request.headers) then
      { s with
        signal := if s.signal.aborted then s.signal else s.signal.addEventListener none true
        follows := false
        timer := .armed (timeoutError parse render requestTimeoutMs request) }
    else s

end

/-! ## What the wrapper promises -/

section

variable (error : Thrown ν)

/-- What an event settles one of the two promises with. -/
def Event.outcome : Event ρ ν → Option (Outcome ρ ν)
  | .throws error => some (.sent (.error error))
  | .sendSettles result => some (.sent result)
  | .timerFires => some (.timedOut error)
  | .returns | .callerAborts _ | .tick => none

/-- The event is the settlement of the send, or the timer. -/
def Event.isSource : Event ρ ν → Bool
  | .throws _ | .sendSettles _ | .timerFires => true
  | .returns | .callerAborts _ | .tick => false

/-- Why an event aborts the outbound request. -/
def Event.cause : Event ρ ν → Option (Cause ν)
  | .callerAborts reason => some (.caller reason)
  | .timerFires => some .timer
  | .throws _ | .returns | .sendSettles _ | .tick => none

/-- What an event makes the send reject with. -/
def Event.rejection : Event ρ ν → Option (Thrown ν)
  | .throws error | .sendSettles (.error error) => some error
  | .sendSettles (.ok _) | .returns | .timerFires | .callerAborts _ | .tick => none

/-- `code` of a thrown value is `request_timeout`. -/
def IsRequestTimeout : Thrown ν → Prop
  | .fissionPlane error => error.code = some (Json.units "request_timeout")
  | .typeError _ | .other _ => False

/-- What comes of the first of the two in a schedule. -/
def firstOutcome (schedule : List (Event ρ ν)) : Option (Outcome ρ ν) :=
  (schedule.find? Event.isSource).bind (Event.outcome error)

theorem firstOutcome_cons (e : Event ρ ν) (schedule : List (Event ρ ν)) :
    firstOutcome error (e :: schedule) = (e.outcome error <|> firstOutcome error schedule) := by
  cases e <;> rfl

/-- What every step keeps to: a settlement is final, what the caller's abort or the timer cancels
before it is cancelled for good, and the request on the wire stays as it is. -/
structure Lawful (s : State ρ ν κ) (e : Event ρ ν) (s' : State ρ ν κ) : Prop where
  once : ∀ outcome, s.settled = some outcome → s'.settled = some outcome
  cancels : s.settled = none → ∀ cause, e.cause = some cause →
    s'.cancelled = (s.cancelled <|> some cause)
  stays : ∀ cause, s.cancelled = some cause → s'.cancelled = some cause
  wire : s'.wire = s.wire

/-- What holds of a call after any schedule of events. -/
structure Conforms [DecidableEq κ] (schedule : List (Event ρ ν)) (s : State ρ ν κ) : Prop where
  /-- The wrapper settles with the first of the send and the timer, -/
  first : ∀ outcome, s.settled = some outcome → firstOutcome error schedule = some outcome
  /-- and does settle once one of them has come, when the reactions that are queued have run. -/
  settles : ∀ outcome, firstOutcome error schedule = some outcome →
    ∃ n, (run step s (List.replicate n .tick)).bind State.settled = some outcome
  /-- It rejects with the error of its timer exactly if that came first; -/
  timedOut_iff : s.settled.isSome = true →
    (s.settled = some (.timedOut error) ↔
      schedule.find? Event.isSource = some .timerFires)
  /-- so it does with `request_timeout`, if the send itself never rejects with that. -/
  requestTimeout_iff :
    (∀ e ∈ schedule, ∀ thrown, e.rejection = some thrown → ¬ IsRequestTimeout thrown) →
    ∀ outcome, s.settled = some outcome →
      ((∃ thrown, outcome.result = .error thrown ∧ IsRequestTimeout thrown) ↔
        schedule.find? Event.isSource = some .timerFires)
  /-- The timer is not left running, and the caller's signal is let go. -/
  released : s.settled.isSome = true →
    (∀ thrown, s.timer ≠ .armed thrown) ∧ none ∉ s.signal.listening

/-! ## The invariant -/

/-- Only reactions of the race. -/
def OnlyReactions (jobs : List (Job ρ ν)) : Prop := ∀ job ∈ jobs, ∃ outcome, job = .react outcome

/-- How far a race whose first promise settled with `outcome` has got. -/
inductive Progress (outcome : Outcome ρ ν) (s : State ρ ν κ) : Prop
  /-- Its reaction is the next in the queue. -/
  | queued (rest : List (Job ρ ν)) (race : s.race = none) (settled : s.settled = none)
      (jobs : s.jobs = .react outcome :: rest) (only : OnlyReactions rest)
  /-- The race is won, and the wrapper is to be resumed. -/
  | raced (before after : List (Job ρ ν)) (race : s.race = some outcome)
      (settled : s.settled = none) (jobs : s.jobs = before ++ .resume outcome :: after)
      (first : OnlyReactions before) (later : OnlyReactions after)
  /-- The wrapper has settled; reactions still to come find the race won, if there was one. -/
  | done (settled : s.settled = some outcome) (only : OnlyReactions s.jobs)
      (finished : s.race.isSome = true ∨ (s.send = .threw ∧ s.jobs = []))

/-- What holds of a call whose first source, if one has come, is `first`. -/
structure Inv (first : Option (Outcome ρ ν)) (s : State ρ ν κ) : Prop where
  /-- Before a source has come there is nothing to run. -/
  idle : first = none → s.jobs = [] ∧ s.race = none ∧ s.settled = none
  progress : ∀ outcome, first = some outcome → s.send ≠ .calling ∧ Progress outcome s
  /-- The timer that is armed rejects with the timeout. -/
  expiry : ∀ thrown, s.timer = .armed thrown → thrown = error
  /-- An abort reaches the outbound request until the wrapper settles. -/
  listens : s.settled = none → s.follows = false → s.signal.reason = none →
    none ∈ s.signal.listening
  /-- Afterwards neither the timer nor the listener is left. -/
  released : s.settled.isSome = true ∨ s.follows = true →
    (∀ thrown, s.timer ≠ .armed thrown) ∧ none ∉ s.signal.listening

end

variable {error : Thrown ν} {first : Option (Outcome ρ ν)} {s s' : State ρ ν κ}
  {outcome : Outcome ρ ν}

theorem inv_direct (request : Request ν κ) (headers : Headers) :
    Inv error none (direct request headers : State ρ ν κ) where
  idle := fun _ => ⟨rfl, rfl, rfl⟩
  progress := nofun
  expiry := nofun
  listens := nofun
  released := by
    refine fun _ => ⟨nofun, fun hmem => ?_⟩
    show False
    rw [direct, AbortSignal.listening_map, List.mem_map] at hmem
    obtain ⟨k, -, hk⟩ := hmem
    cases hk

/-! ## One step -/

theorem onlyReactions_nil : OnlyReactions ([] : List (Job ρ ν)) :=
  fun _ hjob => absurd hjob List.not_mem_nil

theorem OnlyReactions.tail {job : Job ρ ν} {jobs : List (Job ρ ν)}
    (h : OnlyReactions (job :: jobs)) : OnlyReactions jobs :=
  fun job hjob => h job (List.mem_cons_of_mem _ hjob)

theorem OnlyReactions.push {jobs : List (Job ρ ν)} (h : OnlyReactions jobs)
    (outcome : Outcome ρ ν) : OnlyReactions (jobs ++ [.react outcome]) := by
  intro job hjob
  rw [List.mem_append, List.mem_singleton] at hjob
  obtain hjob | rfl := hjob
  · exact h job hjob
  · exact ⟨outcome, rfl⟩

/-- A step that has no cause to abort the outbound request. -/
theorem Lawful.of_quiet {e : Event ρ ν} (hcause : e.cause = none)
    (hcancelled : s'.cancelled = s.cancelled) (hwire : s'.wire = s.wire)
    (honce : ∀ outcome, s.settled = some outcome → s'.settled = some outcome) : Lawful s e s' where
  once := honce
  cancels := by
    intro _ cause h
    rw [hcause] at h
    cases h
  stays := fun _ h => hcancelled.trans h
  wire := hwire

/-- A step that aborts it. -/
theorem Lawful.of_cancel {e : Event ρ ν} {cause : Cause ν} (hcause : e.cause = some cause)
    (hcancelled : s'.cancelled = (s.cancelled <|> some cause)) (hwire : s'.wire = s.wire)
    (honce : ∀ outcome, s.settled = some outcome → s'.settled = some outcome) : Lawful s e s' where
  once := honce
  cancels := by
    intro _ cause' h
    obtain rfl := Option.some.inj (hcause.symm.trans h)
    exact hcancelled
  stays := by
    intro cause' h
    rw [hcancelled, h]
    rfl
  wire := hwire

/-! ### A promise of the race settles -/

/-- The race depends on nothing but these. -/
theorem Progress.congr (h : Progress outcome s) (hjobs : s'.jobs = s.jobs)
    (hrace : s'.race = s.race) (hsettled : s'.settled = s.settled) (hsend : s'.send = s.send) :
    Progress outcome s' := by
  cases h with
  | queued rest race settled jobs only =>
      exact .queued rest (hrace.trans race) (hsettled.trans settled) (hjobs.trans jobs) only
  | raced before after race settled jobs first later =>
      exact .raced before after (hrace.trans race) (hsettled.trans settled) (hjobs.trans jobs) first
        later
  | done settled only finished =>
      refine .done (hsettled.trans settled) (hjobs ▸ only) ?_
      rw [hrace, hsend, hjobs]
      exact finished

/-- A promise that settles once the race is on has its reaction queued behind what is there. -/
theorem Progress.push (h : Progress outcome s) (later : Outcome ρ ν)
    (hlive : s.settled = none ∨ s.race.isSome = true) (hrace : s'.race = s.race)
    (hsettled : s'.settled = s.settled) (hjobs : s'.jobs = s.jobs ++ [.react later]) :
    Progress outcome s' := by
  cases h with
  | queued rest race settled jobs only =>
      refine .queued (rest ++ [.react later]) (hrace.trans race) (hsettled.trans settled) ?_
        (only.push later)
      rw [hjobs, jobs, List.cons_append]
  | raced before after race settled jobs first last =>
      refine .raced before (after ++ [.react later]) (hrace.trans race) (hsettled.trans settled) ?_
        first (last.push later)
      rw [hjobs, jobs, List.append_assoc, List.cons_append]
  | done settled only finished =>
      refine .done (hsettled.trans settled) ?_ (.inl ?_)
      · rw [hjobs]
        exact only.push later
      · rw [hrace]
        obtain hnone | hsome := hlive
        · rw [settled] at hnone
          cases hnone
        · exact hsome

/-- The first source starts the race, and a later one only joins the queue. -/
theorem Inv.push (h : Inv error first s) (hcalled : s'.send ≠ .calling)
    (hlive : s.settled = none ∨ s.race.isSome = true) (hrace : s'.race = s.race)
    (hsettled : s'.settled = s.settled) (hjobs : s'.jobs = s.jobs ++ [.react outcome])
    (hfollows : s'.follows = s.follows) (hsignal : s'.signal = s.signal)
    (htimer : ∀ thrown, s'.timer = .armed thrown → s.timer = .armed thrown) :
    Inv error (first <|> some outcome) s' := by
  constructor
  · cases first <;> nofun
  · intro winner hwinner
    refine ⟨hcalled, ?_⟩
    cases first with
    | none =>
        obtain rfl : outcome = winner := Option.some.inj hwinner
        obtain ⟨hempty, hnorace, hopen⟩ := h.idle rfl
        refine .queued [] (hrace.trans hnorace) (hsettled.trans hopen) ?_
          onlyReactions_nil
        rw [hjobs, hempty, List.nil_append]
    | some already =>
        obtain rfl : already = winner := Option.some.inj hwinner
        exact (h.progress already rfl).2.push outcome hlive hrace hsettled hjobs
  · intro thrown hthrown
    exact h.expiry thrown (htimer thrown hthrown)
  · rw [hsettled, hfollows, hsignal]
    exact h.listens
  · rw [hsettled, hfollows, hsignal]
    intro hover
    obtain ⟨hunarmed, hmem⟩ := h.released hover
    exact ⟨fun thrown hthrown => hunarmed thrown (htimer thrown hthrown), hmem⟩

/-- While the wrapper is unsettled, and after a race, a promise may still settle. -/
theorem Inv.live (h : Inv error first s) (hsend : s.send ≠ .threw) :
    s.settled = none ∨ s.race.isSome = true := by
  cases first with
  | none => exact .inl (h.idle rfl).2.2
  | some winner =>
      cases (h.progress winner rfl).2 with
      | queued rest race settled jobs only => exact .inl settled
      | raced before after race settled jobs first later => exact .inl settled
      | done settled only finished =>
          obtain hrace | ⟨hthrew, -⟩ := finished
          · exact .inr hrace
          · exact absurd hthrew hsend

/-- The wrapper settles with what comes first. -/
theorem Inv.settled_first (h : Inv error first s) (hsettled : s.settled = some outcome) :
    first = some outcome := by
  cases first with
  | none =>
      rw [(h.idle rfl).2.2] at hsettled
      cases hsettled
  | some winner =>
      cases (h.progress winner rfl).2 with
      | queued rest race settled jobs only => cases settled.symm.trans hsettled
      | raced before after race settled jobs first later => cases settled.symm.trans hsettled
      | done settled only finished => exact settled.symm.trans hsettled

/-- Taking the next reaction off the queue, where that leaves the race as far on as it was. -/
theorem Inv.pop {winner : Outcome ρ ν} {jobs : List (Job ρ ν)} (h : Inv error (some winner) s)
    (hprogress : Progress winner { s with jobs := jobs }) :
    Inv error (some winner) { s with jobs := jobs } where
  idle := nofun
  progress := by
    intro outcome houtcome
    obtain rfl := Option.some.inj houtcome
    exact ⟨(h.progress winner rfl).1, hprogress⟩
  expiry := h.expiry
  listens := h.listens
  released := h.released

/-! ### The wrapper settles -/

section

variable [DecidableEq κ]

@[simp]
theorem settled_settle (s : State ρ ν κ) (outcome : Outcome ρ ν) :
    (settle s outcome).settled = some outcome := by
  unfold settle
  split <;> rfl

/-- Settling leaves the queue, the send and the outbound request alone. -/
theorem settle_frame (s : State ρ ν κ) (outcome : Outcome ρ ν) :
    (settle s outcome).jobs = s.jobs ∧ (settle s outcome).race = s.race ∧
      (settle s outcome).send = s.send ∧ (settle s outcome).cancelled = s.cancelled ∧
      (settle s outcome).wire = s.wire := by
  unfold settle
  split <;> exact ⟨rfl, rfl, rfl, rfl, rfl⟩

/-- The wrapper settles with its timer and its listener gone: `finally` has run, or there never
were any. -/
theorem released_settle (outcome : Outcome ρ ν)
    (hdirect : s.follows = true → (∀ thrown, s.timer ≠ .armed thrown) ∧ none ∉ s.signal.listening) :
    (∀ thrown, (settle s outcome).timer ≠ .armed thrown) ∧
      none ∉ (settle s outcome).signal.listening := by
  unfold settle
  split
  · next hfollows => exact hdirect hfollows
  · refine ⟨nofun, fun hmem => ?_⟩
    exact (AbortSignal.mem_listening_removeEventListener.mp hmem).2 rfl

theorem inv_settle
    (hdirect : s.follows = true → (∀ thrown, s.timer ≠ .armed thrown) ∧ none ∉ s.signal.listening)
    (hcalled : s.send ≠ .calling) (only : OnlyReactions s.jobs)
    (finished : s.race.isSome = true ∨ (s.send = .threw ∧ s.jobs = [])) :
    Inv error (some outcome) (settle s outcome) := by
  obtain ⟨hjobs, hrace, hsend, -, -⟩ := settle_frame s outcome
  have hreleased := released_settle outcome hdirect
  constructor
  · nofun
  · intro outcome' houtcome
    obtain rfl := Option.some.inj houtcome
    rw [hsend]
    refine ⟨hcalled, .done (settled_settle s outcome) ?_ ?_⟩
    · rwa [hjobs]
    · rwa [hrace, hsend, hjobs]
  · intro thrown hthrown
    exact absurd hthrown (hreleased.1 thrown)
  · intro hsettled
    rw [settled_settle] at hsettled
    cases hsettled
  · exact fun _ => hreleased

/-! ### What each event does -/

theorem throws_cases {thrown : Thrown ν} (hs : step s (.throws thrown) = some s') :
    s.send = .calling ∧ s' = settle { s with send := .threw } (.sent (.error thrown)) := by
  simp only [step] at hs
  split_ifs at hs with hcalling
  exact ⟨hcalling, (Option.some.inj hs).symm⟩

theorem returns_cases (hs : step s .returns = some s') :
    s.send = .calling ∧ s' = { s with send := .pending } := by
  simp only [step] at hs
  split_ifs at hs with hcalling
  exact ⟨hcalling, (Option.some.inj hs).symm⟩

theorem sendSettles_cases {result : Except (Thrown ν) ρ}
    (hs : step s (.sendSettles result) = some s') :
    s.send = .pending ∧
      s' = { s with send := .settled, jobs := s.jobs ++ [.react (.sent result)] } := by
  simp only [step] at hs
  split_ifs at hs with hpending
  exact ⟨hpending, (Option.some.inj hs).symm⟩

theorem timerFires_cases (hs : step s .timerFires = some s') :
    ∃ thrown, s.timer = .armed thrown ∧ s.send ≠ .calling ∧
      s' = cancel { s with timer := .fired, jobs := s.jobs ++ [.react (.timedOut thrown)] }
        .timer := by
  simp only [step] at hs
  split at hs
  · next thrown harmed =>
      split_ifs at hs with hcalling
      exact ⟨thrown, harmed, hcalling, (Option.some.inj hs).symm⟩
  · cases hs

/-- The outbound request hears of the abort unless the wrapper has let go of the signal. -/
theorem callerAborts_cases {reason : Thrown ν} (hs : step s (.callerAborts reason) = some s') :
    s.signal.reason = none ∧
      (s' = cancel { s with signal := (s.signal.abort reason).1 } (.caller reason) ∨
        s.follows = false ∧ none ∉ s.signal.listening ∧
          s' = { s with signal := (s.signal.abort reason).1 }) := by
  simp only [step] at hs
  split_ifs at hs with haborted htold
  · exact ⟨AbortSignal.not_aborted_iff.mp haborted, .inl (Option.some.inj hs).symm⟩
  · have hlive := AbortSignal.not_aborted_iff.mp haborted
    rw [Bool.or_eq_true, decide_eq_true_eq, (AbortSignal.abort_of_live hlive reason).2] at htold
    push Not at htold
    rw [ne_eq, Bool.not_eq_true] at htold
    exact ⟨hlive, .inr ⟨htold.1, htold.2, (Option.some.inj hs).symm⟩⟩

theorem tick_cases (hs : step s .tick = some s') :
    ∃ job jobs, s.jobs = job :: jobs ∧ s' = runJob { s with jobs := jobs } job := by
  simp only [step] at hs
  split at hs
  · cases hs
  · next job jobs hqueue => exact ⟨job, jobs, hqueue, (Option.some.inj hs).symm⟩

/-! ### The events keep the invariant -/

theorem inv_throws {thrown : Thrown ν} (h : Inv error first s)
    (hs : step s (.throws thrown) = some s') :
    Inv error (first <|> some (.sent (.error thrown))) s' := by
  obtain ⟨hcalling, rfl⟩ := throws_cases hs
  cases first with
  | some winner => exact absurd hcalling (h.progress winner rfl).1
  | none =>
      -- while `send` is being called nothing can have come before
      obtain ⟨hempty, -, -⟩ := h.idle rfl
      apply inv_settle
      · exact fun hfollows => h.released (.inr hfollows)
      · nofun
      · rw [hempty]
        exact onlyReactions_nil
      · exact .inr ⟨rfl, hempty⟩

theorem inv_returns (h : Inv error first s) (hs : step s .returns = some s') :
    Inv error first s' := by
  obtain ⟨hcalling, rfl⟩ := returns_cases hs
  refine ⟨h.idle, fun winner hwinner => ?_, h.expiry, h.listens, h.released⟩
  exact absurd hcalling (h.progress winner hwinner).1

theorem inv_sendSettles {result : Except (Thrown ν) ρ} (h : Inv error first s)
    (hs : step s (.sendSettles result) = some s') :
    Inv error (first <|> some (.sent result)) s' := by
  obtain ⟨hpending, rfl⟩ := sendSettles_cases hs
  apply h.push
  · nofun
  · apply h.live
    rw [hpending]
    nofun
  · rfl
  · rfl
  · rfl
  · rfl
  · rfl
  · exact fun _ hthrown => hthrown

theorem inv_timerFires (h : Inv error first s) (hs : step s .timerFires = some s') :
    Inv error (first <|> some (.timedOut error)) s' := by
  obtain ⟨thrown, harmed, hcalled, rfl⟩ := timerFires_cases hs
  obtain rfl := h.expiry thrown harmed
  apply h.push
  · exact hcalled
  · by_cases hsettled : s.settled = none
    · exact .inl hsettled
    · have hover := h.released (.inl (Option.isSome_iff_ne_none.mpr hsettled))
      exact absurd harmed (hover.1 thrown)
  · rfl
  · rfl
  · rfl
  · rfl
  · rfl
  · nofun

/-- Whether the outbound request hears of it makes no difference to the race. -/
theorem inv_callerAborts {reason : Thrown ν} (h : Inv error first s)
    (hs : step s (.callerAborts reason) = some s') : Inv error first s' := by
  obtain ⟨hlive, hs'⟩ := callerAborts_cases hs
  have hreason := (AbortSignal.abort_of_live hlive reason).1
  have hsubset := AbortSignal.listening_abort_subset s.signal reason
  have haborted : ∀ cancelled, Inv error first
      { s with signal := (s.signal.abort reason).1, cancelled := cancelled } := by
    intro cancelled
    refine ⟨h.idle, fun winner hwinner => ?_, h.expiry, fun _ _ hnone => ?_, fun hover => ?_⟩
    · obtain ⟨hcalled, hprogress⟩ := h.progress winner hwinner
      exact ⟨hcalled, hprogress.congr rfl rfl rfl rfl⟩
    · exact absurd (hreason.symm.trans hnone) (by simp)
    · obtain ⟨hunarmed, hmem⟩ := h.released hover
      exact ⟨hunarmed, fun hlistens => hmem (hsubset hlistens)⟩
  obtain rfl | ⟨-, -, rfl⟩ := hs'
  · exact haborted _
  · exact haborted s.cancelled

/-- A reaction that finds the race won has no effect. -/
theorem runJob_late {winner : Outcome ρ ν} (jobs : List (Job ρ ν)) (outcome : Outcome ρ ν)
    (h : s.race = some winner) :
    runJob { s with jobs := jobs } (.react outcome) = { s with jobs := jobs } := by
  simp only [runJob, h]

/-- The reaction to the first promise wins the race. -/
theorem inv_runJob_first {winner : Outcome ρ ν} {rest : List (Job ρ ν)}
    (h : Inv error (some winner) s) (race : s.race = none) (settled : s.settled = none)
    (only : OnlyReactions rest) :
    Inv error (some winner) (runJob { s with jobs := rest } (.react winner)) := by
  have hcalled := (h.progress winner rfl).1
  simp only [runJob, race]
  split_ifs with hfollows
  · exact inv_settle (fun _ => h.released (.inr hfollows)) hcalled only (.inl rfl)
  · refine ⟨nofun, fun outcome houtcome => ⟨hcalled, ?_⟩, h.expiry, h.listens, h.released⟩
    obtain rfl := Option.some.inj houtcome
    exact .raced rest [] rfl settled rfl only onlyReactions_nil

/-- The next reaction runs: it ends the race, resumes the wrapper, or comes too late. -/
theorem inv_tick (h : Inv error first s) (hs : step s .tick = some s') : Inv error first s' := by
  obtain ⟨job, jobs, hqueue, rfl⟩ := tick_cases hs
  cases first with
  | none =>
      rw [(h.idle rfl).1] at hqueue
      cases hqueue
  | some winner =>
      obtain ⟨hcalled, hprogress⟩ := h.progress winner rfl
      cases hprogress with
      | queued rest race settled jobs' only =>
          obtain ⟨rfl, rfl⟩ := List.cons.inj (hqueue.symm.trans jobs')
          exact inv_runJob_first h race settled only
      | raced before after race settled jobs' earlier later =>
          cases before with
          | nil =>
              -- the wrapper's own reaction is next
              obtain ⟨rfl, rfl⟩ := List.cons.inj (hqueue.symm.trans jobs')
              apply inv_settle
              · exact fun hfollows => h.released (.inr hfollows)
              · exact hcalled
              · exact later
              · exact .inl (by rw [race]; rfl)
          | cons job' before =>
              obtain ⟨rfl, rfl⟩ := List.cons.inj (hqueue.symm.trans jobs')
              obtain ⟨outcome, rfl⟩ := earlier job List.mem_cons_self
              rw [runJob_late _ outcome race]
              exact h.pop (.raced before after race settled rfl earlier.tail later)
      | done settled only finished =>
          rw [hqueue] at only finished
          obtain ⟨outcome, rfl⟩ := only job List.mem_cons_self
          obtain hrace | ⟨-, hempty⟩ := finished
          · obtain ⟨raced, hraced⟩ := Option.isSome_iff_exists.mp hrace
            rw [runJob_late _ outcome hraced]
            exact h.pop (.done settled only.tail (.inl hrace))
          · cases hempty

theorem inv_step {e : Event ρ ν} (h : Inv error first s) (hs : step s e = some s') :
    Inv error (first <|> e.outcome error) s' := by
  have hskip : (first <|> none) = first := by cases first <;> rfl
  cases e with
  | throws thrown => exact inv_throws h hs
  | returns =>
      show Inv error (first <|> none) s'
      rw [hskip]
      exact inv_returns h hs
  | sendSettles result => exact inv_sendSettles h hs
  | timerFires => exact inv_timerFires h hs
  | callerAborts reason =>
      show Inv error (first <|> none) s'
      rw [hskip]
      exact inv_callerAborts h hs
  | tick =>
      show Inv error (first <|> none) s'
      rw [hskip]
      exact inv_tick h hs

/-! ## Runs -/

theorem inv_run : ∀ {schedule : List (Event ρ ν)} {first : Option (Outcome ρ ν)}
    {s s' : State ρ ν κ}, Inv error first s → run step s schedule = some s' →
      Inv error (first <|> firstOutcome error schedule) s'
  | [], first, s, s', h, hs => by
      obtain rfl := Option.some.inj hs
      cases first <;> exact h
  | e :: schedule, first, s, s', h, hs => by
      obtain ⟨mid, hmid, hs'⟩ := run_cons_eq_some.mp hs
      have hinv := inv_run (inv_step h hmid) hs'
      rw [firstOutcome_cons]
      cases first <;> exact hinv

/-! ### What every step keeps to -/

/-- Running a reaction leaves the outbound request alone, and settles at most. -/
theorem runJob_frame (s : State ρ ν κ) (job : Job ρ ν) :
    (runJob s job).cancelled = s.cancelled ∧ (runJob s job).wire = s.wire ∧
      (s.settled.isSome = true → (runJob s job).settled.isSome = true) := by
  have hsettle : ∀ (s : State ρ ν κ) outcome, (settle s outcome).cancelled = s.cancelled ∧
      (settle s outcome).wire = s.wire ∧
        (s.settled.isSome = true → (settle s outcome).settled.isSome = true) := by
    intro s outcome
    obtain ⟨-, -, -, hcancelled, hwire⟩ := settle_frame s outcome
    refine ⟨hcancelled, hwire, fun _ => ?_⟩
    rw [settled_settle]
    rfl
  cases job with
  | resume outcome => exact hsettle s outcome
  | react outcome =>
      simp only [runJob]
      split
      · exact ⟨rfl, rfl, id⟩
      · split_ifs
        · exact hsettle _ outcome
        · exact ⟨rfl, rfl, id⟩

theorem lawful_step {e : Event ρ ν} (h : Inv error first s) (hs : step s e = some s') :
    Lawful s e s' := by
  have hinv := inv_step h hs
  have honce : (s.settled.isSome = true → s'.settled.isSome = true) →
      ∀ outcome, s.settled = some outcome → s'.settled = some outcome := by
    intro hkeep outcome hsettled
    obtain ⟨outcome', hsettled'⟩ := Option.isSome_iff_exists.mp (hkeep (by rw [hsettled]; rfl))
    have hfirst := hinv.settled_first hsettled'
    rw [h.settled_first hsettled] at hfirst
    rw [hsettled']
    exact hfirst.symm
  cases e with
  | throws thrown =>
      obtain ⟨-, rfl⟩ := throws_cases hs
      obtain ⟨-, -, -, hcancelled, hwire⟩ :=
        settle_frame { s with send := .threw } (.sent (.error thrown))
      refine .of_quiet rfl hcancelled hwire (honce fun _ => ?_)
      rw [settled_settle]
      rfl
  | returns =>
      obtain ⟨-, rfl⟩ := returns_cases hs
      exact .of_quiet rfl rfl rfl fun _ => id
  | sendSettles result =>
      obtain ⟨-, rfl⟩ := sendSettles_cases hs
      exact .of_quiet rfl rfl rfl fun _ => id
  | timerFires =>
      obtain ⟨thrown, -, -, rfl⟩ := timerFires_cases hs
      exact .of_cancel rfl rfl rfl fun _ => id
  | callerAborts reason =>
      obtain ⟨hlive, rfl | ⟨hfollows, hmem, rfl⟩⟩ := callerAborts_cases hs
      · exact .of_cancel rfl rfl rfl fun _ => id
      · -- an unsettled wrapper listens, unless the outbound request follows the signal
        refine ⟨fun _ => id, fun hopen => ?_, fun _ => id, rfl⟩
        exact absurd (h.listens hopen hfollows hlive) hmem
  | tick =>
      obtain ⟨job, jobs, -, rfl⟩ := tick_cases hs
      obtain ⟨hcancelled, hwire, hkeep⟩ := runJob_frame { s with jobs := jobs } job
      exact .of_quiet rfl hcancelled hwire (honce hkeep)

theorem everyStep_lawful : ∀ {schedule : List (Event ρ ν)} {first : Option (Outcome ρ ν)}
    {s : State ρ ν κ}, Inv error first s → EveryStep step Lawful s schedule
  | [], _, _, _ => trivial
  | _ :: _, _, _, h => fun _ hs => ⟨lawful_step h hs, everyStep_lawful (inv_step h hs)⟩

/-! ### The queue drains -/

/-- A won race resumes the wrapper once the reactions before that have run. -/
theorem settles_of_raced : ∀ (before : List (Job ρ ν)) {after : List (Job ρ ν)}
    {s : State ρ ν κ}, s.race = some outcome → s.jobs = before ++ .resume outcome :: after →
      OnlyReactions before →
      ∃ n, (run step s (List.replicate n .tick)).bind State.settled = some outcome
  | [], after, s, _, hjobs, _ => by
      refine ⟨1, ?_⟩
      show (run step s [.tick]).bind State.settled = _
      rw [run_cons]
      simp only [step, hjobs, List.nil_append, runJob, Option.bind_some, run_nil]
      exact settled_settle _ outcome
  | job :: before, after, s, hrace, hjobs, hearlier => by
      obtain ⟨late, rfl⟩ := hearlier job List.mem_cons_self
      obtain ⟨n, hn⟩ := settles_of_raced before
        (s := { s with jobs := before ++ .resume outcome :: after }) hrace rfl hearlier.tail
      refine ⟨n + 1, ?_⟩
      rw [List.replicate_succ, run_cons]
      simp only [step, hjobs, List.cons_append]
      rw [runJob_late _ late hrace]
      exact hn

/-- Once a source has come, running the queue settles the wrapper. -/
theorem Inv.settles (h : Inv error (some outcome) s) :
    ∃ n, (run step s (List.replicate n .tick)).bind State.settled = some outcome := by
  cases (h.progress outcome rfl).2 with
  | done settled only finished => exact ⟨0, settled⟩
  | raced before after race settled jobs first later =>
      exact settles_of_raced before race jobs first
  | queued rest race settled jobs only =>
      by_cases hfollows : s.follows = true
      · refine ⟨1, ?_⟩
        show (run step s [.tick]).bind State.settled = _
        rw [run_cons]
        simp only [step, jobs, runJob, race, hfollows, if_true, Option.bind_some, run_nil]
        exact settled_settle _ outcome
      · obtain ⟨n, hn⟩ := settles_of_raced rest
          (s := { s with jobs := rest ++ [.resume outcome], race := some outcome }) rfl rfl only
        have htick : step s .tick =
            some { s with jobs := rest ++ [.resume outcome], race := some outcome } := by
          simp only [step, jobs, runJob, race]
          rw [if_neg hfollows]
        refine ⟨n + 1, ?_⟩
        rw [List.replicate_succ, run_cons, htick]
        exact hn

/-! ## The start -/

section

variable (parse : String → Number) (render : Number → String) (requestTimeoutMs : Number)
  (request : Request ν κ)

/-- Adding default headers under other names never fails, and leaves the timeout header out. -/
theorem exists_withDefaults : ∀ (defaults : List (String × String)) {headers : Headers},
    (∀ header ∈ defaults, isHeaderName header.1 = true ∧
      isHeaderValue (normalize header.2) = true ∧ lower header.1 ≠ lower timeoutHeader) →
    headers.has timeoutHeader = false →
    ∃ out, defaults.foldlM (fun headers header =>
        if headers.has header.1 then some headers else headers.set header.1 header.2) headers
          = some out ∧ out.has timeoutHeader = false
  | [], headers, _, hno => ⟨headers, rfl, hno⟩
  | (name, value) :: defaults, headers, hvalid, hno => by
      obtain ⟨hname, hvalue, hne⟩ := hvalid (name, value) List.mem_cons_self
      have hrest := fun header hmem => hvalid header (List.mem_cons_of_mem _ hmem)
      rw [List.foldlM_cons]
      dsimp only
      by_cases hhas : headers.has name = true
      · rw [if_pos hhas]
        exact exists_withDefaults defaults hrest hno
      · rw [if_neg hhas, Headers.set_eq_some_iff.mpr ⟨hname, hvalue, rfl⟩]
        apply exists_withDefaults defaults hrest
        rw [Headers.has_eq_false_iff, Headers.put_values_ne _ _ hne.symm]
        exact Headers.has_eq_false_iff.mp hno

theorem exists_outboundHeaders (headers : Headers) :
    ∃ out, outboundHeaders headers = some out ∧ out.has timeoutHeader = false := by
  apply exists_withDefaults
  · decide +kernel
  · rw [Headers.has_eq_false_iff, Headers.delete, Headers.put_values_self]

/-- A call starts within the invariant: under a timeout with its timer armed and its listener on,
unless the signal is aborted, in which case the outbound request is too. -/
theorem createHttpFetch_start : ∃ s : State ρ ν κ,
    createHttpFetch parse render requestTimeoutMs request = some s ∧
      Inv (timeoutError parse render requestTimeoutMs request) none s ∧
      s.wire.1 = request.url ∧ s.wire.2.has timeoutHeader = false ∧
      s.cancelled = request.signal.reason.map .caller ∧
      (isTimed (timeoutMs parse requestTimeoutMs request.headers) = true →
        s.timer = .armed (timeoutError parse render requestTimeoutMs request)) := by
  obtain ⟨headers, hheaders, hno⟩ := exists_outboundHeaders request.headers
  rw [createHttpFetch, hheaders, Option.map_some]
  dsimp only
  by_cases htimed : isTimed (timeoutMs parse requestTimeoutMs request.headers) = true
  · rw [if_pos htimed]
    refine ⟨_, rfl, ⟨fun _ => ⟨rfl, rfl, rfl⟩, nofun, ?_, ?_, ?_⟩, rfl, hno, rfl, fun _ => rfl⟩
    · intro thrown hthrown
      cases hthrown
      rfl
    · intro _ _ hreason
      dsimp only at hreason ⊢
      split_ifs at hreason ⊢ with haborted
      · rw [AbortSignal.aborted, hreason] at haborted
        cases haborted
      · exact AbortSignal.mem_listening_addEventListener _ _ _
    · rintro (hsettled | hfollows)
      · cases hsettled
      · cases hfollows
  · rw [if_neg htimed]
    exact ⟨_, rfl, inv_direct request headers, rfl, hno, rfl, fun h => absurd h htimed⟩

end

/-! ## What the wrapper does -/

theorem exists_source {schedule : List (Event ρ ν)}
    (h : firstOutcome error schedule = some outcome) :
    ∃ e ∈ schedule, schedule.find? Event.isSource = some e ∧ e.outcome error = some outcome := by
  obtain ⟨e, hfind, he⟩ := Option.bind_eq_some_iff.mp h
  exact ⟨e, List.mem_of_find?_eq_some hfind, hfind, he⟩

theorem conforms_of_inv {schedule : List (Event ρ ν)}
    (herror : IsRequestTimeout error) (h : Inv error (firstOutcome error schedule) s) :
    Conforms error schedule s where
  first := fun _ hsettled => h.settled_first hsettled
  settles := by
    intro outcome houtcome
    rw [houtcome] at h
    exact h.settles
  timedOut_iff := by
    intro hsome
    obtain ⟨outcome, hsettled⟩ := Option.isSome_iff_exists.mp hsome
    obtain ⟨e, -, hfind, he⟩ := exists_source (h.settled_first hsettled)
    rw [hsettled, hfind, Option.some.injEq, Option.some.injEq]
    cases e with
    | timerFires => exact iff_of_true (Option.some.inj he).symm rfl
    | throws thrown =>
        obtain rfl := Option.some.inj he
        exact iff_of_false nofun nofun
    | sendSettles result =>
        obtain rfl := Option.some.inj he
        exact iff_of_false nofun nofun
    | returns => cases he
    | callerAborts reason => cases he
    | tick => cases he
  requestTimeout_iff := by
    intro hother outcome hsettled
    obtain ⟨e, hmem, hfind, he⟩ := exists_source (h.settled_first hsettled)
    rw [hfind, Option.some.injEq]
    cases e with
    | timerFires =>
        obtain rfl := Option.some.inj he
        exact iff_of_true ⟨error, rfl, herror⟩ rfl
    | throws thrown =>
        obtain rfl := Option.some.inj he
        refine iff_of_false ?_ nofun
        rintro ⟨thrown', hthrown, hcode⟩
        obtain rfl := Except.error.inj hthrown
        exact hother _ hmem thrown rfl hcode
    | sendSettles result =>
        obtain rfl := Option.some.inj he
        refine iff_of_false ?_ nofun
        rintro ⟨thrown', hthrown, hcode⟩
        obtain rfl : result = .error thrown' := hthrown
        exact hother _ hmem thrown' rfl hcode
    | returns => cases he
    | callerAborts reason => cases he
    | tick => cases he
  released := fun hsome => h.released (.inl hsome)

/-- **Every call of the wrapper** starts, for every request and every timeout, with a request that
does not carry the timeout header and is aborted if the caller's signal is, and under a positive
finite timeout with its timer armed. After every schedule of send, timer, abort and reactions it has
settled with whichever of send and timer came first and let go of timer and signal, or will; and
every step of it aborts the outbound request if it has a cause to, and settles the wrapper at most
once. -/
theorem createHttpFetch_conforms (parse : String → Number) (render : Number → String)
    (requestTimeoutMs : Number) (request : Request ν κ) :
    ∃ start : State ρ ν κ,
      createHttpFetch parse render requestTimeoutMs request = some start ∧
      start.wire.1 = request.url ∧ start.wire.2.has timeoutHeader = false ∧
      start.cancelled = request.signal.reason.map .caller ∧
      (isTimed (timeoutMs parse requestTimeoutMs request.headers) = true →
        start.timer = .armed (timeoutError parse render requestTimeoutMs request)) ∧
      ∀ schedule, EveryStep step Lawful start schedule ∧
        ∀ s, run step start schedule = some s →
          Conforms (timeoutError parse render requestTimeoutMs request) schedule s := by
  obtain ⟨start, hstart, hinv, hurl, hwire, hcancelled, htimer⟩ :=
    createHttpFetch_start (ρ := ρ) parse render requestTimeoutMs request
  refine ⟨start, hstart, hurl, hwire, hcancelled, htimer, fun schedule => ⟨?_, fun s hs => ?_⟩⟩
  · exact everyStep_lawful hinv
  · exact conforms_of_inv rfl (inv_run hinv hs)

/-- The timer fires, and the fetch it aborts rejects at once: the wrapper times out all the same,
and keeps to its promises. -/
theorem createHttpFetch_conforms_late :
    let request : Request Unit Unit := ⟨"https://api.test/v1", Headers.empty, ⟨none, []⟩⟩
    let schedule : List (Event Unit Unit) :=
      [.returns, .timerFires, .sendSettles (.error (.other ())), .tick, .tick, .tick]
    ∃ start s, createHttpFetch (fun _ => .nan) (fun _ => "20") (.finite 20) request = some start ∧
      run step start schedule = some s ∧
      s.settled = some (.timedOut (requestTimeout "https://api.test/v1" "20")) ∧
      Conforms (requestTimeout "https://api.test/v1" "20") schedule s := by
  intro request schedule
  obtain ⟨start, hstart, -, -, -, -, hconforms⟩ :=
    createHttpFetch_conforms (ρ := Unit) (fun _ => .nan) (fun _ => "20") (.finite 20) request
  obtain ⟨headers, -, rfl⟩ := Option.map_eq_some_iff.mp hstart
  exact ⟨_, _, hstart, rfl, rfl, (hconforms schedule).2 _ rfl⟩

end

end FissionPlane.Sdk.FetchWrapper
