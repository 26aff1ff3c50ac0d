/-
# FissionPlane.Sdk.RequestOverrides -- the per-call options of the Python SDK

The generated cores take no timeout and no headers for a single call. The SDK keeps those of a call
in a context variable while the call runs, and its HTTP client reads the variable whenever it sends.
Threads and tasks run interleaved, each in a context of its own: a thread starts with an empty one,
a task with a copy of the one it is created in.

A flow of control goes on when what it awaits is there. Whatever the order in which the flows go on,
a request carries the options of the call it is made for, a re-mint none, and nothing of a call is
left behind when it ends.
-/
import FissionPlane.Lib.FetchHeaders
import FissionPlane.Lib.Transition
import FissionPlane.Sdk.PythonCaller

namespace FissionPlane.Sdk.RequestOverrides

open FissionPlane.Lib.FetchHeaders (lower)
open FissionPlane.Lib.Transition
open FissionPlane.Sdk.PythonCaller
open FissionPlane.Sdk.Retry.Python (ApiResponse)

/-! ## Requests and overrides -/

abbrev Headers := List (String × String)

/-- A request, as far as an override changes it; no timeout waits for ever. -/
structure Request where
  headers : Headers
  timeout : Option ℚ

/-- `httpx.Headers.__setitem__`: the first header of the name is replaced and the others go. -/
def setItem (name value : String) : Headers → Headers
  | [] => [(name, value)]
  | h :: headers =>
      if lower h.1 = lower name then
        (name, value) :: headers.filter fun h => !(lower h.1 == lower name)
      else h :: setItem name value headers

/-- `to_timeout` -/
def toTimeout : Option ℚ → Option ℚ
  | none => none
  | some seconds => if seconds ≤ 0 then none else some seconds

/-- What a call is given: seconds, and a mapping of headers. -/
structure Options where
  requestTimeout : Option ℚ
  headers : Option Headers

/-- `_Overrides` -/
structure Overrides where
  timeout : Option (Option ℚ)
  headers : Option Headers

/-- What `request_overrides` sets the variable to, if it sets it. -/
def Options.overrides (options : Options) : Option Overrides :=
  if options.requestTimeout.isNone && (options.headers.getD []).isEmpty then none
  else
    some ⟨options.requestTimeout.map fun seconds => toTimeout (some seconds),
      options.headers.filter fun headers => !headers.isEmpty⟩

/-- `_apply_overrides` -/
def applyOverrides : Option Overrides → Request → Request
  | none, request => request
  | some overrides, request =>
      ⟨(overrides.headers.getD []).foldl (fun headers h => setItem h.1 h.2 headers) request.headers,
        overrides.timeout.getD request.timeout⟩

/-! ## Flows of control -/

/-- One data-plane call. -/
structure Call where
  policy : RetryPolicy
  idempotent : Bool
  options : Options
  /-- Whether the module was given a way to mint a token. -/
  refreshes : Bool

/-- What a request is sent for. -/
inductive Purpose where
  | operation (call : Call)
  | mint (call : Call)

/-- The options of the call to `_execute` that sends a request; a mint is given none. -/
def Purpose.options : Purpose → Options
  | .operation call => call.options
  | .mint _ => ⟨none, none⟩

variable {ε : Type}

/-- Where a flow stands. -/
inductive Stage (ε : Type) where
  /-- Outside of any call of the SDK. -/
  | idle
  /-- In the block of `request_overrides`; `reset` is the value to go back to, if one was set. -/
  | executing (call : Call) (reissued : Bool) (reset : Option (Option Overrides))
      (coroutine : Coroutine ε)
  /-- Waiting for `_refresh_token`. -/
  | minting (call : Call) (coroutine : Coroutine ε)

structure Flow (ε : Type) where
  context : Option Overrides
  stage : Stage ε

/-- A request that was sent: as the generated core built it, and as it left the client. -/
structure Sent where
  purpose : Purpose
  built : Request
  request : Request

structure State (ε : Type) where
  flows : List (Flow ε)
  log : List Sent

/-- One thread, before any call. -/
def State.init : State ε := ⟨[⟨none, .idle⟩], []⟩

/-- Enter the block of `request_overrides`: the new context, and what to reset it to. -/
def enter (options : Options) (context : Option Overrides) :
    Option Overrides × Option (Option Overrides) :=
  match options.overrides with
  | none => (context, none)
  | some overrides => (some overrides, some context)

/-- Leave it. -/
def leave (reset : Option (Option Overrides)) (context : Option Overrides) : Option Overrides :=
  reset.getD context

/-- The block is entered and the operation sends its first request. -/
def execute (call : Call) (reissued : Bool) (context : Option Overrides) :
    Flow ε × Option Purpose :=
  let entered := enter call.options context
  (⟨entered.1, .executing call reissued entered.2 (.operation 0)⟩, some (.operation call))

/-- What a coroutine that goes on sends: nothing while it sleeps. -/
def sends (purpose : Purpose) : Coroutine ε → Option Purpose
  | .operation _ => some purpose
  | .sleep _ _ => none
  | .returned _ => none

/-- A coroutine goes on with the outcome of what it awaits; an exception can reach it in its sleep
as well, when its task is cancelled. -/
def goOn (policy : RetryPolicy) (idempotent : Bool) (outcome : Outcome ε) :
    Coroutine ε → Coroutine ε
  | .sleep attempt ceiling =>
      match outcome with
      | .exception error => .returned ⟨attempt + 1, .error (.exception error)⟩
      | _ => resume policy idempotent (fun _ => outcome) (.sleep attempt ceiling)
  | coroutine => resume policy idempotent (fun _ => outcome) coroutine

/-- A flow goes on, with the outcome of what it awaits, and may send a request. A flow outside of a
call awaits nothing. `unwraps` says of which responses to a mint a token is read. -/
def advance (unwraps : ApiResponse → Bool) (flow : Flow ε) (outcome : Outcome ε) :
    Option (Flow ε × Option Purpose) :=
  match flow.stage with
  | .idle => none
  | .executing call reissued reset coroutine =>
      match goOn call.policy call.idempotent outcome coroutine with
      | .returned ⟨_, .ok response⟩ =>
          if !reissued && response.statusCode == 401 && call.refreshes then
            some (⟨leave reset flow.context, .minting call (.operation 0)⟩, some (.mint call))
          else some (⟨leave reset flow.context, .idle⟩, none)
      | .returned ⟨_, .error _⟩ => some (⟨leave reset flow.context, .idle⟩, none)
      | next =>
          some (⟨flow.context, .executing call reissued reset next⟩, sends (.operation call) next)
  | .minting call coroutine =>
      -- a mint is not idempotent
      match goOn call.policy false outcome coroutine with
      | .returned ⟨_, .ok response⟩ =>
          if unwraps response then some (execute call true flow.context)
          else some (⟨flow.context, .idle⟩, none)
      | .returned ⟨_, .error _⟩ => some (⟨flow.context, .idle⟩, none)
      | next => some (⟨flow.context, .minting call next⟩, sends (.mint call) next)

inductive Action (ε : Type) where
  /-- A new thread. -/
  | thread
  /-- A flow outside of a call creates a task. -/
  | task (parent : ℕ)
  /-- `_invoke`; `built` is the request that the operation builds. -/
  | invoke (flow : ℕ) (call : Call) (built : Request)
  /-- `_invoke` of an operation that raises before it sends: there is no token yet. -/
  | refused (flow : ℕ) (call : Call)
  /-- What a flow awaits is there; `built` is the request it goes on to build, if it does. -/
  | advance (flow : ℕ) (outcome : Outcome ε) (built : Request)

/-- The request leaves the client, which reads the variable in the context of the flow. -/
def record (flow : Flow ε) (built : Request) : Option Purpose → List Sent
  | none => []
  | some purpose => [⟨purpose, built, applyOverrides flow.context built⟩]

/-- A flow has gone on. -/
def State.put (s : State ε) (i : ℕ) (built : Request) (next : Flow ε × Option Purpose) :
    State ε :=
  ⟨s.flows.set i next.1, s.log ++ record next.1 built next.2⟩

def step (unwraps : ApiResponse → Bool) (s : State ε) : Action ε → Option (State ε)
  | .thread => some { s with flows := s.flows ++ [⟨none, .idle⟩] }
  | .task parent =>
      match s.flows[parent]? with
      | some ⟨context, .idle⟩ => some { s with flows := s.flows ++ [⟨context, .idle⟩] }
      | _ => none
  | .invoke i call built =>
      match s.flows[i]? with
      | some ⟨context, .idle⟩ => some (s.put i built (execute call false context))
      | _ => none
  | .refused i call =>
      match s.flows[i]? with
      | some ⟨context, .idle⟩ =>
          let entered := enter call.options context
          some { s with flows := s.flows.set i ⟨leave entered.2 entered.1, .idle⟩ }
      | _ => none
  | .advance i outcome built =>
      match s.flows[i]? with
      | some flow => (advance unwraps flow outcome).map (s.put i built)
      | none => none

/-! ## What a request carries -/

/-- The values of a header, whatever the case of its name. -/
def Request.values (request : Request) (name : String) : List String :=
  (request.headers.filter fun h => lower h.1 == lower name).map Prod.snd

/-- The value the options give a header: the last one, where they name it in several cases. -/
def Options.value? (options : Options) (name : String) : Option String :=
  ((options.headers.getD []).findRev? fun h => lower h.1 == lower name).map Prod.snd

/-- The request goes out with the options given, and is as it was built in all else. -/
structure Carries (options : Options) (built request : Request) : Prop where
  timeout : request.timeout =
    match options.requestTimeout with
    | none => built.timeout
    | some seconds => toTimeout (some seconds)
  headers : ∀ name, request.values name =
    match options.value? name with
    | none => built.values name
    | some value => [value]

theorem setItem_values (name value : String) (headers : Headers) (other : String) :
    ((setItem name value headers).filter fun h => lower h.1 == lower other).map Prod.snd =
      if lower name = lower other then [value]
      else (headers.filter fun h => lower h.1 == lower other).map Prod.snd := by
  induction headers with
  | nil =>
      rw [setItem, List.filter_cons]
      by_cases h : lower name = lower other
      · simp [h]
      · simp [h]
  | cons header headers ih =>
      rw [setItem]
      by_cases hname : lower header.1 = lower name
      · rw [if_pos hname]
        by_cases h : lower name = lower other
        · -- what is left of the name has been dropped
          have hrest : (headers.filter fun h => !(lower h.1 == lower name)).filter
              (fun h => lower h.1 == lower other) = [] := by
            rw [List.filter_filter, List.filter_eq_nil_iff]
            intro g _
            simp [h]
          rw [if_pos h, List.filter_cons, if_pos (beq_iff_eq.mpr h), hrest]
          rfl
        · have hkeep : (headers.filter fun h => !(lower h.1 == lower name)).filter
              (fun h => lower h.1 == lower other) =
              headers.filter fun h => lower h.1 == lower other := by
            rw [List.filter_filter]
            refine List.filter_congr fun g _ => ?_
            by_cases hg : lower g.1 = lower other
            · simp [hg, Ne.symm h]
            · simp [hg]
          rw [if_neg h, List.filter_cons, if_neg (by simpa using h), hkeep, List.filter_cons,
            if_neg (by simpa [hname] using h)]
      · rw [if_neg hname, List.filter_cons, List.filter_cons]
        by_cases hheader : lower header.1 = lower other
        · have h : ¬ lower name = lower other := fun h => hname (hheader.trans h.symm)
          rw [if_pos (beq_iff_eq.mpr hheader), if_pos (beq_iff_eq.mpr hheader), List.map_cons, ih,
            if_neg h, if_neg h, List.map_cons]
        · have hfalse := beq_eq_false_iff_ne.mpr hheader
          rw [hfalse, if_neg Bool.false_ne_true, if_neg Bool.false_ne_true, ih]

/-- Of several settings of a header the last one counts. -/
theorem foldl_setItem_values (settings headers : Headers) (name : String) :
    ((settings.foldl (fun headers h => setItem h.1 h.2 headers) headers).filter fun h =>
        lower h.1 == lower name).map Prod.snd =
      match (settings.findRev? fun h => lower h.1 == lower name).map Prod.snd with
      | none => (headers.filter fun h => lower h.1 == lower name).map Prod.snd
      | some value => [value] := by
  induction settings using List.reverseRecOn with
  | nil => rfl
  | append_singleton settings h ih =>
      rw [List.foldl_append, List.foldl_cons, List.foldl_nil, setItem_values,
        List.findRev?_eq_find?_reverse, List.reverse_concat, List.find?_cons]
      by_cases hname : lower h.1 = lower name
      · rw [if_pos hname, beq_iff_eq.mpr hname]
        rfl
      · rw [if_neg hname, ih, beq_eq_false_iff_ne.mpr hname, List.findRev?_eq_find?_reverse]

/-- A client that reads the overrides of some options sends what carries these options. -/
theorem carries_applyOverrides (options : Options) (built : Request) :
    Carries options built (applyOverrides options.overrides built) := by
  obtain ⟨timeout, headers⟩ := options
  by_cases hnone : (timeout.isNone && (headers.getD []).isEmpty) = true
  · obtain ⟨htimeout, hheaders⟩ := Bool.and_eq_true_iff.mp hnone
    obtain rfl := Option.isNone_iff_eq_none.mp htimeout
    have hempty := List.isEmpty_iff.mp hheaders
    rw [Options.overrides, if_pos hnone]
    refine ⟨rfl, fun name => ?_⟩
    have hvalue : Options.value? ⟨none, headers⟩ name = none := by
      rw [Options.value?]
      dsimp only
      rw [hempty]
      rfl
    rw [hvalue]
    rfl
  · have hheaders : ((headers.filter fun headers => !headers.isEmpty).getD []) =
        headers.getD [] := by
      cases headers with
      | none => rfl
      | some headers =>
          cases headers with
          | nil => rfl
          | cons h headers => rfl
    rw [Options.overrides, if_neg hnone]
    refine ⟨?_, fun name => ?_⟩
    · cases timeout with
      | none => rfl
      | some seconds => rfl
    · rw [Request.values, applyOverrides]
      dsimp only
      rw [hheaders, foldl_setItem_values]
      rfl

/-! ## Every flow keeps to its own call -/

/-- The context of a flow holds the overrides of its call, and none of an earlier one. -/
def Keeps (flow : Flow ε) : Prop :=
  match flow.stage with
  | .idle => flow.context = none
  | .executing call _ reset _ =>
      flow.context = call.options.overrides ∧ leave reset flow.context = none
  | .minting _ _ => flow.context = none

/-- What a flow sends next is sent in the context of what it is sent for. -/
def SendsOwn (next : Flow ε × Option Purpose) : Prop :=
  ∀ purpose ∈ next.2, next.1.context = purpose.options.overrides

/-- The block leaves the variable as it found it. -/
theorem leave_enter (options : Options) (context : Option Overrides) :
    leave (enter options context).2 (enter options context).1 = context := by
  rw [enter]
  cases options.overrides with
  | none => rfl
  | some overrides => rfl

theorem keeps_execute (call : Call) (reissued : Bool) :
    Keeps (execute call reissued none : Flow ε × Option Purpose).1 ∧
      SendsOwn (execute call reissued none : Flow ε × Option Purpose) := by
  have hcontext : (enter call.options none).1 = call.options.overrides := by
    rw [enter]
    cases call.options.overrides with
    | none => rfl
    | some overrides => rfl
  refine ⟨⟨hcontext, leave_enter call.options none⟩, fun purpose hpurpose => ?_⟩
  obtain rfl := Option.some.inj hpurpose
  exact hcontext

theorem sends_eq {purpose sent : Purpose} {coroutine : Coroutine ε}
    (h : sent ∈ sends purpose coroutine) : sent = purpose := by
  cases coroutine with
  | operation _ => exact (Option.some.inj h).symm
  | sleep _ _ => cases h
  | returned _ => cases h

/-- A call ends and sends nothing more. -/
theorem keeps_idle {context : Option Overrides} (h : context = none) :
    Keeps (⟨context, .idle⟩ : Flow ε) ∧ SendsOwn ((⟨context, .idle⟩, none) : Flow ε × _) :=
  ⟨h, fun _ hpurpose => by cases hpurpose⟩

theorem advance_keeps {unwraps : ApiResponse → Bool} {flow : Flow ε} {outcome : Outcome ε}
    {next : Flow ε × Option Purpose} (hkeeps : Keeps flow)
    (h : advance unwraps flow outcome = some next) : Keeps next.1 ∧ SendsOwn next := by
  obtain ⟨context, stage⟩ := flow
  cases stage with
  | idle => cases h
  | executing call reissued reset coroutine =>
      obtain ⟨hown, hleave⟩ := hkeeps
      rw [advance] at h
      dsimp only at h
      split at h
      · split at h
        · -- the token is refused: the block is left before the mint is sent
          obtain rfl := Option.some.inj h
          refine ⟨hleave, fun purpose hpurpose => ?_⟩
          obtain rfl := Option.some.inj hpurpose
          exact hleave
        · obtain rfl := Option.some.inj h
          exact keeps_idle hleave
      · obtain rfl := Option.some.inj h
        exact keeps_idle hleave
      · -- still in the block, which holds the options of the call
        obtain rfl := Option.some.inj h
        refine ⟨⟨hown, hleave⟩, fun purpose hpurpose => ?_⟩
        rw [sends_eq hpurpose]
        exact hown
  | minting call coroutine =>
      have hnone : context = none := hkeeps
      subst hnone
      rw [advance] at h
      dsimp only at h
      split at h
      · split at h
        · -- a token is there: the block is entered once more
          obtain rfl := Option.some.inj h
          exact keeps_execute call true
        · obtain rfl := Option.some.inj h
          exact keeps_idle rfl
      · obtain rfl := Option.some.inj h
        exact keeps_idle rfl
      · obtain rfl := Option.some.inj h
        refine ⟨rfl, fun purpose hpurpose => ?_⟩
        rw [sends_eq hpurpose]
        rfl

/-- Every flow keeps to its call, and every request carries the options it is sent with. -/
structure Inv (s : State ε) : Prop where
  keeps : ∀ flow ∈ s.flows, Keeps flow
  carries : ∀ sent ∈ s.log, Carries sent.purpose.options sent.built sent.request

theorem inv_init : Inv (State.init : State ε) where
  keeps flow hflow := by
    rw [List.mem_singleton.mp hflow]
    rfl
  carries _ h := absurd h List.not_mem_nil

theorem Inv.append {s : State ε} (hs : Inv s) {flow : Flow ε} (h : Keeps flow) :
    Inv { s with flows := s.flows ++ [flow] } where
  keeps f hf := by
    rcases List.mem_append.mp hf with hf | hf
    · exact hs.keeps f hf
    · rw [List.mem_singleton.mp hf]
      exact h
  carries := hs.carries

theorem Inv.set {s : State ε} (hs : Inv s) {flow : Flow ε} (h : Keeps flow) (i : ℕ) :
    Inv { s with flows := s.flows.set i flow } where
  keeps f hf := by
    rcases List.mem_or_eq_of_mem_set hf with hf | rfl
    · exact hs.keeps f hf
    · exact h
  carries := hs.carries

theorem Inv.put {s : State ε} (hs : Inv s) {next : Flow ε × Option Purpose}
    (h : Keeps next.1 ∧ SendsOwn next) (i : ℕ) (built : Request) : Inv (s.put i built next) where
  keeps := (hs.set h.1 i).keeps
  carries sent hsent := by
    rcases List.mem_append.mp hsent with hsent | hsent
    · exact hs.carries sent hsent
    · obtain ⟨flow, purpose⟩ := next
      cases purpose with
      | none => cases hsent
      | some purpose =>
          have hcontext : flow.context = purpose.options.overrides := h.2 purpose rfl
          rw [List.mem_singleton.mp hsent, hcontext]
          exact carries_applyOverrides purpose.options built

theorem inv_step {unwraps : ApiResponse → Bool} {s s' : State ε} {a : Action ε} (hs : Inv s)
    (h : step unwraps s a = some s') : Inv s' := by
  cases a with
  | thread =>
      obtain rfl := Option.some.inj h
      exact hs.append rfl
  | task parent =>
      rw [step] at h
      split at h
      · next context hflow =>
          obtain rfl := Option.some.inj h
          exact hs.append (hs.keeps _ (List.mem_of_getElem? hflow))
      · cases h
  | invoke i call built =>
      rw [step] at h
      split at h
      · next context hflow =>
          have hnone : context = none := hs.keeps _ (List.mem_of_getElem? hflow)
          subst hnone
          obtain rfl := Option.some.inj h
          exact hs.put (keeps_execute call false) i built
      · cases h
  | refused i call =>
      rw [step] at h
      split at h
      · next context hflow =>
          have hnone : context = none := hs.keeps _ (List.mem_of_getElem? hflow)
          subst hnone
          obtain rfl := Option.some.inj h
          exact hs.set (keeps_idle (leave_enter call.options none)).1 i
      · cases h
  | advance i outcome built =>
      rw [step] at h
      split at h
      · next flow hflow =>
          obtain ⟨next, hnext, rfl⟩ := Option.map_eq_some_iff.mp h
          exact hs.put (advance_keeps (hs.keeps _ (List.mem_of_getElem? hflow)) hnext) i built
      · cases h

/-- **A request carries the options of its own call.** In every run of threads and tasks, however
they interleave, each request of a call goes out with the timeout and the headers of that call, each
re-mint as it was built, and outside of calls the variable holds nothing. -/
theorem options_own {unwraps : ApiResponse → Bool} {actions : List (Action ε)} {s : State ε}
    (h : run (step unwraps) State.init actions = some s) :
    (∀ sent ∈ s.log, Carries sent.purpose.options sent.built sent.request) ∧
      ∀ flow ∈ s.flows, flow.stage = .idle → flow.context = none := by
  have hs : Inv s := run_inv inv_step inv_init h
  refine ⟨hs.carries, fun flow hflow hidle => ?_⟩
  have hkeeps := hs.keeps flow hflow
  rw [Keeps, hidle] at hkeeps
  exact hkeeps

/-- Two threads, each in a call: the second has no headers of its own while the first one waits. -/
theorem options_own_twoThreads :
    let call : Options → Call := fun options => ⟨.default 2, true, options, true⟩
    let built : Request := ⟨[("Accept", "*/*")], none⟩
    ∃ s : State Unit, run (step fun _ => true) State.init
        [.thread, .invoke 0 (call ⟨none, some [("accept", "text/plain")]⟩) built,
          .invoke 1 (call ⟨none, none⟩) built, .advance 0 (.exception ()) built] = some s ∧
      s.log.map (fun sent => sent.request.headers) =
        [[("accept", "text/plain")], [("Accept", "*/*")]] ∧
      (∀ sent ∈ s.log, Carries sent.purpose.options sent.built sent.request) ∧
        ∀ flow ∈ s.flows, flow.stage = .idle → flow.context = none := by
  intro call built
  refine ⟨_, rfl, by decide, ?_⟩
  exact @options_own Unit (fun _ => true)
    [.thread, .invoke 0 (call ⟨none, some [("accept", "text/plain")]⟩) built,
      .invoke 1 (call ⟨none, none⟩) built, .advance 0 (.exception ()) built] _ rfl

end FissionPlane.Sdk.RequestOverrides
