/-
# FissionPlane.Sdk.Remint -- recovery from a rejected capability token

A sandbox handle holds the current token; each data-plane surface builds its client lazily and
rebuilds it when the token's text changes. When the agent answers 401 the SDK mints a token on its
own and replays the call once. The TypeScript and the Python SDK share this shape and differ in
which transports recover. Both mint without ports, so the scope the caller installed survives a
rejection exactly when it was the full one.

Calls are made one after another. The log records what was sent, newest first.
-/
import FissionPlane.Lib.Transition
import FissionPlane.Sdk.Token

namespace FissionPlane.Sdk.Remint

open FissionPlane.Lib.Transition

/-! ## Handles -/

/-- The data-plane surfaces of a handle. -/
inductive Surface where
  | commands
  | files
  deriving DecidableEq, Repr

/-- How a data-plane call travels: through the lazily built client, as a raw byte-stream request,
or as a WebSocket. -/
inductive Transport where
  | client
  | bytes
  | stream
  deriving DecidableEq, Repr

/-- The current token, and by surface the token text its client was built with. -/
structure Handle where
  token : Option CapabilityToken
  clientToken : Surface → Option String

/-- One request sent; a mint also records the scope its caller had installed. -/
inductive Sent where
  | mint (onOwn : Bool) (request : MintTokenRequest) (installed : Option Scope)
  | call (surface : Surface) (transport : Transport) (credential : String)
  deriving DecidableEq, Repr

/-- A handle with its history: `installed` is the port scope the caller minted the current token
with, when the caller minted it. -/
structure World where
  handle : Handle
  installed : Option Scope
  sent : List Sent

/-- A handle as an operation of the control plane returns it. -/
def World.init (handle : Handle) : World := ⟨handle, none, []⟩

/-- How the agent answers one execution of a call. -/
inductive Answer where
  | ok
  | unauthorized
  | failed
  deriving DecidableEq, Repr

inductive Outcome where
  | answered (answer : Answer)
  | unarmed
  | mintFailed
  deriving DecidableEq, Repr

/-! ## Operations of a handle -/

/-- The surface's client for the current token, rebuilt after token rotation. -/
def dataplane (h : Handle) (surface : Surface) (token : String) : Handle :=
  if h.clientToken surface = some token then h
  else { h with clientToken := fun s => if s = surface then some token else h.clientToken s }

/-- `mintToken`: mint, and arm the handle with what was granted. -/
def mintToken (onOwn : Bool) (w : World) (request : MintTokenRequest) (reply : Option Issue) :
    World × Option CapabilityToken :=
  let sent := .mint onOwn request w.installed :: w.sent
  match reply with
  | none => ({ w with sent := sent }, none)
  | some issue =>
      let token := issue.grant request
      ({ handle := { w.handle with token := some token }
         -- only the caller's mint installs a scope; the SDK's own has to live with it
         installed := if onOwn then w.installed else some request.ports
         sent := sent }, some token)

/-- `resume`: the fresh token of the new epoch replaces the handle's. -/
def resume (w : World) (reply : Option CapabilityToken) : World :=
  match reply with
  | none => w
  | some token => { w with handle := { w.handle with token := some token }, installed := none }

/-- One execution of a call against the current token. -/
def execute (w : World) (surface : Surface) (transport : Transport) (answer : Answer) :
    World × Outcome :=
  match w.handle.token with
  | none => (w, .unarmed)
  | some token =>
      let handle := match transport with
        | .client => dataplane w.handle surface token.token
        | .bytes | .stream => w.handle
      -- a raw byte request and a WebSocket read the handle's token themselves
      let credential := match transport with
        | .client => (handle.clientToken surface).getD token.token
        | .bytes | .stream => token.token
      ({ w with handle := handle, sent := .call surface transport credential :: w.sent },
        .answered answer)

/-- Run a call; on a 401 mint once and replay it. -/
def recover (request : MintTokenRequest) (w : World) (surface : Surface)
    (transport : Transport) (first : Answer) (reply : Option Issue) (again : Answer) :
    World × Outcome :=
  match execute w surface transport first with
  | (w, .answered .unauthorized) =>
      match mintToken true w request reply with
      | (w, none) => (w, .mintFailed)
      | (w, some _) => execute w surface transport again
  | result => result

/-! ## The SDKs -/

namespace TypeScript

/-- `withFreshToken`: `sandbox.mintToken()` without options. -/
def withFreshToken : World → Surface → Transport → Answer → Option Issue → Answer →
    World × Outcome :=
  recover ⟨none, none⟩

/-- HTTP calls go through `withFreshToken`; the 401 of a WebSocket handshake is opaque. -/
def call (w : World) (surface : Surface) (transport : Transport) (first : Answer)
    (reply : Option Issue) (again : Answer) : World × Outcome :=
  match transport with
  | .client | .bytes => withFreshToken w surface transport first reply again
  | .stream => execute w surface transport first

end TypeScript

namespace Python

/-- `_remint_token`: `self.mint_token()` without arguments. -/
def remintToken : MintTokenRequest := ⟨none, none⟩

/-- `_invoke`, for every HTTP call. -/
def invoke : World → Surface → Transport → Answer → Option Issue → Answer → World × Outcome :=
  recover remintToken

/-- `_connect`, for a stream. -/
def connect : World → Surface → Transport → Answer → Option Issue → Answer → World × Outcome :=
  recover remintToken

def call (w : World) (surface : Surface) (transport : Transport) (first : Answer)
    (reply : Option Issue) (again : Answer) : World × Outcome :=
  match transport with
  | .client | .bytes => invoke w surface transport first reply again
  | .stream => connect w surface transport first reply again

end Python

inductive Language where
  | typescript
  | python
  deriving DecidableEq, Repr

def Language.call : Language → World → Surface → Transport → Answer → Option Issue → Answer →
    World × Outcome
  | .typescript => TypeScript.call
  | .python => Python.call

/-- The transports whose 401 the SDK sees. -/
def Language.recovers : Language → Transport → Bool
  | .typescript, .stream => false
  | _, _ => true

/-! ## Runs -/

inductive Action where
  | mintToken (request : MintTokenRequest) (reply : Option Issue)
  | resume (reply : Option CapabilityToken)
  | call (surface : Surface) (transport : Transport) (first : Answer) (reply : Option Issue)
      (again : Answer)
  deriving DecidableEq

def step (lang : Language) (w : World) : Action → Option World
  | .mintToken request reply => some (mintToken false w request reply).1
  | .resume reply => some (resume w reply)
  | .call surface transport first reply again =>
      some (lang.call w surface transport first reply again).1

/-! ## The law of the scope -/

/-- A mint on the SDK's own account, with the scope installed at the time. -/
def Sent.ownMint : Sent → Option (MintTokenRequest × Option Scope)
  | .mint true request installed => some (request, installed)
  | _ => none

def World.ownMints (w : World) : List (MintTokenRequest × Option Scope) :=
  w.sent.filterMap Sent.ownMint

/-- Every mint of the SDK's own asks for exactly the scope the caller minted the token with. -/
def Carried (w : World) : Prop :=
  ∀ request P, (request, some P) ∈ w.ownMints → request.ports = P

/-- The token in use is no wider than the one the caller minted. -/
def NoWider (w : World) : Prop :=
  ∀ P, w.installed = some P → ∀ token, w.handle.token = some token → token.ports.Within P

/-- A call that is answered 401 over a transport that recovers finds the full scope installed. -/
def FullWhenRejected (lang : Language) (w : World) (a : Action) : Prop :=
  ∀ surface transport reply again, a = .call surface transport .unauthorized reply again →
    lang.recovers transport = true → ∀ P, w.installed = some P → P = none

/-! ## What each operation changes -/

@[simp]
theorem dataplane_token (h : Handle) (surface : Surface) (token : String) :
    (dataplane h surface token).token = h.token := by
  rw [dataplane]
  split <;> rfl

/-- The client a call goes through carries the current token. -/
theorem dataplane_clientToken (h : Handle) (surface : Surface) (token : String) :
    (dataplane h surface token).clientToken surface = some token := by
  rw [dataplane]
  split
  · next heq => exact heq
  · simp

section Execute

variable (w : World) (surface : Surface) (transport : Transport) (answer : Answer)

@[simp]
theorem execute_token : (execute w surface transport answer).1.handle.token = w.handle.token := by
  rw [execute]
  split
  · rfl
  · cases transport <;> simp

@[simp]
theorem execute_installed : (execute w surface transport answer).1.installed = w.installed := by
  rw [execute]
  split <;> rfl

@[simp]
theorem execute_ownMints : (execute w surface transport answer).1.ownMints = w.ownMints := by
  rw [execute]
  split
  · rfl
  · simp only [World.ownMints, List.filterMap_cons, Sent.ownMint]

/-- A call carries the token the handle holds when it is executed, over every transport. -/
theorem execute_credential {token : CapabilityToken} (h : w.handle.token = some token) :
    (execute w surface transport answer).1.sent =
      .call surface transport token.token :: w.sent := by
  rw [execute, h]
  cases transport <;> simp [dataplane_clientToken]

end Execute

section Mint

variable (onOwn : Bool) (w : World) (request : MintTokenRequest)

theorem mintToken_ownMints (reply : Option Issue) :
    (mintToken onOwn w request reply).1.ownMints =
      if onOwn then (request, w.installed) :: w.ownMints else w.ownMints := by
  cases reply <;> cases onOwn <;>
    simp [mintToken, World.ownMints, List.filterMap_cons, Sent.ownMint]

theorem mintToken_own_installed (reply : Option Issue) :
    (mintToken true w request reply).1.installed = w.installed := by
  cases reply <;> rfl

/-- The token after a mint: the one granted, or the old one when the mint failed. -/
theorem mintToken_token (reply : Option Issue) :
    (mintToken onOwn w request reply).1.handle.token =
      (reply.map (·.grant request)).or w.handle.token := by
  cases reply <;> rfl

end Mint

/-! ## What a recovery changes -/

section Recover

variable (request : MintTokenRequest) (w : World) (surface : Surface) (transport : Transport)

/-- Any other answer ends the call. -/
theorem recover_of_ne {first : Answer} (h : first ≠ .unauthorized) (reply : Option Issue)
    (again : Answer) : recover request w surface transport first reply again =
      execute w surface transport first := by
  rw [recover]
  split
  · next w' heq =>
      have hout := congrArg Prod.snd heq
      rw [execute] at hout
      split at hout
      · cases hout
      · exact absurd (Outcome.answered.inj hout) h
  · rfl

/-- A handle without a token ends the call before it is sent. -/
theorem recover_unarmed {first : Answer} (h : w.handle.token = none) (reply : Option Issue)
    (again : Answer) : recover request w surface transport first reply again = (w, .unarmed) := by
  simp only [recover, execute, h]

/-- A 401 mints once on the SDK's own account; the replay changes nothing more. -/
theorem recover_unauthorized {token : CapabilityToken} (h : w.handle.token = some token)
    (reply : Option Issue) (again : Answer) :
    (recover request w surface transport .unauthorized reply again).1.ownMints =
        (request, w.installed) :: w.ownMints ∧
      (recover request w surface transport .unauthorized reply again).1.installed = w.installed ∧
      (recover request w surface transport .unauthorized reply again).1.handle.token =
        (reply.map (·.grant request)).or w.handle.token := by
  have hout : (execute w surface transport .unauthorized).2 = .answered .unauthorized := by
    rw [execute, h]
  generalize hw' : (execute w surface transport .unauthorized).1 = w'
  have hexec : execute w surface transport .unauthorized = (w', .answered .unauthorized) :=
    Prod.ext hw' hout
  generalize hw'' : (mintToken true w' request reply).1 = w''
  have hall : w''.ownMints = (request, w.installed) :: w.ownMints ∧
      w''.installed = w.installed ∧
      w''.handle.token = (reply.map (·.grant request)).or w.handle.token := by
    rw [← hw'', mintToken_ownMints, mintToken_own_installed, mintToken_token, ← hw']
    simp
  cases hgranted : (mintToken true w' request reply).2 with
  | none =>
      have hmint : mintToken true w' request reply = (w'', none) := Prod.ext hw'' hgranted
      simp only [recover, hexec, hmint]
      exact hall
  | some granted =>
      have hmint : mintToken true w' request reply = (w'', some granted) :=
        Prod.ext hw'' hgranted
      simp only [recover, hexec, hmint, execute_ownMints, execute_installed, execute_token]
      exact hall

end Recover

/-! ## Runs keep the law exactly while rejections find the full scope -/

variable {lang : Language} {w w' : World} {a : Action}

/-- Every call is an execution or, over a transport that recovers, a recovery without ports. -/
theorem call_eq (lang : Language) (w : World) (surface : Surface) (transport : Transport)
    (first : Answer) (reply : Option Issue) (again : Answer) :
    lang.call w surface transport first reply again =
      if lang.recovers transport then
        recover ⟨none, none⟩ w surface transport first reply again
      else execute w surface transport first := by
  cases lang <;> cases transport <;> rfl

/-- A scope the caller installed comes with a token, of that scope as long as the law is kept. -/
def Inv (w : World) : Prop :=
  ∀ P, w.installed = some P →
    ∃ token, w.handle.token = some token ∧ (Carried w → token.ports = P)

theorem inv_init (handle : Handle) : Inv (World.init handle) := by
  intro P h
  cases h

theorem carried_congr {w w' : World} (h : w'.ownMints = w.ownMints) : Carried w' ↔ Carried w := by
  simp only [Carried, h]

theorem carried_cons {request : MintTokenRequest}
    (h : w'.ownMints = (request, w.installed) :: w.ownMints) :
    Carried w' ↔ Carried w ∧ ∀ P, w.installed = some P → request.ports = P := by
  simp only [Carried, h, List.mem_cons]
  constructor
  · intro hall
    refine ⟨fun r P hr => hall r P (.inr hr), fun P hP => hall request P (.inl ?_)⟩
    rw [hP]
  · rintro ⟨hold, hnew⟩ r P (heq | hr)
    · obtain ⟨rfl, hP⟩ := Prod.mk.inj heq
      exact hnew P hP.symm
    · exact hold r P hr

/-- An operation that sends no mint of its own and keeps the token keeps the invariant. -/
theorem inv_congr (hinv : Inv w) (hmints : w'.ownMints = w.ownMints)
    (hinstalled : w'.installed = w.installed) (htoken : w'.handle.token = w.handle.token) :
    Inv w' := by
  intro P hP
  obtain ⟨token, ht, hports⟩ := hinv P (hinstalled ▸ hP)
  exact ⟨token, htoken.trans ht, fun hc => hports ((carried_congr hmints).mp hc)⟩

theorem inv_mintToken (hinv : Inv w) (request : MintTokenRequest) (reply : Option Issue) :
    Inv (mintToken false w request reply).1 ∧
      (Carried (mintToken false w request reply).1 ↔ Carried w) := by
  have hmints : (mintToken false w request reply).1.ownMints = w.ownMints := by
    rw [mintToken_ownMints, if_neg Bool.false_ne_true]
  refine ⟨?_, carried_congr hmints⟩
  cases reply with
  | none => exact inv_congr hinv hmints rfl rfl
  | some issue =>
      intro P hP
      obtain rfl := Option.some.inj hP
      exact ⟨_, rfl, fun _ => rfl⟩

theorem inv_resume (hinv : Inv w) (reply : Option CapabilityToken) :
    Inv (resume w reply) ∧ (Carried (resume w reply) ↔ Carried w) := by
  cases reply with
  | none => exact ⟨hinv, Iff.rfl⟩
  | some token => exact ⟨fun P hP => (by cases hP), Iff.rfl⟩

theorem inv_call (hinv : Inv w) (surface : Surface) (transport : Transport) (first : Answer)
    (reply : Option Issue) (again : Answer) :
    Inv (lang.call w surface transport first reply again).1 ∧
      (Carried (lang.call w surface transport first reply again).1 ↔
        Carried w ∧ FullWhenRejected lang w (.call surface transport first reply again)) := by
  have hexec : Inv (execute w surface transport first).1 ∧
      (Carried (execute w surface transport first).1 ↔ Carried w) :=
    ⟨inv_congr hinv (by simp) (by simp) (by simp), carried_congr (by simp)⟩
  rw [call_eq]
  by_cases hrec : lang.recovers transport = true
  · rw [if_pos hrec]
    by_cases hfirst : first = .unauthorized
    · subst hfirst
      cases htoken : w.handle.token with
      | none =>
          -- nothing is sent, and a handle without a token has no scope installed
          have hnone : ∀ P, w.installed ≠ some P := by
            intro P hP
            obtain ⟨token, ht, -⟩ := hinv P hP
            rw [htoken] at ht
            cases ht
          rw [recover_unarmed _ _ _ _ htoken]
          refine ⟨hinv, (and_iff_left ?_).symm⟩
          intro _ _ _ _ _ _ P hP
          exact absurd hP (hnone P)
      | some token =>
          obtain ⟨hmints, hinstalled, hnew⟩ :=
            recover_unauthorized ⟨none, none⟩ w surface transport htoken reply again
          have hcarried := carried_cons hmints
          refine ⟨?_, hcarried.trans (and_congr_right fun _ => ⟨fun h => ?_, fun h => ?_⟩)⟩
          · intro P hP
            rw [hinstalled] at hP
            rw [hnew]
            cases reply with
            | none =>
                obtain ⟨old, ht, hports⟩ := hinv P hP
                exact ⟨old, ht, fun hc => hports (hcarried.mp hc).1⟩
            -- the new token has the scope the SDK asked for, which the law says is `P`
            | some issue => exact ⟨_, rfl, fun hc => (hcarried.mp hc).2 P hP⟩
          · intro _ _ _ _ _ _ P hP
            exact (h P hP).symm
          · intro P hP
            exact (h surface transport reply again rfl hrec P hP).symm
    · rw [recover_of_ne _ _ _ _ hfirst]
      refine ⟨hexec.1, hexec.2.trans (and_iff_left ?_).symm⟩
      intro _ _ _ _ ha
      cases ha
      exact absurd rfl hfirst
  · rw [if_neg hrec]
    refine ⟨hexec.1, hexec.2.trans (and_iff_left ?_).symm⟩
    intro _ _ _ _ ha hrec'
    cases ha
    exact absurd hrec' hrec

theorem inv_step (hinv : Inv w) (h : step lang w a = some w') :
    Inv w' ∧ (Carried w' ↔ Carried w ∧ FullWhenRejected lang w a) := by
  cases a with
  | mintToken request reply =>
      obtain rfl := Option.some.inj h
      obtain ⟨hinv', hcarried⟩ := inv_mintToken hinv request reply
      exact ⟨hinv', hcarried.trans (and_iff_left fun _ _ _ _ ha => by cases ha).symm⟩
  | resume reply =>
      obtain rfl := Option.some.inj h
      obtain ⟨hinv', hcarried⟩ := inv_resume hinv reply
      exact ⟨hinv', hcarried.trans (and_iff_left fun _ _ _ _ ha => by cases ha).symm⟩
  | call surface transport first reply again =>
      obtain rfl := Option.some.inj h
      exact inv_call hinv surface transport first reply again

theorem carried_run : ∀ {as : List Action} {w t : World}, Inv w → run (step lang) w as = some t →
    Inv t ∧ (Carried t ↔
      Carried w ∧ EveryStep (step lang) (fun w a _ => FullWhenRejected lang w a) w as)
  | [], w, t, hinv, h => by
      obtain rfl := Option.some.inj h
      exact ⟨hinv, (and_iff_left trivial).symm⟩
  | a :: as, w, t, hinv, h => by
      obtain ⟨w', hw', ht⟩ := run_cons_eq_some.mp h
      obtain ⟨hinv', hstep⟩ := inv_step hinv hw'
      obtain ⟨hinvt, hrun⟩ := carried_run hinv' ht
      refine ⟨hinvt, ?_⟩
      rw [hrun, hstep, everyStep_cons hw', and_assoc]

theorem Inv.noWider (hinv : Inv w) (hc : Carried w) : NoWider w := by
  intro P hP token htoken
  obtain ⟨token', htoken', hports⟩ := hinv P hP
  obtain rfl := Option.some.inj (htoken.symm.trans htoken')
  rw [hports hc]
  exact P.within_refl

/-- Over any history of a handle, the SDK's own mints keep the caller's scope exactly when every
call it recovers finds the full scope installed. -/
theorem carried_iff_fullWhenRejected (lang : Language) (handle : Handle) {as : List Action}
    {t : World} (h : run (step lang) (World.init handle) as = some t) :
    Carried t ∧ NoWider t ↔
      EveryStep (step lang) (fun w a _ => FullWhenRejected lang w a) (World.init handle) as := by
  obtain ⟨hinv, hcarried⟩ := carried_run (inv_init handle) h
  have hinit : Carried (World.init handle) := fun _ _ hmem => absurd hmem List.not_mem_nil
  rw [and_iff_left_of_imp hinv.noWider, hcarried, and_iff_right hinit]

/-- A handle as `sandboxes.get` returns it: no token, no client. -/
def Handle.fresh : Handle := ⟨none, fun _ => none⟩

/-- The caller mints a token for these ports, and the next call is answered 401 and recovered. -/
def mintThenRejected (ports : Scope) (transport : Transport) : List Action :=
  [.mintToken ⟨none, ports⟩ (some ⟨"first", 1⟩),
    .call .commands transport .unauthorized (some ⟨"second", 1⟩) .ok]

theorem carried_full_scope :
    ∃ t, run (step .python) (World.init .fresh) (mintThenRejected none .stream) = some t ∧
      (Carried t ∧ NoWider t ↔
        EveryStep (step .python) (fun w a _ => FullWhenRejected .python w a) (World.init .fresh)
          (mintThenRejected none .stream)) :=
  ⟨_, rfl, carried_iff_fullWhenRejected .python .fresh rfl⟩

/-- A token minted for port 8080 is replaced by one of the full scope, in both SDKs. -/
theorem not_carried_scoped :
    (∃ t, run (step .typescript) (World.init .fresh) (mintThenRejected (some [8080]) .client) =
        some t ∧ ¬ Carried t ∧ ¬ NoWider t) ∧
      ∃ t, run (step .python) (World.init .fresh) (mintThenRejected (some [8080]) .client) =
        some t ∧ ¬ Carried t ∧ ¬ NoWider t := by
  refine ⟨⟨_, rfl, fun h => ?_, fun h => ?_⟩, ⟨_, rfl, fun h => ?_, fun h => ?_⟩⟩
  · have hports := h ⟨none, none⟩ (some [8080]) List.mem_cons_self
    cases hports
  · exact h (some [8080]) rfl _ rfl
  · have hports := h ⟨none, none⟩ (some [8080]) List.mem_cons_self
    cases hports
  · exact h (some [8080]) rfl _ rfl

end FissionPlane.Sdk.Remint
