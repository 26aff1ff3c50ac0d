/-
# FissionPlane.Sdk.SandboxHandle -- the credential that a Rust handle shares with its modules

A handle keeps its token twice: in its own field, and in a cell that every data-plane module built
from it reads before each request. Arming the handle writes into the cell that is there, so that the
modules handed out before see the new token; only a handle without a cell gets one. A module that
re-mints a rejected token writes to the cell alone.

Operations follow one another. The trace records what they install and what they send, oldest first.
What it should say of tokens is known without it: an `Account` is kept of the replies alone.
-/
import FissionPlane.Lib.Cells
import FissionPlane.Lib.History
import FissionPlane.Lib.Transition
import FissionPlane.Sdk.Base64Url
import FissionPlane.Sdk.DataPlane
import FissionPlane.Sdk.Token

namespace FissionPlane.Sdk.SandboxHandle

open FissionPlane.Lib FissionPlane.Lib.History FissionPlane.Lib.Transition
open FissionPlane.Sdk.DataPlane (appendHeader tokenHeader tokensOf tokensOf_append)
open FissionPlane.Sdk.DataPlane.Rust (RequestBuilder authorized isUnauthorized tryClone)
open FissionPlane.Sdk.RustHttp (Limits Outcome Request Reqwest Response)

variable {β υ σ : Type*}

/-! ## State -/

/-- A sandbox as the control plane describes it, as far as the handle reads it. -/
structure Info where
  sandboxId : String
  domain : String

/-- Where the agents of the sandboxes are reached; `υ` is the type of URLs. -/
structure AgentTarget (υ : Type*) where
  port : ℕ
  baseOverride : Option υ

/-- `TokenSource`: the sandbox to mint for, and the address of the shared cell. -/
structure TokenSource where
  sandboxId : String
  cell : ℕ
  deriving DecidableEq

/-- `DataPlane`, all there is to a module. -/
structure Module (υ : Type*) where
  base : υ
  credential : TokenSource

/-- The handle. -/
structure Sandbox (υ : Type*) where
  agent : AgentTarget υ
  credential : Option TokenSource
  info : Info
  token : Option CapabilityToken

/-- A request to the control plane. -/
inductive ControlRequest where
  | get (sandboxId : String)
  | pause (sandboxId : String)
  | resume (sandboxId : String) (deadlineSeconds : Option ℕ)
  | extendDeadline (sandboxId : String) (deadlineSeconds : ℕ)
  | mintToken (sandboxId : String) (request : MintTokenRequest)

/-- What happens on behalf of a handle. -/
inductive Event (β : Type*) where
  | control (request : ControlRequest)
  /-- The control plane has returned this token, to be installed. -/
  | installed (token : CapabilityToken)
  | sent (request : Request β)
  /-- A stream is asked for, offering these subprotocols. -/
  | handshake (protocols : List Char)

/-- A handle, the modules built from it, and the cells they share. -/
structure World (β υ : Type*) where
  cells : Cells CapabilityToken
  sandbox : Sandbox υ
  modules : List (Module υ)
  trace : List (Event β)

def World.record (w : World β υ) (events : List (Event β)) : World β υ :=
  { w with trace := w.trace ++ events }

/-- Errors, as far as they are told apart here. -/
inductive Error where
  | missingToken
  | config (message : String)
  /-- From a request to the control plane or to the agent. -/
  | transport (error : RustHttp.Error)
  /-- A handshake that is answered with this status. -/
  | webSocketHttp (status : ℕ)
  | stream (message : String)

/-! ## `TokenSource` -/

namespace TokenSource

def new (cells : Cells CapabilityToken) (sandboxId : String) (token : CapabilityToken) :
    TokenSource × Cells CapabilityToken :=
  (⟨sandboxId, (cells.alloc token).1⟩, (cells.alloc token).2)

/-- The token a data-plane request should carry right now. -/
def current (source : TokenSource) (cells : Cells CapabilityToken) : Option CapabilityToken :=
  cells.read source.cell

def replace (source : TokenSource) (cells : Cells CapabilityToken) (token : CapabilityToken) :
    Cells CapabilityToken :=
  cells.write source.cell token

/-- Mints a token with the ports of the one in the cell, and installs it there; `none` is a cell
that was never allocated. -/
def refresh (source : TokenSource) (w : World β υ)
    (reply : Except RustHttp.Error CapabilityToken) :
    Option (World β υ × Except RustHttp.Error CapabilityToken) :=
  (source.current w.cells).map fun current =>
    let w := w.record [.control (.mintToken source.sandboxId ⟨none, current.ports⟩)]
    match reply with
    | .error error => (w, .error error)
    | .ok token =>
        let w := w.record [.installed token]
        ({ w with cells := source.replace w.cells token }, .ok token)

end TokenSource

/-! ## The handle -/

namespace World

/-- `Sandbox::new` -/
def new (agent : AgentTarget υ) (info : Info) (token : Option CapabilityToken) : World β υ :=
  match token with
  | none =>
      { cells := .empty
        sandbox := ⟨agent, none, info, none⟩
        modules := []
        trace := [] }
  | some token =>
      let (source, cells) := TokenSource.new .empty info.sandboxId token
      { cells := cells
        sandbox := ⟨agent, some source, info, some token⟩
        modules := []
        trace := [.installed token] }

/-- Stores a freshly minted token, publishing it to the modules built before. -/
def arm (w : World β υ) (token : CapabilityToken) : World β υ :=
  match w.sandbox.credential with
  | some credential =>
      { w with
        cells := credential.replace w.cells token
        sandbox := { w.sandbox with token := some token } }
  | none =>
      let (source, cells) := TokenSource.new w.cells w.sandbox.info.sandboxId token
      { w with
        cells := cells
        sandbox := { w.sandbox with credential := some source, token := some token } }

/-- The freshest capability token known for the sandbox. -/
def currentToken (w : World β υ) : Option CapabilityToken :=
  match w.sandbox.credential with
  | some credential => credential.current w.cells
  | none => w.sandbox.token

/-- An operation that returns the sandbox and nothing else. -/
def reread (w : World β υ) (request : ControlRequest) (reply : Except RustHttp.Error Info) :
    World β υ :=
  let w := w.record [.control request]
  match reply with
  | .error _ => w
  | .ok info => { w with sandbox := { w.sandbox with info := info } }

def refresh (w : World β υ) : Except RustHttp.Error Info → World β υ :=
  w.reread (.get w.sandbox.info.sandboxId)

def pause (w : World β υ) : Except RustHttp.Error Info → World β υ :=
  w.reread (.pause w.sandbox.info.sandboxId)

def extendDeadline (w : World β υ) (deadlineSeconds : ℕ) : Except RustHttp.Error Info → World β υ :=
  w.reread (.extendDeadline w.sandbox.info.sandboxId deadlineSeconds)

def resume (w : World β υ) (deadlineSeconds : Option ℕ)
    (reply : Except RustHttp.Error (Info × CapabilityToken)) : World β υ :=
  let w := w.record [.control (.resume w.sandbox.info.sandboxId deadlineSeconds)]
  match reply with
  | .error _ => w
  | .ok (info, token) =>
      let w := w.record [.installed token]
      { w with sandbox := { w.sandbox with info := info } }.arm token

def mintToken (w : World β υ) (request : MintTokenRequest)
    (reply : Except RustHttp.Error CapabilityToken) : World β υ :=
  let w := w.record [.control (.mintToken w.sandbox.info.sandboxId request)]
  match reply with
  | .error _ => w
  | .ok token => (w.record [.installed token]).arm token

end World

/-- `agent_base_url`; `parse` is `Url::parse`, with the message of its failure. -/
def agentBaseUrl (parse : String → Except String υ) (agent : AgentTarget υ) (info : Info) :
    Except Error υ :=
  match agent.baseOverride with
  | some base => .ok base
  | none =>
      let url := "https://" ++ toString agent.port ++ "-" ++ info.sandboxId ++ "." ++ info.domain
      (parse url).mapError .config

/-- A module on the handle's credential: `DataPlane::new`, in the constructors of both kinds. -/
def World.dataPlane (parse : String → Except String υ) (w : World β υ) :
    World β υ × Except Error (Module υ) :=
  match w.sandbox.credential with
  | none => (w, .error .missingToken)
  | some credential =>
      match agentBaseUrl parse w.sandbox.agent w.sandbox.info with
      | .error error => (w, .error error)
      | .ok base =>
          let dataPlane : Module υ := ⟨base, credential⟩
          ({ w with modules := w.modules ++ [dataPlane] }, .ok dataPlane)

/-- `Sandbox::commands` -/
def World.commands (parse : String → Except String υ) (w : World β υ) :
    World β υ × Except Error (Module υ) :=
  w.dataPlane parse

/-- `Sandbox::files` -/
def World.files (parse : String → Except String υ) (w : World β υ) :
    World β υ × Except Error (Module υ) :=
  w.dataPlane parse

/-! ## Data-plane calls -/

/-- A request that a module builds: the headers of its client hold no token. -/
structure ModuleRequest (β : Type*) where
  builder : RequestBuilder β
  bare : ∀ request, builder = .ok request → tokensOf request.headers = []

section

variable (c : Reqwest β) (limits : Limits) (isHeaderValue : String → Bool)

/-- `DataPlane::execute`: `first` and `second` say how the sendings of its two executions end. -/
def World.execute (w : World β υ) (source : TokenSource) (request : ModuleRequest β)
    (first : ℕ → Outcome) (reply : Except RustHttp.Error CapabilityToken) (second : ℕ → Outcome) :
    Option (World β υ × Except Error Response) :=
  -- cloned before the token is attached, so that the replay carries the fresh one alone
  let replay := tryClone c request.builder
  (source.current w.cells).bind fun current =>
    match authorized isHeaderValue request.builder current.token with
    | .error message => some (w, .error (.config message))
    | .ok request =>
        let execution := RustHttp.execute c limits first request
        let w := w.record (execution.sent.map .sent)
        match execution.result, replay with
        | .error rejected, some replay =>
            if isUnauthorized rejected then
              (source.refresh w reply).map fun (w, minted) =>
                match minted with
                | .error error => (w, .error (.transport error))
                | .ok token =>
                    match authorized isHeaderValue replay token.token with
                    | .error message => (w, .error (.config message))
                    | .ok replay =>
                        let execution := RustHttp.execute c limits second replay
                        (w.record (execution.sent.map .sent), execution.result.mapError .transport)
            else some (w, .error (.transport rejected))
        | result, _ => some (w, result.mapError .transport)

/-- `streaming::connect`: `target` is the URL to connect to, or why there is none, and `answer` how
the handshake ends. -/
def World.handshake (w : World β υ) (target : Except Error Unit) (token : String)
    (answer : Except Error σ) : Option (World β υ × Except Error σ) :=
  match target with
  | .error error => some (w, .error error)
  | .ok () =>
      (Base64Url.Rust.protocols token.toList).map fun protocols =>
        (w.record [.handshake protocols], answer)

def isUnauthorizedHandshake : Error → Bool
  | .webSocketHttp status => status == 401
  | _ => false

/-- `DataPlane::connect` -/
def World.connect (w : World β υ) (source : TokenSource) (target : Except Error Unit)
    (first : Except Error σ) (reply : Except RustHttp.Error CapabilityToken)
    (second : Except Error σ) : Option (World β υ × Except Error σ) :=
  (source.current w.cells).bind fun current =>
    (w.handshake target current.token first).bind fun (w, outcome) =>
      match outcome with
      | .error rejected =>
          if isUnauthorizedHandshake rejected then
            (source.refresh w reply).bind fun (w, minted) =>
              match minted with
              | .error error => some (w, .error (.transport error))
              | .ok token => w.handshake target token.token second
          else some (w, .error rejected)
      | .ok socket => some (w, .ok socket)

/-! ## Runs -/

/-- What is done with a handle and with the modules built from it, which are numbered in the order
they were handed out in. -/
inductive Op (β : Type*) where
  | refresh (reply : Except RustHttp.Error Info)
  | pause (reply : Except RustHttp.Error Info)
  | extendDeadline (deadlineSeconds : ℕ) (reply : Except RustHttp.Error Info)
  | resume (deadlineSeconds : Option ℕ) (reply : Except RustHttp.Error (Info × CapabilityToken))
  | mintToken (request : MintTokenRequest) (reply : Except RustHttp.Error CapabilityToken)
  | commands
  | files
  /-- A process handle, an attachment: the module is cloned. -/
  | clone (k : ℕ)
  | execute (k : ℕ) (request : ModuleRequest β) (first : ℕ → Outcome)
      (reply : Except RustHttp.Error CapabilityToken) (second : ℕ → Outcome)
  | connect (k : ℕ) (target : Except Error Unit) (first : Except Error Unit)
      (reply : Except RustHttp.Error CapabilityToken) (second : Except Error Unit)

variable (parse : String → Except String υ)

/-- One operation; one on a module there is not has no effect. -/
def step (w : World β υ) : Op β → Option (World β υ)
  | .refresh reply => some (w.refresh reply)
  | .pause reply => some (w.pause reply)
  | .extendDeadline deadlineSeconds reply => some (w.extendDeadline deadlineSeconds reply)
  | .resume deadlineSeconds reply => some (w.resume deadlineSeconds reply)
  | .mintToken request reply => some (w.mintToken request reply)
  | .commands => some (w.commands parse).1
  | .files => some (w.files parse).1
  | .clone k => some { w with modules := w.modules ++ w.modules[k]?.toList }
  | .execute k request first reply second =>
      match w.modules[k]? with
      | none => some w
      | some m =>
          (w.execute c limits isHeaderValue m.credential request first reply second).map Prod.fst
  | .connect k target first reply second =>
      match w.modules[k]? with
      | none => some w
      | some m => (w.connect m.credential target first reply second).map Prod.fst

end

/-! ## A call as the retry loop of its SDK sees it -/

/-- The requests that modules have made. -/
def requests (trace : List (Event β)) : List (Request β) :=
  trace.filterMap fun
    | .sent request => some request
    | .control _ | .installed _ | .handshake _ => none

/-- The requests that a course of events of one call makes. -/
def sendings {μ : Type*} (log : List (DataPlane.Event (Request β) σ μ)) : List (Request β) :=
  log.flatMap fun
    | .executed sent _ => sent
    | .minted _ => []

theorem requests_record_sent (w : World β υ) (sent : List (Request β)) :
    requests (w.record (sent.map .sent)).trace = requests w.trace ++ sent := by
  show requests (w.trace ++ sent.map .sent) = _
  rw [requests, List.filterMap_append, List.filterMap_map]
  congr 1
  exact List.filterMap_some

/-- A mint and its token are no request of a module. -/
theorem requests_refresh {w w' : World β υ} {source : TokenSource}
    {reply minted : Except RustHttp.Error CapabilityToken}
    (h : source.refresh w reply = some (w', minted)) :
    requests w'.trace = requests w.trace ∧ minted = reply := by
  obtain ⟨current, -, hrefresh⟩ := Option.map_eq_some_iff.mp h
  cases reply with
  | error error =>
      obtain ⟨rfl, rfl⟩ := Prod.mk.inj hrefresh
      exact ⟨by simp [World.record, requests], rfl⟩
  | ok token =>
      obtain ⟨rfl, rfl⟩ := Prod.mk.inj hrefresh
      exact ⟨by simp [World.record, requests], rfl⟩

/-- On a cell that holds `token`, a call makes exactly the requests of `DataPlane.Rust.call` with
that token: what is known of one call there holds of the calls here. -/
theorem execute_refines_call {c : Reqwest β} {limits : Limits} {isHeaderValue : String → Bool}
    {w w' : World β υ} {source : TokenSource} {token : CapabilityToken}
    {request : ModuleRequest β} {first second : ℕ → Outcome}
    {reply : Except RustHttp.Error CapabilityToken} {result : Except Error Response}
    (hcurrent : source.current w.cells = some token)
    (h : w.execute c limits isHeaderValue source request first reply second = some (w', result)) :
    requests w'.trace = requests w.trace ++
      sendings (DataPlane.Rust.call c limits isHeaderValue request.builder token.token first
        (reply.map CapabilityToken.token) second).log := by
  unfold World.execute at h
  unfold DataPlane.Rust.call
  rw [hcurrent, Option.bind_some] at h
  dsimp only at h ⊢
  cases hauthed : authorized isHeaderValue request.builder token.token with
  | error message =>
      rw [hauthed] at h
      obtain ⟨rfl, -⟩ := Prod.mk.inj (Option.some.inj h)
      exact (List.append_nil _).symm
  | ok authed =>
      rw [hauthed] at h
      dsimp only at h ⊢
      have hfirst := requests_record_sent w (RustHttp.execute c limits first authed).sent
      cases hresult : (RustHttp.execute c limits first authed).result with
      | ok response =>
          rw [hresult] at h
          obtain ⟨rfl, -⟩ := Prod.mk.inj (Option.some.inj h)
          rw [hfirst]
          simp [sendings]
      | error rejected =>
          rw [hresult] at h
          cases hreplay : tryClone c request.builder with
          | none =>
              rw [hreplay] at h
              obtain ⟨rfl, -⟩ := Prod.mk.inj (Option.some.inj h)
              rw [hfirst]
              simp [sendings]
          | some replay =>
              rw [hreplay] at h
              dsimp only at h ⊢
              split_ifs at h ⊢ with hunauthorized
              · obtain ⟨⟨mid, minted⟩, hrefresh, hrest⟩ := Option.map_eq_some_iff.mp h
                obtain ⟨hmid, rfl⟩ := requests_refresh hrefresh
                rw [hfirst] at hmid
                cases minted with
                | error error =>
                    obtain ⟨rfl, -⟩ := Prod.mk.inj hrest
                    rw [hmid]
                    simp [sendings, Except.map]
                | ok fresh =>
                    cases hauthed' : authorized isHeaderValue replay fresh.token with
                    | error message =>
                        simp only [hauthed'] at hrest
                        obtain ⟨rfl, -⟩ := Prod.mk.inj hrest
                        rw [hmid]
                        simp [sendings, Except.map, hauthed']
                    | ok authed' =>
                        simp only [hauthed'] at hrest
                        obtain ⟨rfl, -⟩ := Prod.mk.inj hrest
                        rw [requests_record_sent, hmid]
                        simp [sendings, Except.map, hauthed']
              · obtain ⟨rfl, -⟩ := Prod.mk.inj (Option.some.inj h)
                rw [hfirst]
                simp [sendings]

/-! ## Tokens by the replies -/

/-- What comes of a handle, by the operations and their replies: how the sandbox was described last,
how many modules were handed out, and the tokens that were returned, oldest first. -/
structure Account where
  info : Info
  modules : ℕ
  returned : List CapabilityToken

/-- The token returned last. -/
def Account.token (a : Account) : Option CapabilityToken := a.returned.getLast?

/-- A handshake ends in a 401. -/
def handshakeRejected : Except Error σ → Bool
  | .error rejected => isUnauthorizedHandshake rejected
  | .ok _ => false

section

variable (c : Reqwest β) (limits : Limits) (isHeaderValue : String → Bool)
  (parse : String → Except String υ) (agent : AgentTarget υ)

/-- The first execution of a call ends in a 401, and the request can be made once more. -/
def callRejected (held : CapabilityToken) (request : ModuleRequest β) (first : ℕ → Outcome) :
    Bool :=
  match authorized isHeaderValue request.builder held.token with
  | .error _ => false
  | .ok authed =>
      DataPlane.Rust.unauthorized (RustHttp.execute c limits first authed).result &&
        (tryClone c request.builder).isSome

namespace Account

/-- The description an operation returns. -/
def described : Op β → Option Info
  | .refresh reply | .pause reply | .extendDeadline _ reply => reply.toOption
  | .resume _ reply => reply.toOption.map Prod.fst
  | .mintToken _ _ | .commands | .files | .clone _ => none
  | .execute _ _ _ _ _ | .connect _ _ _ _ _ => none

/-- The token an operation returns, to the handle or to the module that asked for one. -/
def minted (a : Account) : Op β → Option CapabilityToken
  | .refresh _ | .pause _ | .extendDeadline _ _ | .commands | .files | .clone _ => none
  | .resume _ reply => reply.toOption.map Prod.snd
  | .mintToken _ reply => reply.toOption
  | .execute k request first reply _ =>
      if k < a.modules ∧ a.token.any (callRejected c limits isHeaderValue · request first) = true
      then reply.toOption
      else none
  | .connect k target first reply _ =>
      -- without a URL there is no handshake
      if k < a.modules ∧ handshakeRejected (target.bind fun _ => first) = true then reply.toOption
      else none

/-- How many modules an operation hands out. -/
def handedOut (a : Account) : Op β → ℕ
  | .commands | .files =>
      if a.token.isSome = true ∧ (agentBaseUrl parse agent a.info).isOk = true then 1 else 0
  | .clone k => if k < a.modules then 1 else 0
  | .refresh _ | .pause _ | .extendDeadline _ _ | .resume _ _ | .mintToken _ _ => 0
  | .execute _ _ _ _ _ | .connect _ _ _ _ _ => 0

def next (a : Account) (op : Op β) : Account where
  info := (described op).getD a.info
  modules := a.modules + a.handedOut parse agent op
  returned := a.returned ++ (a.minted c limits isHeaderValue op).toList

/-- The account of a handle that is created with a token or without one. -/
def of (info : Info) (token : Option CapabilityToken) (ops : List (Op β)) : Account :=
  ops.foldl (next c limits isHeaderValue parse agent) ⟨info, 0, token.toList⟩

end Account

end

/-! ## What the trace has to show -/

/-- The token an event installs. -/
def Event.installs : Event β → Option CapabilityToken
  | .installed token => some token
  | .control _ | .sent _ | .handshake _ => none

/-- The tokens that were installed. -/
def installed (trace : List (Event β)) : List CapabilityToken := trace.filterMap Event.installs

/-- The token installed last. -/
def latest (trace : List (Event β)) : Option CapabilityToken :=
  trace.foldl (fun held e => e.installs <|> held) none

theorem latest_concat (trace : List (Event β)) (e : Event β) :
    latest (trace ++ [e]) = (e.installs <|> latest trace) := by
  rw [latest, List.foldl_append]
  rfl

theorem latest_eq_getLast? (trace : List (Event β)) :
    latest trace = (installed trace).getLast? := by
  induction trace using List.reverseRecOn with
  | nil => rfl
  | append_singleton trace e ih =>
      rw [latest_concat, ih, installed, installed, List.filterMap_append]
      cases he : e.installs with
      | none => simp [he]
      | some token => simp [he]

/-- A request of a module carries the token installed last before it, and no other. -/
def UpToDate (earlier : List (Event β)) : Event β → Prop
  | .control _ | .installed _ => True
  | .sent request =>
      ∃ token, latest earlier = some token ∧ tokensOf request.headers = [token.token]
  | .handshake protocols =>
      ∃ token, latest earlier = some token ∧
        Base64Url.Rust.protocols token.token.toList = some protocols

theorem upToDate_congr {trace trace' : List (Event β)} (h : latest trace = latest trace')
    {e : Event β} (he : UpToDate trace e) : UpToDate trace' e := by
  cases e with
  | control request => trivial
  | installed token => trivial
  | sent request =>
      obtain ⟨token, hlatest, htokens⟩ := he
      exact ⟨token, h ▸ hlatest, htokens⟩
  | handshake protocols =>
      obtain ⟨token, hlatest, hprotocols⟩ := he
      exact ⟨token, h ▸ hlatest, hprotocols⟩

/-- Events that install nothing can be added one after another. -/
theorem each_append : ∀ {events trace : List (Event β)}, Each UpToDate trace →
    (∀ e ∈ events, e.installs = none ∧ UpToDate trace e) →
      Each UpToDate (trace ++ events) ∧ latest (trace ++ events) = latest trace
  | [], trace, h, _ => by
      rw [List.append_nil]
      exact ⟨h, rfl⟩
  | e :: events, trace, h, hnew => by
      obtain ⟨hquiet, he⟩ := hnew e List.mem_cons_self
      have hlatest : latest (trace ++ [e]) = latest trace := by
        rw [latest_concat, hquiet]
        rfl
      have hrest : ∀ e' ∈ events, e'.installs = none ∧ UpToDate (trace ++ [e]) e' := by
        intro e' he'
        obtain ⟨hquiet', hdate⟩ := hnew e' (List.mem_cons_of_mem _ he')
        exact ⟨hquiet', upToDate_congr hlatest.symm hdate⟩
      obtain ⟨heach, hsame⟩ := each_append (h.concat he) hrest
      rw [List.append_cons]
      exact ⟨heach, hsame.trans hlatest⟩

/-! ## The invariant -/

/-- What holds of a handle between operations. -/
structure Inv (w : World β υ) : Prop where
  /-- The two views of the token are there together. -/
  present : w.sandbox.credential.isSome = w.sandbox.token.isSome
  /-- The cell holds the token installed last. -/
  held : ∀ source, w.sandbox.credential = some source →
    ∃ token, source.current w.cells = some token ∧ latest w.trace = some token
  unarmed : w.sandbox.credential = none → latest w.trace = none
  /-- Every module is on the handle's own cell. -/
  shared : ∀ m ∈ w.modules, w.sandbox.credential = some m.credential
  upToDate : Each UpToDate w.trace

section

variable {w w' : World β υ} {source : TokenSource} {token : CapabilityToken}

/-- Sending something that installs nothing. -/
theorem Inv.record (h : Inv w) {events : List (Event β)}
    (hnew : ∀ e ∈ events, e.installs = none ∧ UpToDate w.trace e) : Inv (w.record events) := by
  obtain ⟨heach, hlatest⟩ := each_append h.upToDate hnew
  refine ⟨h.present, fun source hsource => ?_, fun hnone => ?_, h.shared, heach⟩
  · obtain ⟨token, hcurrent, htoken⟩ := h.held source hsource
    exact ⟨token, hcurrent, hlatest.trans htoken⟩
  · exact hlatest.trans (h.unarmed hnone)

theorem Inv.control (h : Inv w) (request : ControlRequest) :
    Inv (w.record [.control request]) := by
  apply h.record
  intro e he
  obtain rfl := List.mem_singleton.mp he
  exact ⟨rfl, trivial⟩

/-- A token is installed: it is in the cell of the handle, and the modules are on that cell. -/
theorem Inv.install (h : Inv w) (htrace : w'.trace = w.trace ++ [.installed token])
    (hsource : w'.sandbox.credential = some source) (htoken : w'.sandbox.token.isSome = true)
    (hcurrent : source.current w'.cells = some token)
    (hshared : ∀ m ∈ w'.modules, m.credential = source) : Inv w' where
  present := by rw [hsource, htoken]; rfl
  held := by
    intro source' hsource'
    obtain rfl := Option.some.inj (hsource.symm.trans hsource')
    refine ⟨token, hcurrent, ?_⟩
    rw [htrace, latest_concat]
    rfl
  unarmed := by
    intro hnone
    rw [hsource] at hnone
    cases hnone
  shared := by
    intro m hm
    rw [hsource, hshared m hm]
  upToDate := by
    rw [htrace]
    exact h.upToDate.concat trivial

theorem Inv.credential_eq (h : Inv w) (hsource : w.sandbox.credential = some source)
    {m : Module υ} (hm : m ∈ w.modules) : m.credential = source :=
  Option.some.inj ((h.shared m hm).symm.trans hsource)

/-- `replace` on the handle's cell. -/
theorem Inv.current_replace (h : Inv w) (hsource : w.sandbox.credential = some source)
    (token : CapabilityToken) : source.current (source.replace w.cells token) = some token := by
  obtain ⟨old, hold, -⟩ := h.held source hsource
  exact Cells.read_write hold token

/-! ### The operations of the handle -/

theorem inv_new (agent : AgentTarget υ) (info : Info) (token : Option CapabilityToken) :
    Inv (World.new agent info token : World β υ) := by
  cases token with
  | none => exact ⟨rfl, nofun, fun _ => rfl, nofun, each_nil⟩
  | some token =>
      refine ⟨rfl, fun source hsource => ?_, nofun, nofun, each_nil.concat trivial⟩
      obtain rfl := Option.some.inj hsource
      exact ⟨token, Cells.read_alloc .empty token, rfl⟩

/-- Arming a handle writes into the cell that is there, or makes the first one. -/
theorem inv_arm (h : Inv w) (token : CapabilityToken) :
    Inv ((w.record [.installed token]).arm token) := by
  unfold World.arm
  split
  · next credential hcredential =>
      have hcredential : w.sandbox.credential = some credential := hcredential
      refine h.install rfl hcredential rfl ?_ fun m hm => ?_
      · exact h.current_replace hcredential token
      · exact h.credential_eq hcredential hm
  · next hnone =>
      -- a new cell; no module was handed out that could be on another
      refine h.install rfl rfl rfl ?_ fun m hm => ?_
      · exact Cells.read_alloc w.cells token
      · have hshared := h.shared m hm
        rw [show w.sandbox.credential = none from hnone] at hshared
        cases hshared

/-- Another description of the sandbox. -/
theorem Inv.setInfo (h : Inv w) (info : Info) :
    Inv { w with sandbox := { w.sandbox with info := info } } :=
  ⟨h.present, h.held, h.unarmed, h.shared, h.upToDate⟩

theorem inv_reread (h : Inv w) (request : ControlRequest) (reply : Except RustHttp.Error Info) :
    Inv (w.reread request reply) := by
  cases reply with
  | error error => exact h.control request
  | ok info => exact (h.control request).setInfo info

theorem inv_resume (h : Inv w) (deadlineSeconds : Option ℕ)
    (reply : Except RustHttp.Error (Info × CapabilityToken)) :
    Inv (w.resume deadlineSeconds reply) := by
  cases reply with
  | error error => exact h.control _
  | ok reply => exact inv_arm ((h.control _).setInfo reply.1) reply.2

theorem inv_mintToken (h : Inv w) (request : MintTokenRequest)
    (reply : Except RustHttp.Error CapabilityToken) : Inv (w.mintToken request reply) := by
  cases reply with
  | error error => exact h.control _
  | ok token => exact inv_arm (h.control _) token

theorem inv_dataPlane (h : Inv w) (parse : String → Except String υ) :
    Inv (w.dataPlane parse).1 := by
  unfold World.dataPlane
  split
  · exact h
  · next credential hcredential =>
      split
      · exact h
      · refine ⟨h.present, h.held, h.unarmed, fun m hm => ?_, h.upToDate⟩
        rw [List.mem_append, List.mem_singleton] at hm
        obtain hm | rfl := hm
        · exact h.shared m hm
        · exact hcredential

/-! ### Data-plane calls -/

/-- What a call leaves behind: the handle and its modules are as before, and what was recorded is
still there. -/
structure Called (w w' : World β υ) : Prop where
  inv : Inv w'
  sandbox : w'.sandbox = w.sandbox
  modules : w'.modules = w.modules
  trace : w.trace <+: w'.trace

theorem Called.refl (h : Inv w) : Called w w := ⟨h, rfl, rfl, List.prefix_refl _⟩

theorem Called.trans {w'' : World β υ} (h : Called w w') (h' : Called w' w'') : Called w w'' :=
  ⟨h'.inv, h'.sandbox.trans h.sandbox, h'.modules.trans h.modules, h.trace.trans h'.trace⟩

theorem Called.record (h : Inv w) {events : List (Event β)}
    (hnew : ∀ e ∈ events, e.installs = none ∧ UpToDate w.trace e) : Called w (w.record events) :=
  ⟨h.record hnew, rfl, rfl, List.prefix_append _ _⟩

/-- A refresh keeps the cell and the record in step. -/
theorem called_refresh (h : Inv w) (hsource : w.sandbox.credential = some source)
    (reply : Except RustHttp.Error CapabilityToken) :
    ∃ w' minted, source.refresh w reply = some (w', minted) ∧ Called w w' ∧
      ∀ token, minted = .ok token → latest w'.trace = some token := by
  obtain ⟨current, hcurrent, -⟩ := h.held source hsource
  have hcontrol := h.control (.mintToken source.sandboxId ⟨none, current.ports⟩)
  rw [TokenSource.refresh, hcurrent, Option.map_some]
  cases reply with
  | error error => exact ⟨_, _, rfl, ⟨hcontrol, rfl, rfl, List.prefix_append _ _⟩, nofun⟩
  | ok token =>
      have hpresent : w.sandbox.token.isSome = true := by
        rw [← h.present, hsource]
        rfl
      refine ⟨_, _, rfl, ⟨?_, rfl, rfl, ?_⟩, fun token' htoken => ?_⟩
      · refine hcontrol.install ?_ ?_ ?_ (hcontrol.current_replace hsource token) ?_
        · rfl
        · exact hsource
        · exact hpresent
        · exact fun m hm => h.credential_eq hsource hm
      · exact (List.prefix_append _ _).trans (List.prefix_append _ _)
      · obtain rfl := Except.ok.inj htoken
        exact latest_concat _ _

section

variable {c : Reqwest β} {limits : Limits} {isHeaderValue : String → Bool}

/-- Everything an execution sends carries the token it was authorized with. -/
theorem tokensOf_sent {builder authed : RequestBuilder β} {text : String}
    (hbare : ∀ request, builder = .ok request → tokensOf request.headers = [])
    (h : authorized isHeaderValue builder text = .ok authed) (outcome : ℕ → Outcome) :
    ∀ sent ∈ (RustHttp.execute c limits outcome authed).sent, tokensOf sent.headers = [text] := by
  intro sent hsent
  cases builder with
  | ok request =>
      obtain ⟨k, hk⟩ := List.mem_iff_getElem?.mp hsent
      exact DataPlane.Rust.tokensOf_replay (hbare request rfl) h hk
  | error error =>
      unfold authorized at h
      split at h
      · obtain rfl := Except.ok.inj h
        cases hsent
      · cases h

/-- An execution with the token installed last. -/
theorem called_sent (h : Inv w) (hlatest : latest w.trace = some token)
    {builder authed : RequestBuilder β}
    (hbare : ∀ request, builder = .ok request → tokensOf request.headers = [])
    (hauthed : authorized isHeaderValue builder token.token = .ok authed) (outcome : ℕ → Outcome) :
    Called w (w.record ((RustHttp.execute c limits outcome authed).sent.map .sent)) := by
  apply Called.record h
  intro e he
  obtain ⟨sent, hsent, rfl⟩ := List.mem_map.mp he
  exact ⟨rfl, token, hlatest, tokensOf_sent hbare hauthed outcome sent hsent⟩

/-- A call returns, and what its first execution sends is the first thing it records. -/
theorem called_execute (h : Inv w) (hsource : w.sandbox.credential = some source)
    (hlatest : latest w.trace = some token) (request : ModuleRequest β) (first : ℕ → Outcome)
    (reply : Except RustHttp.Error CapabilityToken) (second : ℕ → Outcome) :
    ∃ w' result, w.execute c limits isHeaderValue source request first reply second
        = some (w', result) ∧ Called w w' ∧
      ∀ authed, authorized isHeaderValue request.builder token.token = .ok authed →
        w.trace ++ (RustHttp.execute c limits first authed).sent.map .sent <+: w'.trace := by
  obtain ⟨current, hcurrent, hlatest'⟩ := h.held source hsource
  obtain rfl : token = current := Option.some.inj (hlatest.symm.trans hlatest')
  unfold World.execute
  rw [hcurrent, Option.bind_some]
  cases hauthed : authorized isHeaderValue request.builder token.token with
  | error message => exact ⟨_, _, rfl, .refl h, nofun⟩
  | ok authed =>
      have hfirst : Called w (w.record ((RustHttp.execute c limits first authed).sent.map .sent)) :=
        called_sent h hlatest request.bare hauthed first
      -- whatever follows is recorded behind the first execution
      suffices hrest : ∃ w' result, _ = some (w', result) ∧
          Called (w.record ((RustHttp.execute c limits first authed).sent.map .sent)) w' by
        obtain ⟨w', result, hcall, hcalled⟩ := hrest
        refine ⟨w', result, hcall, hfirst.trans hcalled, fun authed' hauthed' => ?_⟩
        obtain rfl := Except.ok.inj hauthed'
        exact hcalled.trace
      dsimp only
      split
      · next rejected replay hresult hreplay =>
          split
          · obtain ⟨w', minted, hrefresh, hcalled, hminted⟩ :=
              called_refresh hfirst.inv (hfirst.sandbox ▸ hsource) reply
            rw [hrefresh, Option.map_some]
            obtain ⟨r, hr, rfl⟩ := DataPlane.Rust.tryClone_eq_some hreplay
            cases minted with
            | error error => exact ⟨_, _, rfl, hcalled⟩
            | ok fresh =>
                dsimp only
                split
                · exact ⟨_, _, rfl, hcalled⟩
                · next authed' hauthed' =>
                    refine ⟨_, _, rfl, hcalled.trans ?_⟩
                    exact called_sent hcalled.inv (hminted fresh rfl)
                      (fun request' heq => request.bare request' (hr.trans heq)) hauthed' second
          · exact ⟨_, _, rfl, .refl hfirst.inv⟩
      · exact ⟨_, _, rfl, .refl hfirst.inv⟩

end

/-- A handshake with the token installed last. -/
theorem called_handshake (h : Inv w) (hlatest : latest w.trace = some token)
    (target : Except Error Unit) (answer : Except Error σ) :
    ∃ w' outcome, w.handshake target token.token answer = some (w', outcome) ∧ Called w w' ∧
      (target = .ok () → ∃ protocols,
        Base64Url.Rust.protocols token.token.toList = some protocols ∧
          w'.trace = w.trace ++ [.handshake protocols]) := by
  cases target with
  | error error => exact ⟨_, _, rfl, .refl h, nofun⟩
  | ok target =>
      have hprotocols : ∃ protocols,
          Base64Url.Rust.protocols token.token.toList = some protocols := by
        rw [Base64Url.Rust.protocols, Base64Url.Rust.base64Url_eq]
        exact ⟨_, rfl⟩
      obtain ⟨protocols, hprotocols⟩ := hprotocols
      simp only [World.handshake, hprotocols, Option.map_some]
      refine ⟨_, _, rfl, Called.record h fun e he => ?_, fun _ => ⟨protocols, rfl, rfl⟩⟩
      obtain rfl := List.mem_singleton.mp he
      exact ⟨rfl, token, hlatest, hprotocols⟩

/-- Opening a stream returns, and its first handshake is the first thing it records. -/
theorem called_connect (h : Inv w) (hsource : w.sandbox.credential = some source)
    (hlatest : latest w.trace = some token) (target : Except Error Unit) (first : Except Error σ)
    (reply : Except RustHttp.Error CapabilityToken) (second : Except Error σ) :
    ∃ w' result, w.connect source target first reply second = some (w', result) ∧ Called w w' ∧
      (target = .ok () → ∃ protocols,
        Base64Url.Rust.protocols token.token.toList = some protocols ∧
          w.trace ++ [.handshake protocols] <+: w'.trace) := by
  obtain ⟨current, hcurrent, hlatest'⟩ := h.held source hsource
  obtain rfl : token = current := Option.some.inj (hlatest.symm.trans hlatest')
  obtain ⟨w₁, outcome, hhandshake, hfirst, hsent⟩ := called_handshake h hlatest target first
  rw [World.connect, hcurrent, Option.bind_some, hhandshake, Option.bind_some]
  suffices hrest : ∃ w' result, _ = some (w', result) ∧ Called w₁ w' by
    obtain ⟨w', result, hcall, hcalled⟩ := hrest
    refine ⟨w', result, hcall, hfirst.trans hcalled, fun htarget => ?_⟩
    obtain ⟨protocols, hprotocols, htrace⟩ := hsent htarget
    exact ⟨protocols, hprotocols, htrace ▸ hcalled.trace⟩
  cases outcome with
  | ok socket => exact ⟨_, _, rfl, .refl hfirst.inv⟩
  | error rejected =>
      dsimp only
      split
      · obtain ⟨w₂, minted, hrefresh, hcalled, hminted⟩ :=
          called_refresh hfirst.inv (hfirst.sandbox ▸ hsource) reply
        rw [hrefresh, Option.bind_some]
        cases minted with
        | error error => exact ⟨_, _, rfl, hcalled⟩
        | ok fresh =>
            obtain ⟨w₃, outcome, hagain, hsecond, -⟩ :=
              called_handshake hcalled.inv (hminted fresh rfl) target second
            exact ⟨_, _, hagain, hcalled.trans hsecond⟩
      · exact ⟨_, _, rfl, .refl hfirst.inv⟩

/-! ## Runs -/

section

variable {c : Reqwest β} {limits : Limits} {isHeaderValue : String → Bool}
  {parse : String → Except String υ}

/-- Every operation returns, and keeps the invariant. -/
theorem inv_step (h : Inv w) (op : Op β) :
    ∃ w', step c limits isHeaderValue parse w op = some w' ∧ Inv w' := by
  cases op with
  | refresh reply => exact ⟨_, rfl, inv_reread h _ reply⟩
  | pause reply => exact ⟨_, rfl, inv_reread h _ reply⟩
  | extendDeadline deadlineSeconds reply => exact ⟨_, rfl, inv_reread h _ reply⟩
  | resume deadlineSeconds reply => exact ⟨_, rfl, inv_resume h deadlineSeconds reply⟩
  | mintToken request reply => exact ⟨_, rfl, inv_mintToken h request reply⟩
  | commands => exact ⟨_, rfl, inv_dataPlane h parse⟩
  | files => exact ⟨_, rfl, inv_dataPlane h parse⟩
  | clone k =>
      refine ⟨_, rfl, h.present, h.held, h.unarmed, fun m hm => ?_, h.upToDate⟩
      rw [List.mem_append, Option.mem_toList] at hm
      obtain hm | hm := hm
      · exact h.shared m hm
      · exact h.shared m (List.mem_of_getElem? hm)
  | execute k request first reply second =>
      simp only [step]
      split
      · exact ⟨w, rfl, h⟩
      · next m hm =>
          have hsource := h.shared m (List.mem_of_getElem? hm)
          obtain ⟨token, -, hlatest⟩ := h.held m.credential hsource
          obtain ⟨w', result, hcall, hcalled, -⟩ :=
            called_execute h hsource hlatest request first reply second
          rw [hcall]
          exact ⟨w', rfl, hcalled.inv⟩
  | connect k target first reply second =>
      simp only [step]
      split
      · exact ⟨w, rfl, h⟩
      · next m hm =>
          have hsource := h.shared m (List.mem_of_getElem? hm)
          obtain ⟨token, -, hlatest⟩ := h.held m.credential hsource
          obtain ⟨w', result, hcall, hcalled, -⟩ :=
            called_connect h hsource hlatest target first reply second
          rw [hcall]
          exact ⟨w', rfl, hcalled.inv⟩

end

end

/-! ## The account and the trace -/

@[simp]
theorem installed_append (trace events : List (Event β)) :
    installed (trace ++ events) = installed trace ++ installed events :=
  List.filterMap_append

@[simp]
theorem installed_sent (sent : List (Request β)) :
    installed (sent.map Event.sent) = [] := by
  rw [installed, List.filterMap_map, List.filterMap_eq_nil_iff]
  exact fun _ _ => rfl

@[simp]
theorem installed_nil : installed ([] : List (Event β)) = [] := rfl

@[simp]
theorem installed_cons_control (request : ControlRequest) (trace : List (Event β)) :
    installed (.control request :: trace) = installed trace := rfl

@[simp]
theorem installed_cons_installed (token : CapabilityToken) (trace : List (Event β)) :
    installed (.installed token :: trace) = token :: installed trace := rfl

@[simp]
theorem installed_cons_handshake (protocols : List Char) (trace : List (Event β)) :
    installed (.handshake protocols :: trace) = installed trace := rfl

/-- The account is true of the handle. -/
structure Accounts (agent : AgentTarget υ) (w : World β υ) (a : Account) : Prop where
  agent : w.sandbox.agent = agent
  info : w.sandbox.info = a.info
  modules : w.modules.length = a.modules
  trace : installed w.trace = a.returned

section

variable {c : Reqwest β} {limits : Limits} {isHeaderValue : String → Bool}
  {parse : String → Except String υ} {agent : AgentTarget υ} {w w' : World β υ} {a : Account}
  {source : TokenSource} {token : CapabilityToken}

theorem Accounts.token_eq (ha : Accounts agent w a) : a.token = latest w.trace := by
  rw [Account.token, latest_eq_getLast?, ha.trace]

theorem accounts_new (agent : AgentTarget υ) (info : Info) (token : Option CapabilityToken) :
    Accounts agent (World.new agent info token : World β υ) ⟨info, 0, token.toList⟩ := by
  cases token with
  | none => exact ⟨rfl, rfl, rfl, rfl⟩
  | some token => exact ⟨rfl, rfl, rfl, rfl⟩

/-- A refresh installs the token of its reply. -/
theorem installed_refresh {reply minted : Except RustHttp.Error CapabilityToken}
    (h : source.refresh w reply = some (w', minted)) :
    installed w'.trace = installed w.trace ++ reply.toOption.toList ∧ minted = reply := by
  obtain ⟨current, -, hrefresh⟩ := Option.map_eq_some_iff.mp h
  cases reply with
  | error error =>
      obtain ⟨rfl, rfl⟩ := Prod.mk.inj hrefresh
      simp [World.record, Except.toOption]
  | ok token =>
      obtain ⟨rfl, rfl⟩ := Prod.mk.inj hrefresh
      simp [World.record, Except.toOption]

/-- A call installs a token where its first execution is rejected, and then that of the reply. -/
theorem installed_execute {request : ModuleRequest β} {first second : ℕ → Outcome}
    {reply : Except RustHttp.Error CapabilityToken} {result : Except Error Response}
    (hcurrent : source.current w.cells = some token)
    (h : w.execute c limits isHeaderValue source request first reply second = some (w', result)) :
    installed w'.trace = installed w.trace ++
      (if callRejected c limits isHeaderValue token request first = true then reply.toOption
        else none).toList := by
  unfold World.execute at h
  rw [hcurrent, Option.bind_some] at h
  dsimp only at h
  cases hauthed : authorized isHeaderValue request.builder token.token with
  | error message =>
      have hnot : callRejected c limits isHeaderValue token request first = false := by
        rw [callRejected, hauthed]
      rw [hauthed] at h
      obtain ⟨rfl, -⟩ := Prod.mk.inj (Option.some.inj h)
      simp [hnot]
  | ok authed =>
      have hrejected : callRejected c limits isHeaderValue token request first =
          (DataPlane.Rust.unauthorized (RustHttp.execute c limits first authed).result &&
            (tryClone c request.builder).isSome) := by
        rw [callRejected, hauthed]
      rw [hauthed] at h
      rw [hrejected]
      dsimp only at h
      cases hresult : (RustHttp.execute c limits first authed).result with
      | ok response =>
          rw [hresult] at h
          obtain ⟨rfl, -⟩ := Prod.mk.inj (Option.some.inj h)
          simp [World.record, DataPlane.Rust.unauthorized]
      | error rejected =>
          rw [hresult] at h
          rw [DataPlane.Rust.unauthorized]
          cases hreplay : tryClone c request.builder with
          | none =>
              rw [hreplay] at h
              obtain ⟨rfl, -⟩ := Prod.mk.inj (Option.some.inj h)
              simp [World.record]
          | some replay =>
              rw [hreplay] at h
              dsimp only at h
              split_ifs at h with hunauthorized
              · obtain ⟨⟨mid, minted⟩, hrefresh, hrest⟩ := Option.map_eq_some_iff.mp h
                obtain ⟨hmid, rfl⟩ := installed_refresh hrefresh
                rw [hunauthorized, Option.isSome_some, Bool.and_self, if_pos rfl]
                -- the second execution installs nothing
                have hrest' : installed w'.trace = installed mid.trace := by
                  cases minted with
                  | error error =>
                      obtain ⟨rfl, -⟩ := Prod.mk.inj hrest
                      rfl
                  | ok fresh =>
                      dsimp only at hrest
                      split at hrest
                      · obtain ⟨rfl, -⟩ := Prod.mk.inj hrest
                        rfl
                      · obtain ⟨rfl, -⟩ := Prod.mk.inj hrest
                        simp [World.record]
                rw [hrest', hmid]
                simp [World.record]
              · obtain ⟨rfl, -⟩ := Prod.mk.inj (Option.some.inj h)
                rw [Bool.not_eq_true] at hunauthorized
                simp [World.record, hunauthorized]

/-- A handshake installs nothing, whatever comes of it. -/
theorem installed_of_handshake {target : Except Error Unit} {text : String}
    {answer outcome : Except Error σ}
    (h : w.handshake target text answer = some (w', outcome)) :
    installed w'.trace = installed w.trace ∧ outcome = target.bind fun _ => answer := by
  cases target with
  | error error =>
      obtain ⟨rfl, rfl⟩ := Prod.mk.inj (Option.some.inj h)
      exact ⟨rfl, rfl⟩
  | ok target =>
      obtain ⟨protocols, -, hsent⟩ := Option.map_eq_some_iff.mp h
      obtain ⟨rfl, rfl⟩ := Prod.mk.inj hsent
      simp [World.record, Except.bind]

/-- Opening a stream installs a token where the first handshake is rejected, and then that of the
reply. -/
theorem installed_connect {target first second result : Except Error Unit}
    {reply : Except RustHttp.Error CapabilityToken} (hcurrent : source.current w.cells = some token)
    (h : w.connect source target first reply second = some (w', result)) :
    installed w'.trace = installed w.trace ++
      (if handshakeRejected (target.bind fun _ => first) = true then reply.toOption
        else none).toList := by
  rw [World.connect, hcurrent, Option.bind_some] at h
  obtain ⟨⟨w₁, outcome⟩, hfirst, hrest⟩ := Option.bind_eq_some_iff.mp h
  obtain ⟨hsame, houtcome⟩ := installed_of_handshake hfirst
  rw [← houtcome, ← hsame]
  cases outcome with
  | ok socket =>
      obtain ⟨rfl, -⟩ := Prod.mk.inj (Option.some.inj hrest)
      simp [handshakeRejected]
  | error rejected =>
      dsimp only at hrest
      rw [handshakeRejected]
      split_ifs at hrest ⊢ with hunauthorized
      · obtain ⟨⟨w₂, minted⟩, hrefresh, hsecond⟩ := Option.bind_eq_some_iff.mp hrest
        obtain ⟨hmid, rfl⟩ := installed_refresh hrefresh
        rw [← hmid]
        cases minted with
        | error error =>
            obtain ⟨rfl, -⟩ := Prod.mk.inj (Option.some.inj hsecond)
            rfl
        | ok fresh => exact (installed_of_handshake hsecond).1
      · obtain ⟨rfl, -⟩ := Prod.mk.inj (Option.some.inj hrest)
        simp

theorem Accounts.control (ha : Accounts agent w a) (request : ControlRequest) :
    Accounts agent (w.record [.control request]) a := by
  refine ⟨ha.agent, ha.info, ha.modules, ?_⟩
  rw [World.record, installed_append, ha.trace, installed_cons_control, installed_nil,
    List.append_nil]

/-- Arming a handle touches neither what is known of the sandbox nor the modules. -/
theorem Accounts.arm (ha : Accounts agent w a) (token : CapabilityToken) :
    Accounts agent ((w.record [.installed token]).arm token)
      { a with returned := a.returned ++ [token] } := by
  have htrace : installed (w.record [.installed token]).trace = a.returned ++ [token] := by
    rw [World.record, installed_append, ha.trace, installed_cons_installed, installed_nil]
  unfold World.arm
  split
  · exact ⟨ha.agent, ha.info, ha.modules, htrace⟩
  · exact ⟨ha.agent, ha.info, ha.modules, htrace⟩

theorem Accounts.reread (ha : Accounts agent w a) (request : ControlRequest)
    (reply : Except RustHttp.Error Info) :
    Accounts agent (w.reread request reply) { a with info := reply.toOption.getD a.info } := by
  have hcontrol := ha.control request
  cases reply with
  | error error => exact hcontrol
  | ok info => exact ⟨hcontrol.agent, rfl, hcontrol.modules, hcontrol.trace⟩

/-- A module is handed out where there is a token and a URL. -/
theorem Accounts.dataPlane (ha : Accounts agent w a) (h : Inv w) :
    Accounts agent (w.dataPlane parse).1 { a with
      modules := a.modules +
        if a.token.isSome = true ∧ (agentBaseUrl parse agent a.info).isOk = true then 1
        else 0 } := by
  unfold World.dataPlane
  rw [ha.token_eq, ← ha.info, ← ha.agent]
  split
  · next hnone =>
      rw [h.unarmed hnone, if_neg (by simp)]
      exact ⟨rfl, rfl, ha.modules, ha.trace⟩
  · next credential hcredential =>
      obtain ⟨token, -, hlatest⟩ := h.held credential hcredential
      rw [hlatest]
      cases hbase : agentBaseUrl parse w.sandbox.agent w.sandbox.info with
      | error error =>
          rw [if_neg (by simp [Except.isOk, Except.toBool])]
          exact ⟨rfl, rfl, ha.modules, ha.trace⟩
      | ok base =>
          rw [if_pos ⟨rfl, rfl⟩]
          refine ⟨rfl, rfl, ?_, ha.trace⟩
          rw [List.length_append, ha.modules]
          rfl

/-- A call leaves the handle and its modules as they are. -/
theorem Accounts.called (ha : Accounts agent w a) (h : Called w w') {tokens : List CapabilityToken}
    (htrace : installed w'.trace = installed w.trace ++ tokens) :
    Accounts agent w' { a with returned := a.returned ++ tokens } where
  agent := by rw [h.sandbox, ha.agent]
  info := by rw [h.sandbox, ha.info]
  modules := by rw [h.modules, ha.modules]
  trace := by rw [htrace, ha.trace]

theorem Accounts.getElem?_eq_none_iff (ha : Accounts agent w a) {k : ℕ} :
    w.modules[k]? = none ↔ ¬ k < a.modules := by
  rw [List.getElem?_eq_none_iff, ha.modules, Nat.not_lt]

/-- An operation that returns no token. -/
theorem Account.next_of_minted {op : Op β} (h : a.minted c limits isHeaderValue op = none) :
    a.next c limits isHeaderValue parse agent op =
      ⟨(described op).getD a.info, a.modules + a.handedOut parse agent op, a.returned⟩ := by
  rw [Account.next, h, Option.toList_none, List.append_nil]

/-- An operation does to the handle what the account says. -/
theorem accounts_step (h : Inv w) (ha : Accounts agent w a) {op : Op β}
    (hw : step c limits isHeaderValue parse w op = some w') :
    Accounts agent w' (a.next c limits isHeaderValue parse agent op) := by
  cases op with
  | refresh reply =>
      obtain rfl := Option.some.inj hw
      rw [Account.next_of_minted rfl]
      exact ha.reread _ reply
  | pause reply =>
      obtain rfl := Option.some.inj hw
      rw [Account.next_of_minted rfl]
      exact ha.reread _ reply
  | extendDeadline deadlineSeconds reply =>
      obtain rfl := Option.some.inj hw
      rw [Account.next_of_minted rfl]
      exact ha.reread _ reply
  | resume deadlineSeconds reply =>
      obtain rfl := Option.some.inj hw
      have hcontrol := ha.control (.resume w.sandbox.info.sandboxId deadlineSeconds)
      cases reply with
      | error error =>
          rw [Account.next_of_minted rfl]
          exact hcontrol
      | ok reply =>
          have hinfo : Accounts agent { w.record [.control (.resume w.sandbox.info.sandboxId
              deadlineSeconds)] with sandbox := { w.sandbox with info := reply.1 } }
              { a with info := reply.1 } :=
            ⟨hcontrol.agent, rfl, hcontrol.modules, hcontrol.trace⟩
          exact hinfo.arm reply.2
  | mintToken request reply =>
      obtain rfl := Option.some.inj hw
      have hcontrol := ha.control (.mintToken w.sandbox.info.sandboxId request)
      cases reply with
      | error error =>
          rw [Account.next_of_minted rfl]
          exact hcontrol
      | ok token => exact hcontrol.arm token
  | commands =>
      obtain rfl := Option.some.inj hw
      rw [Account.next_of_minted rfl]
      exact ha.dataPlane h
  | files =>
      obtain rfl := Option.some.inj hw
      rw [Account.next_of_minted rfl]
      exact ha.dataPlane h
  | clone k =>
      obtain rfl := Option.some.inj hw
      rw [Account.next_of_minted rfl]
      refine ⟨ha.agent, ha.info, ?_, ha.trace⟩
      rw [List.length_append, ha.modules, Account.handedOut]
      by_cases hk : k < a.modules
      · rw [List.getElem?_eq_getElem (ha.modules ▸ hk), if_pos hk]
        rfl
      · rw [List.getElem?_eq_none (ha.modules ▸ Nat.not_lt.mp hk), if_neg hk]
        rfl
  | execute k request first reply second =>
      simp only [step] at hw
      split at hw
      · next hm =>
          obtain rfl := Option.some.inj hw
          have hk := ha.getElem?_eq_none_iff.mp hm
          rw [Account.next_of_minted (by rw [Account.minted, if_neg fun h => hk h.1])]
          exact ha
      · next m hm =>
          obtain ⟨⟨called, result⟩, hcall, rfl⟩ := Option.map_eq_some_iff.mp hw
          have hk : k < a.modules := ha.modules ▸ (List.getElem?_eq_some_iff.mp hm).1
          have hsource := h.shared m (List.mem_of_getElem? hm)
          obtain ⟨token, hcurrent, hlatest⟩ := h.held m.credential hsource
          obtain ⟨_, _, hcalled, hkept, -⟩ := @called_execute β υ w m.credential token c limits
            isHeaderValue h hsource hlatest request first reply second
          obtain ⟨rfl, -⟩ := Prod.mk.inj (Option.some.inj (hcall.symm.trans hcalled))
          rw [Account.next, Account.minted, ha.token_eq, hlatest]
          simp only [Option.any_some, hk, true_and]
          exact ha.called hkept (installed_execute hcurrent hcall)
  | connect k target first reply second =>
      simp only [step] at hw
      split at hw
      · next hm =>
          obtain rfl := Option.some.inj hw
          have hk := ha.getElem?_eq_none_iff.mp hm
          rw [Account.next_of_minted (by rw [Account.minted, if_neg fun h => hk h.1])]
          exact ha
      · next m hm =>
          obtain ⟨⟨called, result⟩, hcall, rfl⟩ := Option.map_eq_some_iff.mp hw
          have hk : k < a.modules := ha.modules ▸ (List.getElem?_eq_some_iff.mp hm).1
          have hsource := h.shared m (List.mem_of_getElem? hm)
          obtain ⟨token, hcurrent, hlatest⟩ := h.held m.credential hsource
          obtain ⟨_, _, hcalled, hkept, -⟩ :=
            called_connect h hsource hlatest target first reply second
          obtain ⟨rfl, -⟩ := Prod.mk.inj (Option.some.inj (hcall.symm.trans hcalled))
          rw [Account.next, Account.minted]
          simp only [hk, true_and]
          exact ha.called hkept (installed_connect hcurrent hcall)

/-- After any run the account is true of the handle. -/
theorem accounts_run : ∀ (ops : List (Op β)) {w : World β υ} {a : Account}, Inv w →
    Accounts agent w a → ∃ w', run (step c limits isHeaderValue parse) w ops = some w' ∧
      Inv w' ∧ Accounts agent w' (ops.foldl (Account.next c limits isHeaderValue parse agent) a)
  | [], w, _, h, ha => ⟨w, rfl, h, ha⟩
  | op :: ops, _, _, h, ha => by
      obtain ⟨mid, hmid, hinv⟩ := inv_step h op
      obtain ⟨w', hw', hinv', ha'⟩ := accounts_run ops hinv (accounts_step h ha hmid)
      exact ⟨w', run_cons_eq_some.mpr ⟨mid, hmid, hw'⟩, hinv', ha'⟩

end

/-! ## What the handle and its modules share -/

section

variable (c : Reqwest β) (limits : Limits) (isHeaderValue : String → Bool)
  (parse : String → Except String υ)

/-- The next thing a module sends carries this token: a request whose token fits into a header, or
the handshake of a stream. -/
structure SendsNext (w : World β υ) (m : Module υ) (token : CapabilityToken) : Prop where
  request : ∀ (request : ModuleRequest β) r first reply second, request.builder = .ok r →
    isHeaderValue token.token = true →
    ∃ w' result, w.execute c limits isHeaderValue m.credential request first reply second
        = some (w', result) ∧
      w.trace ++ [.sent { r with headers := appendHeader r.headers tokenHeader token.token }]
        <+: w'.trace
  stream : ∀ (first : Except Error Unit) reply second, ∃ w' result protocols,
    w.connect m.credential (.ok ()) first reply second = some (w', result) ∧
      Base64Url.Rust.protocols token.token.toList = some protocols ∧
      w.trace ++ [.handshake protocols] <+: w'.trace

/-- What a handle promises at any time, given the account of what was done with it. -/
structure Shares (w : World β υ) (a : Account) : Prop where
  present : w.sandbox.credential.isSome = true ↔ w.sandbox.token.isSome = true
  commands_iff : (w.commands parse).2 = .error .missingToken ↔ a.returned = []
  files_iff : (w.files parse).2 = .error .missingToken ↔ a.returned = []
  /-- Every token that was returned has been installed, and no other. -/
  installed : installed w.trace = a.returned
  /-- The token the handle reports is the one returned last. -/
  current : w.currentToken = a.token
  modules : w.modules.length = a.modules
  /-- Whatever was sent, carried the token that was installed last by then; -/
  upToDate : Each UpToDate w.trace
  /-- and what any of the modules sends next carries the one returned last. -/
  next : ∀ m ∈ w.modules, ∃ token, a.token = some token ∧
    SendsNext c limits isHeaderValue w m token

variable {c limits isHeaderValue parse} {w : World β υ}

theorem dataPlane_missing_iff (h : Inv w) :
    (w.dataPlane parse).2 = .error .missingToken ↔ latest w.trace = none := by
  unfold World.dataPlane
  split
  · next hnone => exact iff_of_true rfl (h.unarmed hnone)
  · next credential hcredential =>
      obtain ⟨token, -, hlatest⟩ := h.held credential hcredential
      rw [hlatest]
      refine iff_of_false ?_ nofun
      unfold agentBaseUrl
      split
      · next error herror =>
          -- a URL that does not parse is another error
          intro hmissing
          obtain rfl := Except.error.inj hmissing
          split at herror
          · cases herror
          · dsimp only at herror
            generalize parse _ = parsed at herror
            cases parsed with
            | ok url => cases herror
            | error message => cases herror
      · nofun

theorem Inv.sendsNext (h : Inv w) {m : Module υ} (hm : m ∈ w.modules) {token : CapabilityToken}
    (hlatest : latest w.trace = some token) : SendsNext c limits isHeaderValue w m token where
  request := by
    intro request r first reply second hbuilder hvalue
    obtain ⟨w', result, hcall, -, hsent⟩ :=
      called_execute h (h.shared m hm) hlatest request first reply second
    refine ⟨w', result, hcall, ?_⟩
    have hauthed : authorized isHeaderValue request.builder token.token =
        .ok (.ok { r with headers := appendHeader r.headers tokenHeader token.token }) := by
      rw [authorized, if_pos hvalue, hbuilder]
      rfl
    obtain ⟨n, -, hexecuted, -⟩ := RustHttp.execute_isLast c limits first
      { r with headers := appendHeader r.headers tokenHeader token.token }
    refine List.IsPrefix.trans ?_ (hsent _ hauthed)
    rw [hexecuted, List.replicate_succ, List.map_cons, List.prefix_append_right_inj]
    exact List.prefix_append [_] _
  stream := by
    intro first reply second
    obtain ⟨w', result, hcall, -, hsent⟩ :=
      called_connect h (h.shared m hm) hlatest (.ok ()) first reply second
    obtain ⟨protocols, hprotocols, htrace⟩ := hsent rfl
    exact ⟨w', result, protocols, hcall, hprotocols, htrace⟩

theorem Account.token_eq_none (a : Account) : a.token = none ↔ a.returned = [] :=
  List.getLast?_eq_none_iff

theorem Inv.shares {agent : AgentTarget υ} {a : Account} (h : Inv w) (ha : Accounts agent w a) :
    Shares c limits isHeaderValue parse w a where
  present := by rw [h.present]
  commands_iff := by
    rw [World.commands, dataPlane_missing_iff h, ← ha.token_eq, a.token_eq_none]
  files_iff := by
    rw [World.files, dataPlane_missing_iff h, ← ha.token_eq, a.token_eq_none]
  installed := ha.trace
  current := by
    rw [ha.token_eq]
    unfold World.currentToken
    split
    · next credential hcredential =>
        obtain ⟨token, hcurrent, hlatest⟩ := h.held credential hcredential
        rw [hcurrent, hlatest]
    · next hnone =>
        rw [h.unarmed hnone]
        have hpresent := h.present
        rw [hnone] at hpresent
        exact Option.isNone_iff_eq_none.mp (Option.isSome_eq_false_iff.mp hpresent.symm)
  modules := ha.modules
  upToDate := h.upToDate
  next := by
    intro m hm
    obtain ⟨token, -, hlatest⟩ := h.held m.credential (h.shared m hm)
    exact ⟨token, ha.token_eq.trans hlatest, h.sendsNext hm hlatest⟩

end

/-- **A handle and all modules it ever handed out stay on one credential**: after any sequence of
operations the handle has its credential exactly if it has a token, refuses modules exactly if no
operation ever returned a token, and every module sends the token that was returned last. -/
theorem handle_shares (c : Reqwest β) (limits : Limits) (isHeaderValue : String → Bool)
    (parse : String → Except String υ) (agent : AgentTarget υ) (info : Info)
    (token : Option CapabilityToken) (ops : List (Op β)) :
    ∃ w : World β υ,
      run (step c limits isHeaderValue parse) (World.new agent info token) ops = some w ∧
        Shares c limits isHeaderValue parse w
          (Account.of c limits isHeaderValue parse agent info token ops) := by
  obtain ⟨w, hrun, hinv, haccounts⟩ :=
    accounts_run ops (inv_new agent info token) (accounts_new agent info token)
  exact ⟨w, hrun, hinv.shares haccounts⟩

/-- A handle without a token: a module is refused, a token is minted and a module is there; the
stream it opens is rejected and mints another one; the handle is resumed. Three tokens were returned
and installed, and the module sends the third. -/
theorem handle_shares_resumed :
    let c : Reqwest Unit := ⟨some, fun h => (Option.some.inj h).symm, fun _ => none, fun _ => "",
      fun _ => none⟩
    ∃ w : World Unit String,
      run (step c ⟨2⟩ (fun _ => true) .ok) (World.new ⟨50000, none⟩ ⟨"a", "x"⟩ none)
        [.commands, .mintToken ⟨none, none⟩ (.ok ⟨"t", 1, none⟩), .files,
          .connect 0 (.ok ()) (.error (.webSocketHttp 401)) (.ok ⟨"u", 1, none⟩) (.ok ()),
          .resume none (.ok (⟨"a", "x"⟩, ⟨"v", 2, none⟩))] = some w ∧
        installed w.trace = [⟨"t", 1, none⟩, ⟨"u", 1, none⟩, ⟨"v", 2, none⟩] ∧
        w.modules.length = 1 ∧
        ∀ m ∈ w.modules, SendsNext c ⟨2⟩ (fun _ => true) w m ⟨"v", 2, none⟩ := by
  intro c
  obtain ⟨w, hrun, hshares⟩ := handle_shares c ⟨2⟩ (fun _ => true) .ok ⟨50000, none⟩ ⟨"a", "x"⟩ none
    [.commands, .mintToken ⟨none, none⟩ (.ok ⟨"t", 1, none⟩), .files,
      .connect 0 (.ok ()) (.error (.webSocketHttp 401)) (.ok ⟨"u", 1, none⟩) (.ok ()),
      .resume none (.ok (⟨"a", "x"⟩, ⟨"v", 2, none⟩))]
  refine ⟨w, hrun, hshares.installed, hshares.modules, fun m hm => ?_⟩
  obtain ⟨token, htoken, hnext⟩ := hshares.next m hm
  obtain rfl := Option.some.inj htoken
  exact hnext

end FissionPlane.Sdk.SandboxHandle
