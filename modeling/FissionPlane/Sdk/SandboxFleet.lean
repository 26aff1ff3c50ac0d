/-
# FissionPlane.Sdk.SandboxFleet -- many handles, their modules, and calls that overlap

A client holds any number of handles on any number of sandboxes. Handles and modules are cloned;
a clone shares the cell of its original, unless there was none yet to share. Calls run as tasks that
are suspended while they wait for the network, so that between two steps of one call any other may
write to the cell that it has read. An operation on a handle borrows the handle until its reply is
in, or until its future is dropped.

What no interleaving does is to carry a credential from one sandbox to another.
-/
import FissionPlane.Lib.Simulation
import FissionPlane.Sdk.SandboxHandle

namespace FissionPlane.Sdk.SandboxFleet

open FissionPlane.Lib FissionPlane.Lib.History FissionPlane.Lib.Transition
open FissionPlane.Sdk.DataPlane (tokensOf)
open FissionPlane.Sdk.DataPlane.Rust (RequestBuilder authorized isUnauthorized tryClone)
open FissionPlane.Sdk.RustHttp (Limits Outcome Reqwest Response)
open FissionPlane.Sdk.SandboxHandle (AgentTarget ControlRequest Info Module ModuleRequest Sandbox
  TokenSource World agentBaseUrl isUnauthorizedHandshake)

variable {β υ : Type*}

/-! ## State -/

/-- A request to the control plane. -/
inductive Request where
  | create
  | sandbox (request : ControlRequest)
  | delete (sandboxId : String)

/-- What happens on behalf of the client. -/
inductive Event (β : Type*) where
  | control (request : Request)
  /-- The control plane has answered a request about this sandbox with this token. -/
  | returned (sandboxId : String) (token : CapabilityToken)
  /-- A module on this credential has sent a request. -/
  | sent (source : TokenSource) (request : RustHttp.Request β)
  | handshake (source : TokenSource) (protocols : List Char)

/-- The operations that borrow a handle. -/
inductive HandleOp where
  | refresh
  | pause
  | extendDeadline (deadlineSeconds : ℕ)
  | resume (deadlineSeconds : Option ℕ)
  | mintToken (request : MintTokenRequest)

def HandleOp.request (sandboxId : String) : HandleOp → ControlRequest
  | .refresh => .get sandboxId
  | .pause => .pause sandboxId
  | .extendDeadline deadlineSeconds => .extendDeadline sandboxId deadlineSeconds
  | .resume deadlineSeconds => .resume sandboxId deadlineSeconds
  | .mintToken request => .mintToken sandboxId request

/-- What a call goes on with once its token is minted: the clone of its request, or a handshake. -/
inductive Replay (β : Type*) where
  | request (builder : RequestBuilder β)
  | stream (target : Except SandboxHandle.Error Unit)

/-- A call between two of its steps. -/
inductive Task (β υ : Type*) where
  | creating
  | getting (sandboxId : String)
  | borrowed (i : ℕ) (handle : Sandbox υ) (op : HandleOp)
  /-- The requests that an execution will still send, and its result. -/
  | sending (source : TokenSource) (left : List (RustHttp.Request β))
      (result : Except RustHttp.Error Response) (replay : Option (RequestBuilder β))
  /-- A handshake awaits its answer. -/
  | connecting (source : TokenSource) (target : Except SandboxHandle.Error Unit)
  | minting (source : TokenSource) (replay : Replay β)
  | finished

/-- Handles by number; one that is borrowed or deleted is not there. -/
structure State (β υ : Type*) where
  cells : Cells CapabilityToken
  handles : List (Option (Sandbox υ))
  modules : List (Module υ)
  tasks : List (Task β υ)
  trace : List (Event β)

namespace State

def init : State β υ := ⟨.empty, [], [], [], []⟩

def record (s : State β υ) (events : List (Event β)) : State β υ :=
  { s with trace := s.trace ++ events }

def spawn (s : State β υ) (task : Task β υ) : State β υ := { s with tasks := s.tasks ++ [task] }

def settle (s : State β υ) (t : ℕ) (task : Task β υ) : State β υ :=
  { s with tasks := s.tasks.set t task }

/-- A handle comes back from its operation. -/
def giveBack (s : State β υ) (i : ℕ) (handle : Sandbox υ) : State β υ :=
  { s with handles := s.handles.set i (some handle) }

/-- `Sandbox::arm` on a borrowed handle. -/
def arm (s : State β υ) (i : ℕ) (handle : Sandbox υ) (token : CapabilityToken) : State β υ :=
  let w : World β υ := World.arm ⟨s.cells, handle, [], []⟩ token
  { s with cells := w.cells }.giveBack i w.sandbox

/-- The mint of `TokenSource::refresh`, with the ports of what is in the cell now. -/
def mint (s : State β υ) (t : ℕ) (source : TokenSource) (replay : Replay β) :
    Option (State β υ) :=
  (source.current s.cells).map fun current =>
    (s.record [.control (.sandbox (.mintToken source.sandboxId ⟨none, current.ports⟩))]).settle t
      (.minting source replay)

end State

/-! ## Steps -/

/-- What the control plane answers. -/
inductive Reply where
  | failed
  | info (info : Info)
  | token (token : CapabilityToken)
  | armed (info : Info) (token : CapabilityToken)

inductive Action (β : Type*) where
  | create
  | get (sandboxId : String)
  | begin (i : ℕ) (op : HandleOp)
  | delete (i : ℕ)
  | clone (i : ℕ)
  | commands (i : ℕ)
  | files (i : ℕ)
  /-- A module is cloned, into a process handle or an attachment. -/
  | share (k : ℕ)
  /-- `outcome` is how the sendings of the execution will end. -/
  | call (k : ℕ) (request : ModuleRequest β) (outcome : ℕ → Outcome)
  | connect (k : ℕ) (target : Except SandboxHandle.Error Unit)
  /-- A request goes out, or the result of the last one is looked at. -/
  | advance (t : ℕ)
  | answer (t : ℕ) (answer : Except SandboxHandle.Error Unit)
  | reply (t : ℕ) (reply : Reply) (outcome : ℕ → Outcome)
  /-- The caller drops the future. -/
  | abandon (t : ℕ)

section

variable (c : Reqwest β) (limits : Limits) (isHeaderValue : String → Bool)
  (parse : String → Except String υ) (agent : AgentTarget υ)

/-- An execution of a call: what it will send with this token attached, and how it ends. -/
def execution (source : TokenSource) (builder : RequestBuilder β) (token : CapabilityToken)
    (outcome : ℕ → Outcome) (replay : Option (RequestBuilder β)) : Task β υ :=
  match authorized isHeaderValue builder token.token with
  | .error _ => .finished
  | .ok authed =>
      let execution := RustHttp.execute c limits outcome authed
      .sending source execution.sent execution.result replay

namespace State

variable (s : State β υ)

/-- `streaming::connect` up to its answer: `target` is the URL to connect to, or why there is none,
and `task` what goes on when the handshake is out. -/
def handshake (t : ℕ) (source : TokenSource) (token : CapabilityToken) (task : Task β υ) :
    Except SandboxHandle.Error Unit → Option (State β υ)
  | .error _ => some (s.settle t .finished)
  | .ok () =>
      (Base64Url.Rust.protocols token.token.toList).map fun protocols =>
        (s.record [.handshake source protocols]).settle t task

/-- `Sandbox::commands` and `Sandbox::files` -/
def dataPlane (i : ℕ) (build : World β υ → World β υ × Except SandboxHandle.Error (Module υ)) :
    Option (State β υ) :=
  match s.handles[i]? with
  | some (some handle) =>
      some { s with modules := (build ⟨s.cells, handle, s.modules, []⟩).1.modules }
  | _ => none

def begin (i : ℕ) (op : HandleOp) : Option (State β υ) :=
  match s.handles[i]? with
  | some (some handle) =>
      let s := s.record [.control (.sandbox (op.request handle.info.sandboxId))]
      some ({ s with handles := s.handles.set i none }.spawn (.borrowed i handle op))
  | _ => none

/-- The handle is consumed; nothing is made of the answer. -/
def delete (i : ℕ) : Option (State β υ) :=
  match s.handles[i]? with
  | some (some handle) =>
      let s := s.record [.control (.delete handle.info.sandboxId)]
      some { s with handles := s.handles.set i none }
  | _ => none

def clone (i : ℕ) : Option (State β υ) :=
  match s.handles[i]? with
  | some (some handle) => some { s with handles := s.handles ++ [some handle] }
  | _ => none

/-- `DataPlane::execute` up to its first request. -/
def call (k : ℕ) (request : ModuleRequest β) (outcome : ℕ → Outcome) : Option (State β υ) :=
  match s.modules[k]? with
  | none => none
  | some m =>
      (m.credential.current s.cells).map fun current =>
        s.spawn (execution c limits isHeaderValue m.credential request.builder current outcome
          (tryClone c request.builder))

/-- A call goes on to its next request, to the re-mint, or back to its caller. -/
def advance (t : ℕ) : Option (State β υ) :=
  match s.tasks[t]? with
  | some (.sending source (request :: left) result replay) =>
      some ((s.record [.sent source request]).settle t (.sending source left result replay))
  | some (.sending source [] result replay) =>
      match result, replay with
      | .error rejected, some replay =>
          if isUnauthorized rejected then s.mint t source (.request replay)
          else some (s.settle t .finished)
      | _, _ => some (s.settle t .finished)
  | _ => none

/-- The outcome of a first handshake. -/
def answer (t : ℕ) (answer : Except SandboxHandle.Error Unit) : Option (State β υ) :=
  match s.tasks[t]? with
  | some (.connecting source target) =>
      match answer with
      | .error rejected =>
          if isUnauthorizedHandshake rejected then s.mint t source (.stream target)
          else some (s.settle t .finished)
      | .ok () => some (s.settle t .finished)
  | _ => none

/-- `DataPlane::connect` up to the answer to its first handshake. -/
def connect (k : ℕ) (target : Except SandboxHandle.Error Unit) : Option (State β υ) :=
  match s.modules[k]? with
  | none => none
  | some m =>
      (m.credential.current s.cells).bind fun current =>
        let task := .connecting m.credential target
        let s' := s.spawn task
        match target with
        | .error error => s'.answer s.tasks.length (.error error)
        | .ok () => s'.handshake s.tasks.length m.credential current task target

/-- The token of `TokenSource::refresh` is in. -/
def installed (source : TokenSource) (token : CapabilityToken) : State β υ :=
  { s with cells := source.replace s.cells token }.record [.returned source.sandboxId token]

/-- The call goes on with the token that was minted for it. -/
def replay (t : ℕ) (source : TokenSource) (token : CapabilityToken) (outcome : ℕ → Outcome) :
    Replay β → Option (State β υ)
  | .request builder =>
      some (s.settle t (execution c limits isHeaderValue source builder token outcome none))
  | .stream target => s.handshake t source token .finished target

def reply (t : ℕ) (reply : Reply) (outcome : ℕ → Outcome) : Option (State β υ) :=
  match s.tasks[t]?, reply with
  | some .creating, .armed info token =>
      let (source, cells) := TokenSource.new s.cells info.sandboxId token
      let s := s.record [.returned info.sandboxId token]
      let handle : Sandbox υ := ⟨agent, some source, info, some token⟩
      some ({ s with cells := cells, handles := s.handles ++ [some handle] }.settle t .finished)
  | some (.getting _), .info info =>
      let handle : Sandbox υ := ⟨agent, none, info, none⟩
      some ({ s with handles := s.handles ++ [some handle] }.settle t .finished)
  | some (.borrowed i handle (.resume _)), .armed info token =>
      let s := s.record [.returned handle.info.sandboxId token]
      some ((s.arm i { handle with info := info } token).settle t .finished)
  | some (.borrowed i handle (.mintToken _)), .token token =>
      let s := s.record [.returned handle.info.sandboxId token]
      some ((s.arm i handle token).settle t .finished)
  | some (.borrowed _ _ (.resume _)), .info _ => none
  | some (.borrowed _ _ (.mintToken _)), .info _ => none
  | some (.borrowed i handle _), .info info =>
      some ((s.giveBack i { handle with info := info }).settle t .finished)
  | some (.borrowed i handle _), .failed => some ((s.giveBack i handle).settle t .finished)
  | some (.minting source replay), .token token =>
      (s.installed source token).replay c limits isHeaderValue t source token outcome replay
  | some .creating, .failed => some (s.settle t .finished)
  | some (.getting _), .failed => some (s.settle t .finished)
  | some (.minting _ _), .failed => some (s.settle t .finished)
  -- a body of another shape does not decode, which is a failure
  | _, _ => none

def abandon (t : ℕ) : Option (State β υ) :=
  match s.tasks[t]? with
  | none => none
  | some .finished => none
  | some (.borrowed i handle _) => some ((s.giveBack i handle).settle t .finished)
  | some _ => some (s.settle t .finished)

end State

def step (s : State β υ) : Action β → Option (State β υ)
  | .create => some ((s.record [.control .create]).spawn .creating)
  | .get sandboxId =>
      some ((s.record [.control (.sandbox (.get sandboxId))]).spawn (.getting sandboxId))
  | .begin i op => s.begin i op
  | .delete i => s.delete i
  | .clone i => s.clone i
  | .commands i => s.dataPlane i (World.commands parse)
  | .files i => s.dataPlane i (World.files parse)
  | .share k => some { s with modules := s.modules ++ s.modules[k]?.toList }
  | .call k request outcome => s.call c limits isHeaderValue k request outcome
  | .connect k target => s.connect k target
  | .advance t => s.advance t
  | .answer t answer => s.answer t answer
  | .reply t reply outcome => s.reply c limits isHeaderValue agent t reply outcome
  | .abandon t => s.abandon t

end

/-! ## What the control plane is relied on for -/

/-- The sandbox that a task has asked about by name. -/
def Task.asked : Task β υ → Option String
  | .getting sandboxId => some sandboxId
  | .borrowed _ handle _ => some handle.info.sandboxId
  | _ => none

def Reply.described : Reply → Option Info
  | .info described => some described
  | .armed described _ => some described
  | _ => none

/-- A description of a sandbox is that of the sandbox asked about. -/
def Describes (s : State β υ) : Action β → Prop
  | .reply t reply _ =>
      match s.tasks[t]?.bind Task.asked, reply.described with
      | some sandboxId, some info => info.sandboxId = sandboxId
      | _, _ => True
  | _ => True

instance (s : State β υ) (a : Action β) : Decidable (Describes s a) := by
  unfold Describes
  split
  · split <;> infer_instance
  · infer_instance

theorem Describes.sandboxId_eq {s : State β υ} {t : ℕ} {reply : Reply} {outcome : ℕ → Outcome}
    (h : Describes s (.reply t reply outcome)) {task : Task β υ} {sandboxId : String} {info : Info}
    (htask : s.tasks[t]? = some task) (hasked : task.asked = some sandboxId)
    (hreply : reply.described = some info) : info.sandboxId = sandboxId := by
  unfold Describes at h
  dsimp only at h
  rw [htask, Option.bind_some, hasked, hreply] at h
  exact h

/-! ## What the trace has to show -/

/-- What a module sends carries one token, which was returned for the sandbox of its credential. -/
def Isolated (earlier : List (Event β)) : Event β → Prop
  | .control _ | .returned _ _ => True
  | .sent source request =>
      ∃ token, .returned source.sandboxId token ∈ earlier ∧ tokensOf request.headers = [token.token]
  | .handshake source protocols =>
      ∃ token, .returned source.sandboxId token ∈ earlier ∧
        Base64Url.Rust.protocols token.token.toList = some protocols

theorem Isolated.mono {trace trace' : List (Event β)} (hsub : trace ⊆ trace') {e : Event β}
    (h : Isolated trace e) : Isolated trace' e := by
  cases e with
  | control request => trivial
  | returned sandboxId token => trivial
  | sent source request =>
      obtain ⟨token, hreturned, htokens⟩ := h
      exact ⟨token, hsub hreturned, htokens⟩
  | handshake source protocols =>
      obtain ⟨token, hreturned, hprotocols⟩ := h
      exact ⟨token, hsub hreturned, hprotocols⟩

/-! ## The invariant -/

/-- The builder of a request that carries no token yet. -/
def Bare (builder : RequestBuilder β) : Prop :=
  ∀ request, builder = .ok request → tokensOf request.headers = []

/-- `owners` says of every cell which sandbox it was allocated for: the credential is for that. -/
def Owned (owners : List String) (source : TokenSource) : Prop :=
  owners[source.cell]? = some source.sandboxId

structure HandleOk (agent : AgentTarget υ) (owners : List String) (handle : Sandbox υ) :
    Prop where
  agent : handle.agent = agent
  /-- The two views of the token are there together. -/
  present : handle.credential.isSome = handle.token.isSome
  owned : ∀ source, handle.credential = some source →
    Owned owners source ∧ source.sandboxId = handle.info.sandboxId

/-- A module speaks to the agent of the sandbox that its credential is for. -/
structure ModuleOk (parse : String → Except String υ) (agent : AgentTarget υ)
    (owners : List String) (m : Module υ) : Prop where
  owned : Owned owners m.credential
  base : ∃ info : Info, info.sandboxId = m.credential.sandboxId ∧
    agentBaseUrl parse agent info = .ok m.base

def TaskOk (agent : AgentTarget υ) (owners : List String) (trace : List (Event β)) :
    Task β υ → Prop
  | .creating | .getting _ | .finished => True
  | .borrowed _ handle _ => HandleOk agent owners handle
  | .sending source left _ replay =>
      Owned owners source ∧
        (∃ token, .returned source.sandboxId token ∈ trace ∧
          ∀ request ∈ left, tokensOf request.headers = [token.token]) ∧
        ∀ builder, replay = some builder → Bare builder
  | .connecting source _ => Owned owners source
  | .minting source (.request builder) => Owned owners source ∧ Bare builder
  | .minting source (.stream _) => Owned owners source

structure Inv (parse : String → Except String υ) (agent : AgentTarget υ) (owners : List String)
    (s : State β υ) : Prop where
  length : owners.length = s.cells.contents.length
  /-- A cell holds a token that was returned for its owner. -/
  cells : ∀ (a : ℕ) (sandboxId : String), owners[a]? = some sandboxId →
    ∃ token, s.cells.read a = some token ∧ .returned sandboxId token ∈ s.trace
  handles : ∀ handle, some handle ∈ s.handles → HandleOk agent owners handle
  modules : ∀ m ∈ s.modules, ModuleOk parse agent owners m
  tasks : ∀ task ∈ s.tasks, TaskOk agent owners s.trace task
  trace : Each Isolated s.trace

/-! ### More cells, a longer trace -/

section

variable {parse : String → Except String υ} {agent : AgentTarget υ} {owners owners' : List String}
  {s s' : State β υ} {source : TokenSource} {token : CapabilityToken} {handle : Sandbox υ}

theorem Owned.mono (hsub : owners <+: owners') (h : Owned owners source) :
    Owned owners' source := by
  obtain ⟨later, rfl⟩ := hsub
  obtain ⟨hlt, -⟩ := List.getElem?_eq_some_iff.mp h
  show (owners ++ later)[source.cell]? = _
  rw [List.getElem?_append_left hlt]
  exact h

theorem HandleOk.mono (hsub : owners <+: owners') (h : HandleOk agent owners handle) :
    HandleOk agent owners' handle where
  agent := h.agent
  present := h.present
  owned := fun source hsource =>
    ⟨(h.owned source hsource).1.mono hsub, (h.owned source hsource).2⟩

theorem ModuleOk.mono (hsub : owners <+: owners') {m : Module υ}
    (h : ModuleOk parse agent owners m) : ModuleOk parse agent owners' m :=
  ⟨h.owned.mono hsub, h.base⟩

theorem TaskOk.mono {trace trace' : List (Event β)} (hsub : owners <+: owners')
    (htrace : trace ⊆ trace') {task : Task β υ} (h : TaskOk agent owners trace task) :
    TaskOk agent owners' trace' task := by
  cases task with
  | creating => trivial
  | getting sandboxId => trivial
  | finished => trivial
  | borrowed i handle op => exact HandleOk.mono hsub h
  | connecting source target => exact Owned.mono hsub h
  | sending source left result replay =>
      obtain ⟨howned, ⟨token, hreturned, htokens⟩, hreplay⟩ := h
      exact ⟨howned.mono hsub, ⟨token, htrace hreturned, htokens⟩, hreplay⟩
  | minting source replay =>
      cases replay with
      | stream target => exact Owned.mono hsub h
      | request builder => exact ⟨Owned.mono hsub h.1, h.2⟩

/-- Events that isolate, one after another. -/
theorem each_append {events trace : List (Event β)} (h : Each Isolated trace)
    (hnew : ∀ e ∈ events, Isolated trace e) : Each Isolated (trace ++ events) := by
  induction events generalizing trace with
  | nil =>
      rw [List.append_nil]
      exact h
  | cons e events ih =>
      rw [List.append_cons]
      refine ih (h.concat (hnew e List.mem_cons_self)) fun e' he' => ?_
      exact (hnew e' (List.mem_cons_of_mem _ he')).mono (List.subset_append_left ..)

namespace Inv

theorem record (h : Inv parse agent owners s) {events : List (Event β)}
    (hnew : ∀ e ∈ events, Isolated s.trace e) : Inv parse agent owners (s.record events) where
  length := h.length
  cells := by
    intro a sandboxId howner
    obtain ⟨token, hread, hreturned⟩ := h.cells a sandboxId howner
    exact ⟨token, hread, List.mem_append_left _ hreturned⟩
  handles := h.handles
  modules := h.modules
  tasks := fun task htask =>
    (h.tasks task htask).mono (List.prefix_refl _) (List.subset_append_left ..)
  trace := each_append h.trace hnew

theorem record_control (h : Inv parse agent owners s) (request : Request) :
    Inv parse agent owners (s.record [.control request]) := by
  apply h.record
  intro e he
  obtain rfl := List.mem_singleton.mp he
  trivial

theorem record_returned (h : Inv parse agent owners s) (sandboxId : String)
    (token : CapabilityToken) :
    Inv parse agent owners (s.record [.returned sandboxId token]) ∧
      .returned sandboxId token ∈ (s.record [.returned sandboxId token]).trace := by
  refine ⟨h.record fun e he => ?_, List.mem_append_right _ (List.mem_singleton_self _)⟩
  obtain rfl := List.mem_singleton.mp he
  trivial

theorem spawn (h : Inv parse agent owners s) {task : Task β υ}
    (htask : TaskOk agent owners s.trace task) : Inv parse agent owners (s.spawn task) :=
  { h with
    tasks := by
      intro task' htask'
      rcases List.mem_append.mp htask' with hold | hnew
      · exact h.tasks task' hold
      · obtain rfl := List.mem_singleton.mp hnew
        exact htask }

theorem settle (h : Inv parse agent owners s) (t : ℕ) {task : Task β υ}
    (htask : TaskOk agent owners s.trace task) : Inv parse agent owners (s.settle t task) :=
  { h with
    tasks := by
      intro task' htask'
      rcases List.mem_or_eq_of_mem_set htask' with hold | rfl
      · exact h.tasks task' hold
      · exact htask }

theorem setHandles (h : Inv parse agent owners s) {handles : List (Option (Sandbox υ))}
    (hhandles : ∀ handle, some handle ∈ handles → HandleOk agent owners handle) :
    Inv parse agent owners { s with handles := handles } :=
  { h with handles := hhandles }

theorem giveBack (h : Inv parse agent owners s) (i : ℕ) (hhandle : HandleOk agent owners handle) :
    Inv parse agent owners (s.giveBack i handle) := by
  refine h.setHandles fun handle' hmem => ?_
  rcases List.mem_or_eq_of_mem_set hmem with hold | hsame
  · exact h.handles handle' hold
  · obtain rfl := Option.some.inj hsame
    exact hhandle

/-- A token is written to the cell of a credential that it was returned for. -/
theorem replace (h : Inv parse agent owners s) (howned : Owned owners source)
    (hreturned : .returned source.sandboxId token ∈ s.trace) :
    Inv parse agent owners { s with cells := source.replace s.cells token } :=
  { h with
    length := h.length.trans (List.length_set ..).symm
    cells := by
      intro a sandboxId howner
      obtain ⟨old, hread, hold⟩ := h.cells a sandboxId howner
      by_cases ha : source.cell = a
      · subst ha
        obtain rfl := Option.some.inj (howned.symm.trans howner)
        exact ⟨token, Cells.read_write hread token, hreturned⟩
      · refine ⟨old, ?_, hold⟩
        show (s.cells.write source.cell token).read a = _
        rw [Cells.read_write_ne ha, hread] }

/-- A cell is allocated for a sandbox that the token was returned for. -/
theorem alloc (h : Inv parse agent owners s) {sandboxId : String}
    (hreturned : .returned sandboxId token ∈ s.trace) :
    Inv parse agent (owners ++ [sandboxId]) { s with cells := (s.cells.alloc token).2 } ∧
      Owned (owners ++ [sandboxId]) ⟨sandboxId, (s.cells.alloc token).1⟩ := by
  have hsub : owners <+: owners ++ [sandboxId] := List.prefix_append _ _
  have hnew : (owners ++ [sandboxId])[(s.cells.alloc token).1]? = some sandboxId := by
    show (owners ++ [sandboxId])[s.cells.contents.length]? = _
    rw [← h.length]
    exact List.getElem?_concat_length
  refine ⟨?_, hnew⟩
  exact
    { length := by
        show (owners ++ [sandboxId]).length = (s.cells.contents ++ [token]).length
        rw [List.length_append, List.length_append, h.length]
        rfl
      cells := by
        intro a owner howner
        by_cases ha : a < owners.length
        · rw [List.getElem?_append_left ha] at howner
          obtain ⟨old, hread, hold⟩ := h.cells a owner howner
          exact ⟨old, Cells.read_alloc_of_read hread token, hold⟩
        · have hlt := (List.getElem?_eq_some_iff.mp howner).1
          obtain rfl : a = (s.cells.alloc token).1 := by
            rw [List.length_append, List.length_singleton] at hlt
            show a = s.cells.contents.length
            rw [← h.length]
            omega
          obtain rfl := Option.some.inj (hnew.symm.trans howner)
          exact ⟨token, Cells.read_alloc s.cells token, hreturned⟩
      handles := fun handle hhandle => (h.handles handle hhandle).mono hsub
      modules := fun m hm => (h.modules m hm).mono hsub
      tasks := fun task htask => (h.tasks task htask).mono hsub (List.Subset.refl _)
      trace := h.trace }

/-- Every credential has a cell to read, and what is in it was returned for its sandbox. -/
theorem current (h : Inv parse agent owners s) (howned : Owned owners source) :
    ∃ token, source.current s.cells = some token ∧
      .returned source.sandboxId token ∈ s.trace :=
  h.cells source.cell source.sandboxId howned

end Inv

/-! ### Handles and calls -/

theorem HandleOk.setInfo (h : HandleOk agent owners handle) {info : Info}
    (hid : info.sandboxId = handle.info.sandboxId) :
    HandleOk agent owners { handle with info := info } where
  agent := h.agent
  present := h.present
  owned := fun source hsource =>
    ⟨(h.owned source hsource).1, (h.owned source hsource).2.trans hid.symm⟩

/-- Arming writes to the cell that is there, or allocates the first one. -/
theorem Inv.arm (h : Inv parse agent owners s) (i : ℕ) (hhandle : HandleOk agent owners handle)
    (hreturned : .returned handle.info.sandboxId token ∈ s.trace) :
    ∃ owners', Inv parse agent owners' (s.arm i handle token) := by
  unfold State.arm World.arm
  dsimp only
  split
  · next credential hcredential =>
      obtain ⟨howned, hid⟩ := hhandle.owned credential hcredential
      refine ⟨owners, (h.replace howned (hid ▸ hreturned)).giveBack i ?_⟩
      refine ⟨hhandle.agent, ?_, hhandle.owned⟩
      show handle.credential.isSome = true
      rw [hcredential]
      rfl
  · next hnone =>
      obtain ⟨hinv, howned⟩ := h.alloc hreturned
      refine ⟨_, hinv.giveBack i ⟨hhandle.agent, rfl, fun source hsource => ?_⟩⟩
      obtain rfl := Option.some.inj hsource
      exact ⟨howned, rfl⟩

variable {c : Reqwest β} {limits : Limits} {isHeaderValue : String → Bool}

/-- What an execution is about to send carries the token that it was given. -/
theorem taskOk_execution {trace : List (Event β)} {builder : RequestBuilder β}
    (howned : Owned owners source) (hreturned : .returned source.sandboxId token ∈ trace)
    (hbare : Bare builder) (outcome : ℕ → Outcome) {replay : Option (RequestBuilder β)}
    (hreplay : ∀ builder, replay = some builder → Bare builder) :
    TaskOk agent owners trace
      (execution c limits isHeaderValue source builder token outcome replay : Task β υ) := by
  unfold execution
  split
  · trivial
  · next authed hauthed =>
      exact ⟨howned, ⟨token, hreturned,
        SandboxHandle.tokensOf_sent hbare hauthed outcome⟩, hreplay⟩

theorem Inv.handshake (h : Inv parse agent owners s) {t : ℕ}
    (hreturned : .returned source.sandboxId token ∈ s.trace) {task : Task β υ}
    {target : Except SandboxHandle.Error Unit}
    (hs : s.handshake t source token task target = some s')
    (htask : TaskOk agent owners s.trace task) : Inv parse agent owners s' := by
  cases target with
  | error error =>
      obtain rfl := Option.some.inj hs
      exact h.settle t trivial
  | ok target =>
      obtain ⟨protocols, hprotocols, rfl⟩ := Option.map_eq_some_iff.mp hs
      have hrecord : Inv parse agent owners (s.record [.handshake source protocols]) := by
        apply h.record
        intro e he
        obtain rfl := List.mem_singleton.mp he
        exact ⟨token, hreturned, hprotocols⟩
      exact hrecord.settle t (htask.mono (List.prefix_refl _) (List.subset_append_left ..))

theorem Inv.mint (h : Inv parse agent owners s) {t : ℕ} {replay : Replay β}
    (hs : s.mint t source replay = some s')
    (htask : ∀ trace, TaskOk agent owners trace (.minting source replay : Task β υ)) :
    Inv parse agent owners s' := by
  obtain ⟨current, -, rfl⟩ := Option.map_eq_some_iff.mp hs
  exact (h.record_control _).settle t (htask _)

theorem inv_dataPlane (h : Inv parse agent owners s) {i : ℕ}
    (hs : s.dataPlane i (World.dataPlane parse) = some s') : Inv parse agent owners s' := by
  unfold State.dataPlane at hs
  split at hs
  · next handle hhandle =>
      obtain rfl := Option.some.inj hs
      have hok := h.handles handle (List.mem_of_getElem? hhandle)
      refine { h with modules := ?_ }
      unfold World.dataPlane
      dsimp only
      split
      · exact h.modules
      · next credential hcredential =>
          split
          · exact h.modules
          · next base hbase =>
              intro m hm
              rcases List.mem_append.mp hm with hold | hnew
              · exact h.modules m hold
              · obtain rfl := List.mem_singleton.mp hnew
                obtain ⟨howned, hid⟩ := hok.owned credential hcredential
                exact ⟨howned, handle.info, hid.symm, hok.agent ▸ hbase⟩
  · cases hs

theorem inv_begin (h : Inv parse agent owners s) {i : ℕ} {op : HandleOp}
    (hs : s.begin i op = some s') : Inv parse agent owners s' := by
  unfold State.begin at hs
  split at hs
  · next handle hhandle =>
      obtain rfl := Option.some.inj hs
      have hok := h.handles handle (List.mem_of_getElem? hhandle)
      have hrecord := h.record_control (.sandbox (op.request handle.info.sandboxId))
      refine (hrecord.setHandles fun handle' hmem => ?_).spawn hok
      rcases List.mem_or_eq_of_mem_set hmem with hold | hnone
      · exact h.handles handle' hold
      · cases hnone
  · cases hs

theorem inv_delete (h : Inv parse agent owners s) {i : ℕ} (hs : s.delete i = some s') :
    Inv parse agent owners s' := by
  unfold State.delete at hs
  split at hs
  · next handle hhandle =>
      obtain rfl := Option.some.inj hs
      refine (h.record_control (.delete handle.info.sandboxId)).setHandles fun handle' hmem => ?_
      rcases List.mem_or_eq_of_mem_set hmem with hold | hnone
      · exact h.handles handle' hold
      · cases hnone
  · cases hs

theorem inv_clone (h : Inv parse agent owners s) {i : ℕ} (hs : s.clone i = some s') :
    Inv parse agent owners s' := by
  unfold State.clone at hs
  split at hs
  · next handle hhandle =>
      obtain rfl := Option.some.inj hs
      refine h.setHandles fun handle' hmem => ?_
      rcases List.mem_append.mp hmem with hold | hnew
      · exact h.handles handle' hold
      · obtain rfl := Option.some.inj (List.mem_singleton.mp hnew)
        exact h.handles _ (List.mem_of_getElem? hhandle)
  · cases hs

theorem inv_call (h : Inv parse agent owners s) {k : ℕ} {request : ModuleRequest β}
    {outcome : ℕ → Outcome} (hs : s.call c limits isHeaderValue k request outcome = some s') :
    Inv parse agent owners s' := by
  unfold State.call at hs
  split at hs
  · cases hs
  · next m hm =>
      obtain ⟨token, hcurrent, rfl⟩ := Option.map_eq_some_iff.mp hs
      have hok := h.modules m (List.mem_of_getElem? hm)
      obtain ⟨held, hheld, hreturned⟩ := h.current hok.owned
      obtain rfl := Option.some.inj (hcurrent.symm.trans hheld)
      refine h.spawn (taskOk_execution hok.owned hreturned request.bare outcome ?_)
      intro builder hbuilder
      obtain ⟨r, hr, rfl⟩ := DataPlane.Rust.tryClone_eq_some hbuilder
      exact fun request' hrequest' => request.bare request' (hr.trans hrequest')

theorem inv_advance (h : Inv parse agent owners s) {t : ℕ} (hs : s.advance t = some s') :
    Inv parse agent owners s' := by
  unfold State.advance at hs
  split at hs
  · next source request left result replay htask =>
      obtain rfl := Option.some.inj hs
      obtain ⟨howned, ⟨token, hreturned, htokens⟩, hreplay⟩ :=
        h.tasks _ (List.mem_of_getElem? htask)
      have hrecord : Inv parse agent owners (s.record [.sent source request]) := by
        apply h.record
        intro e he
        obtain rfl := List.mem_singleton.mp he
        exact ⟨token, hreturned, htokens request List.mem_cons_self⟩
      refine hrecord.settle t ⟨howned, ⟨token, List.mem_append_left _ hreturned, ?_⟩, hreplay⟩
      exact fun request' hmem => htokens request' (List.mem_cons_of_mem _ hmem)
  · next source result replay htask =>
      obtain ⟨howned, -, hreplay⟩ := h.tasks _ (List.mem_of_getElem? htask)
      split at hs
      · split at hs
        · exact h.mint hs fun _ => ⟨howned, hreplay _ rfl⟩
        · obtain rfl := Option.some.inj hs
          exact h.settle t trivial
      · obtain rfl := Option.some.inj hs
        exact h.settle t trivial
  · cases hs

theorem inv_answer (h : Inv parse agent owners s) {t : ℕ}
    {answer : Except SandboxHandle.Error Unit} (hs : s.answer t answer = some s') :
    Inv parse agent owners s' := by
  unfold State.answer at hs
  split at hs
  · next source target htask =>
      have howned : Owned owners source := h.tasks _ (List.mem_of_getElem? htask)
      split at hs
      · split at hs
        · exact h.mint hs fun _ => howned
        · obtain rfl := Option.some.inj hs
          exact h.settle t trivial
      · obtain rfl := Option.some.inj hs
        exact h.settle t trivial
  · cases hs

theorem inv_connect (h : Inv parse agent owners s) {k : ℕ}
    {target : Except SandboxHandle.Error Unit} (hs : s.connect k target = some s') :
    Inv parse agent owners s' := by
  unfold State.connect at hs
  split at hs
  · cases hs
  · next m hm =>
      obtain ⟨token, hcurrent, hs⟩ := Option.bind_eq_some_iff.mp hs
      have howned := (h.modules m (List.mem_of_getElem? hm)).owned
      obtain ⟨held, hheld, hreturned⟩ := h.current howned
      obtain rfl := Option.some.inj (hcurrent.symm.trans hheld)
      have hspawned : Inv parse agent owners (s.spawn (.connecting m.credential target)) :=
        h.spawn howned
      cases target with
      | error error => exact inv_answer hspawned hs
      | ok target => exact hspawned.handshake hreturned hs howned

theorem inv_replay (h : Inv parse agent owners s) {t : ℕ} {outcome : ℕ → Outcome}
    {replay : Replay β} (htask : TaskOk agent owners s.trace (.minting source replay : Task β υ))
    (hs : (s.installed source token).replay c limits isHeaderValue t source token outcome replay =
      some s') : Inv parse agent owners s' := by
  have howned : Owned owners source := by
    cases replay with
    | request builder => exact htask.1
    | stream target => exact htask
  obtain ⟨hrecord, hreturned⟩ := h.record_returned source.sandboxId token
  have hinstalled : Inv parse agent owners (s.installed source token) :=
    hrecord.replace howned hreturned
  cases replay with
  | request builder =>
      obtain rfl := Option.some.inj hs
      exact hinstalled.settle t (taskOk_execution howned hreturned htask.2 outcome nofun)
  | stream target => exact hinstalled.handshake hreturned hs trivial

theorem inv_reply (h : Inv parse agent owners s) {t : ℕ} {reply : Reply} {outcome : ℕ → Outcome}
    (hdescribes : Describes s (.reply t reply outcome : Action β))
    (hs : s.reply c limits isHeaderValue agent t reply outcome = some s') :
    ∃ owners', Inv parse agent owners' s' := by
  unfold State.reply at hs
  split at hs
  · next info token htask =>
      obtain rfl := Option.some.inj hs
      obtain ⟨hrecord, hreturned⟩ := h.record_returned info.sandboxId token
      obtain ⟨hinv, howned⟩ := hrecord.alloc hreturned
      refine ⟨_, (hinv.setHandles fun handle hmem => ?_).settle t trivial⟩
      rcases List.mem_append.mp hmem with hold | hnew
      · exact hinv.handles handle hold
      · obtain rfl := Option.some.inj (List.mem_singleton.mp hnew)
        refine ⟨rfl, rfl, fun source hsource => ?_⟩
        obtain rfl := Option.some.inj hsource
        exact ⟨howned, rfl⟩
  · next sandboxId info htask =>
      obtain rfl := Option.some.inj hs
      refine ⟨_, (h.setHandles fun handle hmem => ?_).settle t trivial⟩
      rcases List.mem_append.mp hmem with hold | hnew
      · exact h.handles handle hold
      · obtain rfl := Option.some.inj (List.mem_singleton.mp hnew)
        exact ⟨rfl, rfl, nofun⟩
  · next i handle deadlineSeconds info token htask =>
      obtain rfl := Option.some.inj hs
      have hok : HandleOk agent owners handle := h.tasks _ (List.mem_of_getElem? htask)
      have hid : info.sandboxId = handle.info.sandboxId := hdescribes.sandboxId_eq htask rfl rfl
      obtain ⟨hrecord, hreturned⟩ := h.record_returned handle.info.sandboxId token
      have hreturned' : .returned info.sandboxId token ∈
          (s.record [.returned handle.info.sandboxId token]).trace := by
        rw [hid]
        exact hreturned
      obtain ⟨owners', harm⟩ := hrecord.arm i (hok.setInfo hid) hreturned'
      exact ⟨owners', harm.settle t trivial⟩
  · next i handle request token htask =>
      obtain rfl := Option.some.inj hs
      have hok : HandleOk agent owners handle := h.tasks _ (List.mem_of_getElem? htask)
      obtain ⟨hrecord, hreturned⟩ := h.record_returned handle.info.sandboxId token
      obtain ⟨owners', harm⟩ := hrecord.arm i hok hreturned
      exact ⟨owners', harm.settle t trivial⟩
  · cases hs
  · cases hs
  · next i handle op info hresume hmint htask =>
      obtain rfl := Option.some.inj hs
      have hok : HandleOk agent owners handle := h.tasks _ (List.mem_of_getElem? htask)
      have hid : info.sandboxId = handle.info.sandboxId := hdescribes.sandboxId_eq htask rfl rfl
      exact ⟨owners, (h.giveBack i (hok.setInfo hid)).settle t trivial⟩
  · next i handle op htask =>
      obtain rfl := Option.some.inj hs
      have hok : HandleOk agent owners handle := h.tasks _ (List.mem_of_getElem? htask)
      exact ⟨owners, (h.giveBack i hok).settle t trivial⟩
  · next source replay token htask =>
      exact ⟨owners, inv_replay h (h.tasks _ (List.mem_of_getElem? htask)) hs⟩
  · obtain rfl := Option.some.inj hs
    exact ⟨owners, h.settle t trivial⟩
  · obtain rfl := Option.some.inj hs
    exact ⟨owners, h.settle t trivial⟩
  · obtain rfl := Option.some.inj hs
    exact ⟨owners, h.settle t trivial⟩
  · cases hs

theorem inv_abandon (h : Inv parse agent owners s) {t : ℕ} (hs : s.abandon t = some s') :
    Inv parse agent owners s' := by
  unfold State.abandon at hs
  split at hs
  · cases hs
  · cases hs
  · next i handle op htask =>
      obtain rfl := Option.some.inj hs
      exact (h.giveBack i (h.tasks _ (List.mem_of_getElem? htask))).settle t trivial
  · obtain rfl := Option.some.inj hs
    exact h.settle t trivial

/-! ## Runs -/

theorem inv_init : Inv parse agent [] (State.init : State β υ) where
  length := rfl
  cells := nofun
  handles := nofun
  modules := nofun
  tasks := nofun
  trace := each_nil

theorem inv_step {a : Action β} (h : Inv parse agent owners s)
    (hs : step c limits isHeaderValue parse agent s a = some s') (hdescribes : Describes s a) :
    ∃ owners', Inv parse agent owners' s' := by
  cases a with
  | create =>
      obtain rfl := Option.some.inj hs
      exact ⟨owners, (h.record_control _).spawn trivial⟩
  | get sandboxId =>
      obtain rfl := Option.some.inj hs
      exact ⟨owners, (h.record_control _).spawn trivial⟩
  | begin i op => exact ⟨owners, inv_begin h hs⟩
  | delete i => exact ⟨owners, inv_delete h hs⟩
  | clone i => exact ⟨owners, inv_clone h hs⟩
  | commands i => exact ⟨owners, inv_dataPlane h hs⟩
  | files i => exact ⟨owners, inv_dataPlane h hs⟩
  | share k =>
      obtain rfl := Option.some.inj hs
      refine ⟨owners, { h with modules := fun m hm => ?_ }⟩
      rcases List.mem_append.mp hm with hold | hnew
      · exact h.modules m hold
      · exact h.modules m (List.mem_of_getElem? (Option.mem_toList.mp hnew))
  | call k request outcome => exact ⟨owners, inv_call h hs⟩
  | connect k target => exact ⟨owners, inv_connect h hs⟩
  | advance t => exact ⟨owners, inv_advance h hs⟩
  | answer t answer => exact ⟨owners, inv_answer h hs⟩
  | reply t reply outcome => exact inv_reply h hdescribes hs
  | abandon t => exact ⟨owners, inv_abandon h hs⟩

/-- The handle is there, or borrowed by an operation. -/
def State.Has (s : State β υ) (handle : Sandbox υ) : Prop :=
  some handle ∈ s.handles ∨ ∃ i op, .borrowed i handle op ∈ s.tasks

/-- A credential reads a token that was returned for its sandbox. -/
def State.Reads (s : State β υ) (source : TokenSource) : Prop :=
  ∃ token, source.current s.cells = some token ∧ .returned source.sandboxId token ∈ s.trace

variable (parse agent) in
/-- The credentials of different sandboxes are kept apart. -/
structure Apart (s : State β υ) : Prop where
  trace : Each Isolated s.trace
  modules : ∀ m ∈ s.modules, s.Reads m.credential ∧
    ∃ info : Info, info.sandboxId = m.credential.sandboxId ∧
      agentBaseUrl parse agent info = .ok m.base
  present : ∀ handle, s.Has handle → handle.credential.isSome = handle.token.isSome
  handles : ∀ handle source, s.Has handle → handle.credential = some source →
    s.Reads source ∧ source.sandboxId = handle.info.sandboxId

theorem Inv.apart (h : Inv parse agent owners s) : Apart parse agent s := by
  have hok : ∀ handle, s.Has handle → HandleOk agent owners handle := by
    rintro handle (hmem | ⟨i, op, htask⟩)
    · exact h.handles handle hmem
    · exact h.tasks _ htask
  refine ⟨h.trace, fun m hm => ?_, fun handle hhas => (hok handle hhas).present,
    fun handle source hhas hsource => ?_⟩
  · exact ⟨h.current (h.modules m hm).owned, (h.modules m hm).base⟩
  · obtain ⟨howned, hid⟩ := (hok handle hhas).owned source hsource
    exact ⟨h.current howned, hid⟩

/-- **No credential crosses to another sandbox.** However the calls of a client overlap, on however
many handles, clones and modules: what a module sends carries one token, which the control plane had
returned for the sandbox of the module, and it goes to the agent of that sandbox. -/
theorem credentials_apart {as : List (Action β)}
    (hrun : run (step c limits isHeaderValue parse agent) State.init as = some s)
    (hdescribes : EveryStep (step c limits isHeaderValue parse agent)
      (fun s a _ => Describes s a) State.init as) : Apart parse agent s := by
  have hstep : ∀ {s : State β υ} {a s'}, (∃ owners, Inv parse agent owners s) →
      step c limits isHeaderValue parse agent s a = some s' → Describes s a →
        ∃ owners, Inv parse agent owners s' := by
    rintro s a s' ⟨owners, h⟩ hs hdescribed
    exact inv_step h hs hdescribed
  obtain ⟨owners, h⟩ := EveryStep.run_inv hstep ⟨[], inv_init⟩ hdescribes hrun
  exact h.apart

end

/-! ### Two sandboxes -/

/-- A client that clones every request and knows no error document. -/
def plainReqwest : Reqwest Unit where
  tryClone := some
  clone_eq := fun h => (Option.some.inj h).symm
  apiError := fun _ => none
  fromUtf8Lossy := fun _ => ""
  canonicalReason := fun _ => none

/-- A stream to each of two sandboxes; the token of the first is rejected and minted again while the
handshake of the second is under way. -/
def twoStreams : List (Action Unit) :=
  [.create, .reply 0 (.armed ⟨"a", "x"⟩ ⟨"t", 1, none⟩) fun _ => .failed ⟨true, false⟩,
    .create, .reply 1 (.armed ⟨"b", "x"⟩ ⟨"u", 1, none⟩) fun _ => .failed ⟨true, false⟩,
    .commands 0, .files 1, .connect 0 (.ok ()), .answer 2 (.error (.webSocketHttp 401)),
    .connect 1 (.ok ()), .reply 2 (.token ⟨"v", 2, none⟩) fun _ => .failed ⟨true, false⟩]

theorem credentials_apart_twoStreams :
    ∃ s : State Unit String,
      run (step plainReqwest ⟨2⟩ (fun _ => true) .ok ⟨50000, none⟩) State.init twoStreams
          = some s ∧
        s.trace.length = 9 ∧ Each Isolated s.trace := by
  have hdescribes : EveryStep
      (step plainReqwest ⟨2⟩ (fun _ => true) (Except.ok : String → Except String String)
        ⟨50000, none⟩) (fun s a _ => Describes s a) State.init twoStreams := by
    decide +kernel
  have hlength : (run (step plainReqwest ⟨2⟩ (fun _ => true)
      (Except.ok : String → Except String String) ⟨50000, none⟩) State.init twoStreams).map
        (·.trace.length) = some 9 := by
    decide +kernel
  obtain ⟨s, hrun, hs⟩ := Option.map_eq_some_iff.mp hlength
  exact ⟨s, hrun, hs, (credentials_apart hrun hdescribes).trace⟩

/-! ## One handle, one call at a time -/

/-- What an event is to the model of a single handle. -/
def Event.single : Event β → Option (SandboxHandle.Event β)
  | .control (.sandbox request) => some (.control request)
  | .control _ => none
  | .returned _ token => some (.installed token)
  | .sent _ request => some (.sent request)
  | .handshake _ protocols => some (.handshake protocols)

/-- The client whose one handle, with its modules and cells, is that of `w`. -/
structure Single (earlier : List (SandboxHandle.Event β)) (w : World β υ) (s : State β υ) :
    Prop where
  cells : s.cells = w.cells
  handles : s.handles = [some w.sandbox]
  modules : s.modules = w.modules
  trace : s.trace.filterMap Event.single = earlier ++ w.trace

section

variable {c : Reqwest β} {limits : Limits} {isHeaderValue : String → Bool}
  {parse : String → Except String υ} {agent : AgentTarget υ}
  {earlier : List (SandboxHandle.Event β)} {w w' : World β υ} {s s' : State β υ}

namespace Single

theorem record (h : Single earlier w s) (e : Event β) {e' : SandboxHandle.Event β}
    (he : e.single = some e') : Single earlier (w.record [e']) (s.record [e]) where
  cells := h.cells
  handles := h.handles
  modules := h.modules
  trace := by
    show (s.trace ++ [e]).filterMap Event.single = earlier ++ (w.trace ++ [e'])
    rw [List.filterMap_append, h.trace, List.filterMap_cons_some he, List.append_assoc]
    rfl

theorem spawn (h : Single earlier w s) (task : Task β υ) : Single earlier w (s.spawn task) :=
  ⟨h.cells, h.handles, h.modules, h.trace⟩

theorem settle (h : Single earlier w s) (t : ℕ) (task : Task β υ) :
    Single earlier w (s.settle t task) :=
  ⟨h.cells, h.handles, h.modules, h.trace⟩

end Single

theorem getElem?_spawn (s : State β υ) (task : Task β υ) :
    (s.spawn task).tasks[s.tasks.length]? = some task :=
  List.getElem?_concat_length

theorem getElem?_settle {t : ℕ} {old : Task β υ} (h : s.tasks[t]? = some old) (task : Task β υ) :
    (s.settle t task).tasks[t]? = some task := by
  obtain ⟨hlt, -⟩ := List.getElem?_eq_some_iff.mp h
  exact List.getElem?_set_self hlt

/-- The requests of an execution go out one by one. -/
theorem run_sending {source : TokenSource} {result : Except RustHttp.Error Response}
    {replay : Option (RequestBuilder β)} {t : ℕ} :
    ∀ {left : List (RustHttp.Request β)} {w : World β υ} {s : State β υ}, Single earlier w s →
      s.tasks[t]? = some (.sending source left result replay) →
      ∃ as s', run (step c limits isHeaderValue parse agent) s as = some s' ∧
        Single earlier (w.record (left.map .sent)) s' ∧
        s'.tasks[t]? = some (.sending source [] result replay)
  | [], w, s, h, htask => by
      refine ⟨[], s, rfl, ?_, htask⟩
      exact ⟨h.cells, h.handles, h.modules, by rw [h.trace]; simp [World.record]⟩
  | request :: left, w, s, h, htask => by
      have hadvance : step c limits isHeaderValue parse agent s (.advance t) =
          some ((s.record [.sent source request]).settle t
            (.sending source left result replay)) := by
        simp only [step, State.advance, htask]
      have hrecord : Single earlier (w.record [.sent request])
          ((s.record [.sent source request]).settle t (.sending source left result replay)) :=
        (h.record (.sent source request) rfl).settle t _
      obtain ⟨as, s', hrun, hs', htask'⟩ := run_sending hrecord (getElem?_settle htask _)
      refine ⟨.advance t :: as, s', run_cons_eq_some.mpr ⟨_, hadvance, hrun⟩, ?_, htask'⟩
      have hsame : (w.record [.sent request]).record (left.map .sent) =
          w.record ((request :: left).map .sent) := by
        show World.mk _ _ _ _ = World.mk _ _ _ _
        simp [World.record]
      rw [← hsame]
      exact hs'

theorem Single.current (h : Single earlier w s) (source : TokenSource) :
    source.current s.cells = source.current w.cells := by
  rw [h.cells]

/-- The request of a re-mint goes out. -/
theorem Single.mint (h : Single earlier w s) {source : TokenSource} {current : CapabilityToken}
    (hcurrent : source.current w.cells = some current) (t : ℕ) (replay : Replay β) {task : Task β υ}
    (htask : s.tasks[t]? = some task) :
    ∃ s', s.mint t source replay = some s' ∧
      Single earlier (w.record [.control (.mintToken source.sandboxId ⟨none, current.ports⟩)]) s' ∧
      s'.tasks[t]? = some (.minting source replay) := by
  refine ⟨_, by rw [State.mint, h.current, hcurrent]; rfl, ?_, ?_⟩
  · exact (h.record (.control (.sandbox (.mintToken source.sandboxId ⟨none, current.ports⟩)))
      rfl).settle t _
  · exact getElem?_settle
      (s := s.record [.control (.sandbox (.mintToken source.sandboxId ⟨none, current.ports⟩))])
      htask _

/-- Its token is in. -/
theorem Single.installed (h : Single earlier w s) (source : TokenSource) (token : CapabilityToken) :
    Single earlier { w.record [.installed token] with cells := source.replace w.cells token }
      (s.installed source token) where
  cells := by
    show source.replace s.cells token = source.replace w.cells token
    rw [h.cells]
  handles := h.handles
  modules := h.modules
  trace := (h.record (.returned source.sandboxId token) rfl).trace

/-- The client can go on to where its one handle is that of `w`. -/
def Reaches (c : Reqwest β) (limits : Limits) (isHeaderValue : String → Bool)
    (parse : String → Except String υ) (agent : AgentTarget υ)
    (earlier : List (SandboxHandle.Event β)) (s : State β υ) (w : World β υ) : Prop :=
  ∃ as s', run (step c limits isHeaderValue parse agent) s as = some s' ∧ Single earlier w s'

theorem Reaches.of_single (h : Single earlier w s) :
    Reaches c limits isHeaderValue parse agent earlier s w := ⟨[], s, rfl, h⟩

theorem Reaches.cons {a : Action β} (hs : step c limits isHeaderValue parse agent s a = some s')
    (h : Reaches c limits isHeaderValue parse agent earlier s' w) :
    Reaches c limits isHeaderValue parse agent earlier s w := by
  obtain ⟨as, s'', hrun, hs''⟩ := h
  exact ⟨a :: as, s'', run_cons_eq_some.mpr ⟨s', hs, hrun⟩, hs''⟩

theorem Reaches.append {as : List (Action β)}
    (hrun : run (step c limits isHeaderValue parse agent) s as = some s')
    (h : Reaches c limits isHeaderValue parse agent earlier s' w) :
    Reaches c limits isHeaderValue parse agent earlier s w := by
  obtain ⟨bs, s'', hrun', hs''⟩ := h
  exact ⟨as ++ bs, s'', run_append hrun hrun', hs''⟩

/-- A replay that is refused the token, or goes out to the end. -/
theorem reaches_replay {source : TokenSource} {builder : RequestBuilder β} {t : ℕ}
    {token : CapabilityToken} {second : ℕ → Outcome} {result : Except SandboxHandle.Error Response}
    (h : Single earlier w s) (htask : s.tasks[t]? = some (.minting source (.request builder)))
    (hw : (match authorized isHeaderValue builder token.token with
      | .error message => (w, .error (.config message))
      | .ok replay =>
          let execution := RustHttp.execute c limits second replay
          (w.record (execution.sent.map .sent), execution.result.mapError .transport)) =
        (w', result)) :
    Reaches c limits isHeaderValue parse agent earlier
      (s.settle t (execution c limits isHeaderValue source builder token second none)) w' := by
  unfold execution
  cases hauthed : authorized isHeaderValue builder token.token with
  | error message =>
      rw [hauthed] at hw
      obtain ⟨rfl, -⟩ := Prod.mk.inj hw
      exact .of_single (h.settle t _)
  | ok authed =>
      rw [hauthed] at hw
      obtain ⟨rfl, -⟩ := Prod.mk.inj hw
      obtain ⟨as, s', hrun, hs', -⟩ := run_sending (h.settle t _) (getElem?_settle htask _)
      exact .append hrun (.of_single hs')

theorem reaches_call (h : Single earlier w s) {k : ℕ} {m : Module υ} (hm : s.modules[k]? = some m)
    {request : ModuleRequest β} {first second : ℕ → Outcome}
    {reply : Except RustHttp.Error CapabilityToken} {result : Except SandboxHandle.Error Response}
    (hw : w.execute c limits isHeaderValue m.credential request first reply second =
      some (w', result)) : Reaches c limits isHeaderValue parse agent earlier s w' := by
  unfold World.execute at hw
  obtain ⟨current, hcurrent, hw⟩ := Option.bind_eq_some_iff.mp hw
  have hcall : step c limits isHeaderValue parse agent s (.call k request first) =
      some (s.spawn (execution c limits isHeaderValue m.credential request.builder current first
        (tryClone c request.builder))) := by
    simp only [step, State.call, hm, h.current, hcurrent, Option.map_some]
  refine .cons hcall ?_
  unfold execution
  cases hauthed : authorized isHeaderValue request.builder current.token with
  | error message =>
      rw [hauthed] at hw
      obtain ⟨rfl, -⟩ := Prod.mk.inj (Option.some.inj hw)
      exact .of_single (h.spawn _)
  | ok authed =>
      rw [hauthed] at hw
      dsimp only at hw ⊢
      obtain ⟨as, s₁, hrun, hs₁, htask⟩ := run_sending (h.spawn _) (getElem?_spawn s _)
      refine .append hrun ?_
      split at hw
      · next rejected replay hresult hreplay =>
          split at hw
          · next hunauthorized =>
              -- the token is rejected: the call goes on to a re-mint
              obtain ⟨⟨w₂, minted⟩, hrefresh, hw⟩ := Option.map_eq_some_iff.mp hw
              obtain ⟨held, hheld, hrefresh⟩ := Option.map_eq_some_iff.mp hrefresh
              obtain ⟨s₂, hmint, hs₂, htask₂⟩ :=
                hs₁.mint hheld s.tasks.length (.request replay) htask
              have hadvance : step c limits isHeaderValue parse agent s₁
                  (.advance s.tasks.length) = some s₂ := by
                simp only [step, State.advance, htask, hresult, hreplay, hunauthorized, if_true,
                  hmint]
              refine .cons hadvance ?_
              cases reply with
              | error error =>
                  obtain ⟨rfl, rfl⟩ := Prod.mk.inj hrefresh
                  obtain ⟨rfl, -⟩ := Prod.mk.inj hw
                  have hfailed : step c limits isHeaderValue parse agent s₂
                      (.reply s.tasks.length .failed second) =
                        some (s₂.settle s.tasks.length .finished) := by
                    simp only [step, State.reply, htask₂]
                  exact .cons hfailed (.of_single (hs₂.settle _ _))
              | ok token =>
                  obtain ⟨rfl, rfl⟩ := Prod.mk.inj hrefresh
                  have hreplied : step c limits isHeaderValue parse agent s₂
                      (.reply s.tasks.length (.token token) second) =
                        some ((s₂.installed m.credential token).settle s.tasks.length
                          (execution c limits isHeaderValue m.credential replay token second
                            none)) := by
                    simp only [step, State.reply, htask₂, State.replay]
                  refine .cons hreplied ?_
                  exact reaches_replay (hs₂.installed m.credential token) htask₂ hw
          · next hother =>
              obtain ⟨rfl, -⟩ := Prod.mk.inj (Option.some.inj hw)
              exact .of_single hs₁
      · obtain ⟨rfl, -⟩ := Prod.mk.inj (Option.some.inj hw)
        exact .of_single hs₁

/-- A handshake goes out alike, or there is no URL for it on either side. -/
theorem Single.handshake (h : Single earlier w s) (source : TokenSource) {token : CapabilityToken}
    {t : ℕ} {old : Task β υ} (htask : s.tasks[t]? = some old) (task : Task β υ)
    {target answer outcome : Except SandboxHandle.Error Unit}
    (hw : w.handshake target token.token answer = some (w', outcome)) :
    ∃ s', s.handshake t source token task target = some s' ∧ Single earlier w' s' ∧
      (target = .ok () → outcome = answer ∧ s'.tasks[t]? = some task) := by
  cases target with
  | error error =>
      obtain ⟨rfl, -⟩ := Prod.mk.inj (Option.some.inj hw)
      exact ⟨_, rfl, h.settle t .finished, nofun⟩
  | ok target =>
      obtain ⟨protocols, hprotocols, hw⟩ := Option.map_eq_some_iff.mp hw
      obtain ⟨rfl, houtcome⟩ := Prod.mk.inj hw
      refine ⟨_, by rw [State.handshake, hprotocols]; rfl, ?_, fun _ => ⟨houtcome.symm, ?_⟩⟩
      · exact (h.record (.handshake source protocols) rfl).settle t task
      · exact getElem?_settle (s := s.record [.handshake source protocols]) htask task

/-- What `DataPlane::connect` makes of the outcome of its first handshake. -/
def answered (w : World β υ) (source : TokenSource) (target : Except SandboxHandle.Error Unit)
    (reply : Except RustHttp.Error CapabilityToken) (second : Except SandboxHandle.Error Unit) :
    Except SandboxHandle.Error Unit → Option (World β υ × Except SandboxHandle.Error Unit)
  | .error rejected =>
      if isUnauthorizedHandshake rejected then
        (source.refresh w reply).bind fun (w, minted) =>
          match minted with
          | .error error => some (w, .error (.transport error))
          | .ok token => w.handshake target token.token second
      else some (w, .error rejected)
  | .ok () => some (w, .ok ())

theorem connect_eq (w : World β υ) (source : TokenSource)
    (target first : Except SandboxHandle.Error Unit)
    (reply : Except RustHttp.Error CapabilityToken) (second : Except SandboxHandle.Error Unit) :
    w.connect source target first reply second =
      (source.current w.cells).bind fun current =>
        (w.handshake target current.token first).bind fun (w, outcome) =>
          answered w source target reply second outcome := by
  unfold World.connect
  congr 1
  funext current
  congr 1
  funext ⟨w, outcome⟩
  cases outcome with
  | ok socket => rfl
  | error rejected => rfl

theorem reaches_answered {source : TokenSource} {t : ℕ}
    {target outcome second result : Except SandboxHandle.Error Unit}
    {reply : Except RustHttp.Error CapabilityToken} (h : Single earlier w s)
    (htask : s.tasks[t]? = some (.connecting source target))
    (hw : answered w source target reply second outcome = some (w', result)) :
    ∃ s₁, s.answer t outcome = some s₁ ∧
      Reaches c limits isHeaderValue parse agent earlier s₁ w' := by
  unfold State.answer
  rw [htask]
  unfold answered at hw
  cases outcome with
  | ok socket =>
      obtain ⟨rfl, -⟩ := Prod.mk.inj (Option.some.inj hw)
      exact ⟨_, rfl, .of_single (h.settle t .finished)⟩
  | error rejected =>
      dsimp only at hw ⊢
      split_ifs at hw ⊢ with hunauthorized
      · obtain ⟨⟨w₂, minted⟩, hrefresh, hw⟩ := Option.bind_eq_some_iff.mp hw
        obtain ⟨held, hheld, hrefresh⟩ := Option.map_eq_some_iff.mp hrefresh
        obtain ⟨s₂, hmint, hs₂, htask₂⟩ := h.mint hheld t (.stream target) htask
        refine ⟨s₂, hmint, ?_⟩
        cases reply with
        | error error =>
            obtain ⟨rfl, rfl⟩ := Prod.mk.inj hrefresh
            obtain ⟨rfl, -⟩ := Prod.mk.inj (Option.some.inj hw)
            have hfailed : step c limits isHeaderValue parse agent s₂
                (.reply t .failed fun _ => .failed ⟨false, false⟩) =
                  some (s₂.settle t .finished) := by
              simp only [step, State.reply, htask₂]
            exact .cons hfailed (.of_single (hs₂.settle t .finished))
        | ok token =>
            obtain ⟨rfl, rfl⟩ := Prod.mk.inj hrefresh
            obtain ⟨s₃, hhandshake, hs₃, -⟩ :=
              (hs₂.installed source token).handshake source htask₂ .finished hw
            have hreplied : step c limits isHeaderValue parse agent s₂
                (.reply t (.token token) fun _ => .failed ⟨false, false⟩) = some s₃ := by
              simp only [step, State.reply, htask₂, State.replay, hhandshake]
            exact .cons hreplied (.of_single hs₃)
      · obtain ⟨rfl, -⟩ := Prod.mk.inj (Option.some.inj hw)
        exact ⟨_, rfl, .of_single (h.settle t .finished)⟩

theorem reaches_connect (h : Single earlier w s) {k : ℕ} {m : Module υ}
    (hm : s.modules[k]? = some m) {target first second : Except SandboxHandle.Error Unit}
    {reply : Except RustHttp.Error CapabilityToken} {result : Except SandboxHandle.Error Unit}
    (hw : w.connect m.credential target first reply second = some (w', result)) :
    Reaches c limits isHeaderValue parse agent earlier s w' := by
  rw [connect_eq] at hw
  obtain ⟨current, hcurrent, hdialled⟩ := Option.bind_eq_some_iff.mp hw
  obtain ⟨⟨w₁, outcome⟩, hfirst, hrest⟩ := Option.bind_eq_some_iff.mp hdialled
  have hspawned := h.spawn (.connecting m.credential target)
  have htask := getElem?_spawn s (.connecting m.credential target)
  cases target with
  | error error =>
      obtain ⟨rfl, rfl⟩ := Prod.mk.inj (Option.some.inj hfirst)
      obtain ⟨s₁, hanswer, hreaches⟩ := reaches_answered hspawned htask hrest
      have hconnect : step c limits isHeaderValue parse agent s (.connect k (.error error)) =
          some s₁ := by
        simp only [step, State.connect, hm, h.current, hcurrent, Option.bind_some, hanswer]
      exact .cons hconnect hreaches
  | ok target =>
      obtain ⟨s₁, hhandshake, hs₁, hnext⟩ := hspawned.handshake m.credential htask
        (.connecting m.credential (.ok ())) hfirst
      obtain ⟨rfl, htask₁⟩ := hnext rfl
      have hconnect : step c limits isHeaderValue parse agent s (.connect k (.ok ())) =
          some s₁ := by
        simp only [step, State.connect, hm, h.current, hcurrent, Option.bind_some, hhandshake]
      obtain ⟨s₂, hanswer, hreaches⟩ := reaches_answered hs₁ htask₁ hrest
      exact .cons hconnect (.cons (a := .answer s.tasks.length outcome) hanswer hreaches)

/-! ### Operations of the handle -/

/-- An operation has borrowed the one handle: it can be given back as any other. -/
structure Lent (earlier : List (SandboxHandle.Event β)) (w : World β υ) (s : State β υ) :
    Prop where
  cells : s.cells = w.cells
  handles : s.handles = [none]
  modules : s.modules = w.modules
  trace : s.trace.filterMap Event.single = earlier ++ w.trace

theorem Lent.giveBack (h : Lent earlier w s) (handle : Sandbox υ) :
    Single earlier { w with sandbox := handle } (s.giveBack 0 handle) where
  cells := h.cells
  handles := by
    show s.handles.set 0 (some handle) = [some handle]
    rw [h.handles]
    rfl
  modules := h.modules
  trace := h.trace

/-- Arming asks for nothing but the cells and the handle. -/
theorem arm_eq (w : World β υ) (token : CapabilityToken) :
    w.arm token =
      let armed : World β υ := World.arm ⟨w.cells, w.sandbox, [], []⟩ token
      { w with cells := armed.cells, sandbox := armed.sandbox } := by
  unfold World.arm
  dsimp only
  cases w.sandbox.credential with
  | none => rfl
  | some credential => rfl

theorem Lent.arm (h : Lent earlier w s) (about : String) (handle : Sandbox υ)
    (token : CapabilityToken) :
    Single earlier
      (World.arm { w.record [.installed token] with sandbox := handle } token)
      ((s.record [.returned about token]).arm 0 handle token) := by
  have hlent : Lent earlier (w.record [.installed token]) (s.record [.returned about token]) :=
    { h with
      trace := by
        show (s.trace ++ [Event.returned about token]).filterMap Event.single = _
        rw [List.filterMap_append, h.trace, List.append_assoc]
        rfl }
  rw [arm_eq]
  unfold State.arm
  dsimp only
  rw [show (s.record [.returned about token]).cells = w.cells from h.cells]
  refine ⟨rfl, ?_, hlent.modules, hlent.trace⟩
  show s.handles.set 0 (some _) = [some _]
  rw [h.handles]
  rfl

theorem begin_lent (h : Single earlier w s) (op : HandleOp) :
    ∃ s', step c limits isHeaderValue parse agent s (.begin 0 op) = some s' ∧
      s'.tasks[s.tasks.length]? = some (.borrowed 0 w.sandbox op) ∧
      Lent earlier (w.record [.control (op.request w.sandbox.info.sandboxId)]) s' := by
  have hhandle : s.handles[0]? = some (some w.sandbox) := by rw [h.handles]; rfl
  refine ⟨_, by rw [step, State.begin, hhandle], List.getElem?_concat_length, ?_⟩
  have hrecord := h.record (.control (.sandbox (op.request w.sandbox.info.sandboxId))) rfl
  exact
    { cells := hrecord.cells
      handles := by
        show s.handles.set 0 none = [none]
        rw [h.handles]
        rfl
      modules := hrecord.modules
      trace := hrecord.trace }

/-- An operation fails, and the handle is given back as it was. -/
theorem reaches_failed (h : Single earlier w s) (op : HandleOp) :
    Reaches c limits isHeaderValue parse agent earlier s
      (w.record [.control (op.request w.sandbox.info.sandboxId)]) := by
  obtain ⟨s', hbegin, htask, hlent⟩ := begin_lent h op
  have hfailed : step c limits isHeaderValue parse agent s'
      (.reply s.tasks.length .failed fun _ => .failed ⟨false, false⟩) =
        some ((s'.giveBack 0 w.sandbox).settle s.tasks.length .finished) := by
    cases op <;> simp only [step, State.reply, htask]
  exact .cons hbegin (.cons hfailed (.of_single ((hlent.giveBack w.sandbox).settle _ _)))

/-- An operation that returns the sandbox and nothing else. -/
theorem reaches_reread (h : Single earlier w s) (op : HandleOp)
    (hop : op = .refresh ∨ op = .pause ∨ ∃ deadlineSeconds, op = .extendDeadline deadlineSeconds)
    (reply : Except RustHttp.Error Info) :
    Reaches c limits isHeaderValue parse agent earlier s
      (w.reread (op.request w.sandbox.info.sandboxId) reply) := by
  cases reply with
  | error error => exact reaches_failed h op
  | ok info =>
      obtain ⟨s', hbegin, htask, hlent⟩ := begin_lent h op
      have hreplied : step c limits isHeaderValue parse agent s'
          (.reply s.tasks.length (.info info) fun _ => .failed ⟨false, false⟩) =
            some ((s'.giveBack 0 { w.sandbox with info := info }).settle s.tasks.length
              .finished) := by
        rcases hop with rfl | rfl | ⟨deadlineSeconds, rfl⟩ <;>
          simp only [step, State.reply, htask]
      exact .cons hbegin (.cons hreplied (.of_single ((hlent.giveBack _).settle _ _)))

theorem reaches_resume (h : Single earlier w s) (deadlineSeconds : Option ℕ)
    (reply : Except RustHttp.Error (Info × CapabilityToken)) :
    Reaches c limits isHeaderValue parse agent earlier s (w.resume deadlineSeconds reply) := by
  cases reply with
  | error error => exact reaches_failed h (.resume deadlineSeconds)
  | ok reply =>
      obtain ⟨s', hbegin, htask, hlent⟩ := begin_lent h (.resume deadlineSeconds)
      have hreplied : step c limits isHeaderValue parse agent s'
          (.reply s.tasks.length (.armed reply.1 reply.2) fun _ => .failed ⟨false, false⟩) =
            some (((s'.record [.returned w.sandbox.info.sandboxId reply.2]).arm 0
              { w.sandbox with info := reply.1 } reply.2).settle s.tasks.length .finished) := by
        simp only [step, State.reply, htask]
      exact .cons hbegin (.cons hreplied (.of_single ((hlent.arm _ _ _).settle _ _)))

theorem reaches_mintToken (h : Single earlier w s) (request : MintTokenRequest)
    (reply : Except RustHttp.Error CapabilityToken) :
    Reaches c limits isHeaderValue parse agent earlier s (w.mintToken request reply) := by
  cases reply with
  | error error => exact reaches_failed h (.mintToken request)
  | ok token =>
      obtain ⟨s', hbegin, htask, hlent⟩ := begin_lent h (.mintToken request)
      have hreplied : step c limits isHeaderValue parse agent s'
          (.reply s.tasks.length (.token token) fun _ => .failed ⟨false, false⟩) =
            some (((s'.record [.returned w.sandbox.info.sandboxId token]).arm 0 w.sandbox
              token).settle s.tasks.length .finished) := by
        simp only [step, State.reply, htask]
      exact .cons hbegin (.cons hreplied (.of_single ((hlent.arm _ w.sandbox token).settle _ _)))

/-- A module is built by looking at the handle. -/
theorem reaches_dataPlane (h : Single earlier w s) {a : Action β}
    (ha : step c limits isHeaderValue parse agent s a = s.dataPlane 0 (World.dataPlane parse)) :
    Reaches c limits isHeaderValue parse agent earlier s (w.dataPlane parse).1 := by
  have hhandle : s.handles[0]? = some (some w.sandbox) := by rw [h.handles]; rfl
  unfold State.dataPlane at ha
  rw [hhandle] at ha
  refine .cons ha (.of_single ?_)
  rw [h.modules, h.cells]
  unfold World.dataPlane
  dsimp only
  cases w.sandbox.credential with
  | none => exact ⟨rfl, h.handles, rfl, h.trace⟩
  | some credential =>
      dsimp only
      cases agentBaseUrl parse w.sandbox.agent w.sandbox.info with
      | error error => exact ⟨rfl, h.handles, rfl, h.trace⟩
      | ok base => exact ⟨rfl, h.handles, rfl, h.trace⟩

/-- Every operation of the single handle is a run of the client. -/
theorem reaches_step (h : Single earlier w s) {op : SandboxHandle.Op β}
    (hw : SandboxHandle.step c limits isHeaderValue parse w op = some w') :
    Reaches c limits isHeaderValue parse agent earlier s w' := by
  cases op with
  | refresh reply =>
      obtain rfl := Option.some.inj hw
      exact reaches_reread h .refresh (.inl rfl) reply
  | pause reply =>
      obtain rfl := Option.some.inj hw
      exact reaches_reread h .pause (.inr (.inl rfl)) reply
  | extendDeadline deadlineSeconds reply =>
      obtain rfl := Option.some.inj hw
      exact reaches_reread h (.extendDeadline deadlineSeconds) (.inr (.inr ⟨_, rfl⟩)) reply
  | resume deadlineSeconds reply =>
      obtain rfl := Option.some.inj hw
      exact reaches_resume h deadlineSeconds reply
  | mintToken request reply =>
      obtain rfl := Option.some.inj hw
      exact reaches_mintToken h request reply
  | commands =>
      obtain rfl := Option.some.inj hw
      exact reaches_dataPlane (a := .commands 0) h rfl
  | files =>
      obtain rfl := Option.some.inj hw
      exact reaches_dataPlane (a := .files 0) h rfl
  | clone k =>
      obtain rfl := Option.some.inj hw
      refine .cons (a := .share k) rfl (.of_single ⟨h.cells, h.handles, ?_, h.trace⟩)
      dsimp only
      rw [h.modules]
  | execute k request first reply second =>
      simp only [SandboxHandle.step] at hw
      split at hw
      · obtain rfl := Option.some.inj hw
        exact .of_single h
      · next m hm =>
          obtain ⟨⟨w₁, result⟩, hcall, rfl⟩ := Option.map_eq_some_iff.mp hw
          exact reaches_call h (h.modules ▸ hm) hcall
  | connect k target first reply second =>
      simp only [SandboxHandle.step] at hw
      split at hw
      · obtain rfl := Option.some.inj hw
        exact .of_single h
      · next m hm =>
          obtain ⟨⟨w₁, result⟩, hcall, rfl⟩ := Option.map_eq_some_iff.mp hw
          exact reaches_connect h (h.modules ▸ hm) hcall

/-- What a client has recorded once it holds a handle: it has created the sandbox, with the handle's
first token, or looked it up. -/
def obtained (info : Info) : Option CapabilityToken → List (SandboxHandle.Event β)
  | none => [.control (.get info.sandboxId)]
  | some _ => []

theorem exists_single (info : Info) (token : Option CapabilityToken) :
    ∃ (as : List (Action β)) (s : State β υ),
      run (step c limits isHeaderValue parse agent) State.init as = some s ∧
        Single (obtained info token) (World.new agent info token) s := by
  cases token with
  | none =>
      refine ⟨[.get info.sandboxId, .reply 0 (.info info) fun _ => .failed ⟨false, false⟩],
        _, rfl, ?_⟩
      exact ⟨rfl, rfl, rfl, rfl⟩
  | some token =>
      refine ⟨[.create, .reply 0 (.armed info token) fun _ => .failed ⟨false, false⟩], _, rfl, ?_⟩
      exact ⟨rfl, rfl, rfl, rfl⟩

/-- Whatever is done with a handle, one operation after another, a client does with overlapping
calls too: it ends with that handle, those modules and those cells, having sent the same. -/
theorem handle_in_client (info : Info) (token : Option CapabilityToken)
    {ops : List (SandboxHandle.Op β)} {w : World β υ}
    (hrun : run (SandboxHandle.step c limits isHeaderValue parse) (World.new agent info token) ops =
      some w) :
    ∃ (as : List (Action β)) (s : State β υ),
      run (step c limits isHeaderValue parse agent) State.init as = some s ∧
        Single (obtained info token) w s := by
  obtain ⟨as, s, hs, hsingle⟩ :=
    @exists_single β υ c limits isHeaderValue parse agent info token
  obtain ⟨bs, s', hs', hsingle'⟩ :=
    run_simulated_of_step (R := Single (obtained info token)) (fun h hw => reaches_step h hw)
      hsingle hrun
  exact ⟨as ++ bs, s', run_append hs hs', hsingle'⟩

end

/-- A handle is looked up and resumed, and its files are watched. -/
theorem handle_in_client_resumed :
    ∃ (as : List (Action Unit)) (s : State Unit String),
      run (step plainReqwest ⟨2⟩ (fun _ => true) .ok ⟨50000, none⟩) State.init as = some s ∧
        s.cells.read 0 = some ⟨"t", 1, none⟩ ∧ s.modules.length = 1 := by
  obtain ⟨w, hrun, hcells, hmodules⟩ : ∃ w : World Unit String,
      run (SandboxHandle.step plainReqwest ⟨2⟩ (fun _ => true) .ok)
        (World.new ⟨50000, none⟩ ⟨"a", "x"⟩ none)
        [.resume none (.ok (⟨"a", "x"⟩, ⟨"t", 1, none⟩)), .files,
          .connect 0 (.ok ()) (.ok ()) (.ok ⟨"u", 1, none⟩) (.ok ())] = some w ∧
        w.cells.read 0 = some ⟨"t", 1, none⟩ ∧ w.modules.length = 1 := ⟨_, rfl, rfl, rfl⟩
  obtain ⟨as, s, hs, hsingle⟩ := handle_in_client ⟨"a", "x"⟩ none hrun
  exact ⟨as, s, hs, hsingle.cells ▸ hcells, hsingle.modules ▸ hmodules⟩

end FissionPlane.Sdk.SandboxFleet
