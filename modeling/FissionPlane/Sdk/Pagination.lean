/-
# FissionPlane.Sdk.Pagination -- walking the sandbox collection

`GET /v1/sandboxes` answers with a page and, unless it is the last, a cursor for the next. Rust has
a stream (an unfold over pages, flattened) and a loop that collects; TypeScript and Python have
generators with loops of their own. Each is a generator over the queries it sends.

A chain is what the server answers to successive requests. Every one of the four walks it alike:
a request for each page, with the caller's filter and the cursor of the page before, and between
two requests the items of the page in order.
-/
import FissionPlane.Lib.Generator

namespace FissionPlane.Sdk.Pagination

open FissionPlane.Lib.Generator

universe u v

/-! ## Filters and pages -/

/-- `ListSandboxesFilter`, over the strings `κ` of a language and its states, metadata and
limits. -/
structure ListSandboxesFilter (κ ς μ ν : Type*) where
  state : Option ς
  name : Option κ
  metadata : Option μ
  limit : Option ν
  cursor : Option κ
  deriving DecidableEq

/-- How a language writes the values of a filter. -/
structure Encoding (κ ς μ ν : Type*) where
  state : ς → κ
  metadata : μ → κ
  limit : ν → κ

/-- The `next_cursor` of a page. -/
inductive NextCursor (κ : Type*) where
  | missing
  | null
  | cursor (value : κ)
  deriving DecidableEq

/-- `SandboxList` -/
structure Page (ι κ : Type*) where
  items : List ι
  nextCursor : NextCursor κ
  deriving DecidableEq

variable {κ ς μ ν ι η ε : Type*}

/-- A query parameter that is left out when there is no value. -/
def param {τ : Type*} (name : String) (encode : τ → κ) (value : Option τ) : List (String × κ) :=
  (value.map fun v => (name, encode v)).toList

/-- A cursor that may be absent, as Rust and TypeScript hold it. -/
def NextCursor.toOption : NextCursor κ → Option κ
  | .missing | .null => none
  | .cursor value => some value

/-! ## Rust -/

namespace Rust

/-- `ListSandboxesFilter::query` -/
def query (E : Encoding κ ς μ ν) (filter : ListSandboxesFilter κ ς μ ν) : List (String × κ) :=
  param "state" E.state filter.state ++ param "name" id filter.name ++
    param "metadata" E.metadata filter.metadata ++ param "limit" E.limit filter.limit ++
    param "cursor" id filter.cursor

/-- The flattened unfold: what the unfold goes on with, and the page being yielded. -/
inductive StreamState (κ ς μ ν η ε : Type*) where
  | flatten (unfold : Option (Option (ListSandboxesFilter κ ς μ ν)))
      (page : Option (List (Except ε η)))
  /-- An error of the unfold, which has ended. -/
  | failed (error : ε)

/-- `Sandboxes::stream`; `none` is the state after the page that had no `next_cursor`. -/
def stream (filter : ListSandboxesFilter κ ς μ ν) : StreamState κ ς μ ν η ε :=
  .flatten (some (some filter)) none

/-- The answer to the request for a page, in the unfold. -/
def unfolded (handle : ι → η) (filter : ListSandboxesFilter κ ς μ ν) :
    Except ε (Page ι κ) → StreamState κ ς μ ν η ε
  | .error error => .failed error
  | .ok page =>
      let items := page.items.map fun info => .ok (handle info)
      let next := page.nextCursor.toOption.map fun cursor => { filter with cursor := some cursor }
      .flatten (some next) (some items)

def streamStep (E : Encoding κ ς μ ν) (handle : ι → η) : StreamState κ ς μ ν η ε →
    Act (List (String × κ)) (Except ε (Page ι κ)) (Except ε η) Unit (StreamState κ ς μ ν η ε)
  | .flatten unfold (some (item :: rest)) => .yield item (.flatten unfold (some rest))
  | .flatten (some (some filter)) _ => .request (query E filter) (unfolded handle filter)
  | .flatten _ _ => .finish ()
  | .failed error => .yield (.error error) (.flatten none none)

/-- The loop of `Sandboxes::list_all`. -/
inductive ListAllState (κ ς μ ν ι ε : Type*) where
  | loop (filter : ListSandboxesFilter κ ς μ ν) (all : List ι)
  | returned (result : Except ε (List ι))

def listAll (filter : ListSandboxesFilter κ ς μ ν) : ListAllState κ ς μ ν ι ε := .loop filter []

def listAllStep (E : Encoding κ ς μ ν) : ListAllState κ ς μ ν ι ε →
    Act (List (String × κ)) (Except ε (Page ι κ)) Empty (Except ε (List ι))
      (ListAllState κ ς μ ν ι ε)
  | .loop filter all => .request (query E filter) fun
      | .error error => .returned (.error error)
      | .ok page =>
          match page.nextCursor.toOption with
          | some cursor => .loop { filter with cursor := some cursor } (all ++ page.items)
          | none => .returned (.ok (all ++ page.items))
  | .returned result => .finish result

end Rust

/-! ## TypeScript -/

namespace TypeScript

/-- The query of `Sandboxes.list`. -/
def query (E : Encoding κ ς μ ν) (options : ListSandboxesFilter κ ς μ ν) : List (String × κ) :=
  param "state" E.state options.state ++ param "name" id options.name ++
    param "metadata" E.metadata options.metadata ++ param "limit" E.limit options.limit ++
    param "cursor" id options.cursor

/-- `Sandboxes.iterate`, between two of its suspensions. -/
inductive IterateState (κ η ε : Type*) where
  | fetch (cursor : Option κ)
  | page (items : List η) (nextCursor : Option κ)
  | threw (error : ε)

def iterate : IterateState κ η ε := .fetch none

/-- `await this.list({ ...options, cursor })` -/
def fetch (E : Encoding κ ς μ ν) (handle : ι → η) (options : ListSandboxesFilter κ ς μ ν)
    (cursor : Option κ) :
    Act (List (String × κ)) (Except ε (Page ι κ)) η (Except ε Unit) (IterateState κ η ε) :=
  .request (query E { options with cursor := cursor }) fun
    | .error error => .threw error
    | .ok page => .page (page.items.map handle) page.nextCursor.toOption

def iterateStep (E : Encoding κ ς μ ν) (handle : ι → η) (options : ListSandboxesFilter κ ς μ ν) :
    IterateState κ η ε →
    Act (List (String × κ)) (Except ε (Page ι κ)) η (Except ε Unit) (IterateState κ η ε)
  | .fetch cursor => fetch E handle options cursor
  | .page (item :: rest) nextCursor => .yield item (.page rest nextCursor)
  -- `while (cursor !== undefined)`
  | .page [] (some cursor) => fetch E handle options (some cursor)
  | .page [] none => .finish (.ok ())
  | .threw error => .finish (.error error)

end TypeScript

/-! ## Python -/

namespace Python

/-- The query of `Sandboxes.list`, in the order of the generated client. -/
def query (E : Encoding κ ς μ ν) (filter : ListSandboxesFilter κ ς μ ν) : List (String × κ) :=
  param "limit" E.limit filter.limit ++ param "cursor" id filter.cursor ++
    param "state" E.state filter.state ++ param "name" id filter.name ++
    param "metadata" E.metadata filter.metadata

/-- `Sandboxes.iterate` and `AsyncSandboxes.iterate`, between two of their suspensions. -/
inductive IterateState (κ η ε : Type*) where
  | fetch (cursor : Option κ)
  | page (items : List η) (nextCursor : NextCursor κ)
  | raised (error : ε)

def iterate : IterateState κ η ε := .fetch none

/-- `self.list(state=state, …, cursor=cursor)` -/
def fetch (E : Encoding κ ς μ ν) (handle : ι → η) (filter : ListSandboxesFilter κ ς μ ν)
    (cursor : Option κ) :
    Act (List (String × κ)) (Except ε (Page ι κ)) η (Except ε Unit) (IterateState κ η ε) :=
  .request (query E { filter with cursor := cursor }) fun
    | .error error => .raised error
    | .ok page => .page (page.items.map handle) page.nextCursor

def iterateStep (E : Encoding κ ς μ ν) (handle : ι → η) (filter : ListSandboxesFilter κ ς μ ν) :
    IterateState κ η ε →
    Act (List (String × κ)) (Except ε (Page ι κ)) η (Except ε Unit) (IterateState κ η ε)
  | .fetch cursor => fetch E handle filter cursor
  | .page (info :: rest) nextCursor => .yield info (.page rest nextCursor)
  | .page [] .missing | .page [] .null => .finish (.ok ())
  | .page [] (.cursor cursor) => fetch E handle filter (some cursor)
  | .raised error => .finish (.error error)

end Python

/-! ## Queries -/

/-- What a filter asks for under a name. -/
def ListSandboxesFilter.parameter (E : Encoding κ ς μ ν) (filter : ListSandboxesFilter κ ς μ ν)
    (name : String) : Option κ :=
  if name = "state" then filter.state.map E.state
  else if name = "name" then filter.name
  else if name = "metadata" then filter.metadata.map E.metadata
  else if name = "limit" then filter.limit.map E.limit
  else if name = "cursor" then filter.cursor
  else none

theorem mem_param_iff {τ : Type*} {name other : String} {encode : τ → κ} {value : Option τ}
    {v : κ} : (other, v) ∈ param name encode value ↔ other = name ∧ value.map encode = some v := by
  cases value with
  | none => simp [param]
  | some t => simp [param, eq_comm]

/-- The query of a page holds the fields of its filter that are set, and nothing else. -/
theorem Rust.mem_query_iff (E : Encoding κ ς μ ν) (filter : ListSandboxesFilter κ ς μ ν)
    (name : String) (value : κ) :
    (name, value) ∈ Rust.query E filter ↔ filter.parameter E name = some value := by
  simp only [Rust.query, List.mem_append, mem_param_iff, Option.map_id_fun, id_eq,
    ListSandboxesFilter.parameter]
  by_cases hstate : name = "state"
  · subst hstate
    simp
  by_cases hname : name = "name"
  · subst hname
    simp
  by_cases hmetadata : name = "metadata"
  · subst hmetadata
    simp
  by_cases hlimit : name = "limit"
  · subst hlimit
    simp
  by_cases hcursor : name = "cursor"
  · subst hcursor
    simp
  simp [hstate, hname, hmetadata, hlimit, hcursor]

theorem TypeScript.mem_query_iff (E : Encoding κ ς μ ν) (filter : ListSandboxesFilter κ ς μ ν)
    (name : String) (value : κ) :
    (name, value) ∈ TypeScript.query E filter ↔ filter.parameter E name = some value :=
  Rust.mem_query_iff E filter name value

/-- Python's query has another order. -/
theorem Python.query_perm (E : Encoding κ ς μ ν) (filter : ListSandboxesFilter κ ς μ ν) :
    (Python.query E filter).Perm (Rust.query E filter) := by
  have hrust : Rust.query E filter =
      (param "state" E.state filter.state ++ param "name" id filter.name ++
        param "metadata" E.metadata filter.metadata) ++
      (param "limit" E.limit filter.limit ++ param "cursor" id filter.cursor) :=
    List.append_assoc _ _ _
  have hpython : Python.query E filter =
      (param "limit" E.limit filter.limit ++ param "cursor" id filter.cursor) ++
      (param "state" E.state filter.state ++ param "name" id filter.name ++
        param "metadata" E.metadata filter.metadata) := by
    simp only [Python.query, List.append_assoc]
  rw [hrust, hpython]
  exact List.perm_append_comm

theorem Python.mem_query_iff (E : Encoding κ ς μ ν) (filter : ListSandboxesFilter κ ς μ ν)
    (name : String) (value : κ) :
    (name, value) ∈ Python.query E filter ↔ filter.parameter E name = some value :=
  (Python.query_perm E filter).mem_iff.trans (Rust.mem_query_iff E filter name value)

theorem param_names {τ : Type*} (name : String) (encode : τ → κ) (value : Option τ) :
    ((param name encode value).map Prod.fst).Sublist [name] := by
  cases value with
  | none => exact List.nil_sublist _
  | some t => exact List.Sublist.refl _

/-- No query names a parameter twice. -/
theorem Rust.query_nodup (E : Encoding κ ς μ ν) (filter : ListSandboxesFilter κ ς μ ν) :
    ((Rust.query E filter).map Prod.fst).Nodup := by
  have hnames : ((Rust.query E filter).map Prod.fst).Sublist
      ((((["state"] ++ ["name"]) ++ ["metadata"]) ++ ["limit"]) ++ ["cursor"]) := by
    simp only [Rust.query, List.map_append]
    exact ((((param_names _ _ _).append (param_names _ _ _)).append (param_names _ _ _)).append
      (param_names _ _ _)).append (param_names _ _ _)
  exact hnames.nodup (by decide)

theorem Python.query_nodup (E : Encoding κ ς μ ν) (filter : ListSandboxesFilter κ ς μ ν) :
    ((Python.query E filter).map Prod.fst).Nodup :=
  ((Python.query_perm E filter).map Prod.fst).nodup_iff.mpr (Rust.query_nodup E filter)

/-! ## Chains -/

/-- The answers to successive requests: pages linked by cursors, then a last page or a failure. -/
inductive Chain (ι κ ε : Type*) where
  | fails (error : ε)
  | last (items : List ι)
  | lastNull (items : List ι)
  | more (items : List ι) (cursor : κ) (rest : Chain ι κ ε)
  deriving DecidableEq

namespace Chain

def answers : Chain ι κ ε → List (Except ε (Page ι κ))
  | fails error => [.error error]
  | last items => [.ok ⟨items, .missing⟩]
  | lastNull items => [.ok ⟨items, .null⟩]
  | more items cursor rest => .ok ⟨items, .cursor cursor⟩ :: rest.answers

/-- The pages' items, in order. -/
def items : Chain ι κ ε → List ι
  | fails _ => []
  | last items | lastNull items => items
  | more items _ rest => items ++ rest.items

/-- The cursors that link the pages. -/
def cursors : Chain ι κ ε → List κ
  | fails _ | last _ | lastNull _ => []
  | more _ cursor rest => cursor :: rest.cursors

/-- The error of the last request, if it fails. -/
def failure : Chain ι κ ε → Option ε
  | fails error => some error
  | last _ | lastNull _ => none
  | more _ _ rest => rest.failure

/-- How the last request ends a generator. -/
def outcome {γ : Type*} (chain : Chain ι κ ε) (result : γ) : Except ε γ :=
  match chain.failure with
  | some error => .error error
  | none => .ok result

variable {ρ β : Type*}

/-- Each page is requested with the cursor of the one before, and its items are yielded before the
next request. -/
def walk (query : Option κ → ρ) (item : ι → β) (cursor : Option κ) :
    Chain ι κ ε → List (Event ρ β)
  | fails _ => [.requested (query cursor)]
  | last items | lastNull items => .requested (query cursor) :: (items.map item).map .yielded
  | more items next rest =>
      .requested (query cursor) :: ((items.map item).map .yielded ++
        rest.walk query item (some next))

/-- Every page is requested once, with the caller's cursor first and then those of the chain. -/
theorem requested_walk (query : Option κ → ρ) (item : ι → β) (cursor : Option κ)
    (chain : Chain ι κ ε) :
    requested (chain.walk query item cursor) = (cursor :: chain.cursors.map some).map query := by
  induction chain generalizing cursor with
  | fails error => rfl
  | last items | lastNull items =>
      have hitems := requested_items (ρ := ρ) (items.map item) []
      rw [List.append_nil] at hitems
      exact congrArg (query cursor :: ·) hitems
  | more items next rest ih =>
      show query cursor :: requested ((items.map item).map .yielded ++ _) = _
      rw [requested_items, ih]
      rfl

/-- The items of the pages are yielded in order, each once. -/
theorem yielded_walk (query : Option κ → ρ) (item : ι → β) (cursor : Option κ)
    (chain : Chain ι κ ε) :
    yielded (chain.walk query item cursor) = chain.items.map item := by
  induction chain generalizing cursor with
  | fails error => rfl
  | last items | lastNull items =>
      have hitems := yielded_items (ρ := ρ) (items.map item) []
      rw [List.append_nil] at hitems
      exact hitems.trans (List.append_nil _)
  | more items next rest ih =>
      show yielded ((items.map item).map .yielded ++ _) = (items ++ rest.items).map item
      rw [yielded_items, ih, List.map_append]

end Chain

/-! ## The four walks -/

variable (E : Encoding κ ς μ ν) (handle : ι → η) (filter : ListSandboxesFilter κ ς μ ν)

/-- A filter with another cursor. -/
def ListSandboxesFilter.from (cursor : Option κ) : ListSandboxesFilter κ ς μ ν :=
  { filter with cursor := cursor }

variable {E handle}

/-- The stream, from the request for a page on. -/
theorem Rust.stream_runs (page : Option (List (Except ε η))) (hpage : page.getD [] = [])
    (cursor : Option κ) (chain : Chain ι κ ε) :
    Runs (Rust.streamStep E handle) (.flatten (some (some (filter.from cursor))) page)
      chain.answers
      (chain.walk (fun c => Rust.query E (filter.from c)) (fun info => .ok (handle info)) cursor ++
        chain.failure.toList.map fun error => .yielded (.error error)) () := by
  have hrequest : ∀ (page : Option (List (Except ε η))) (cursor : Option κ), page.getD [] = [] →
      Rust.streamStep E handle (.flatten (some (some (filter.from cursor))) page) =
        .request (Rust.query E (filter.from cursor))
          (Rust.unfolded handle (filter.from cursor)) := by
    rintro (_ | _ | _) cursor h
    · rfl
    · rfl
    · cases h
  have hlast : ∀ items : List ι, Runs (Rust.streamStep E handle)
      (.flatten (some none) (some (items.map fun info => Except.ok (handle info)))) []
      ((items.map fun info => Except.ok (ε := ε) (handle info)).map Event.yielded) () := by
    intro items
    have hend : Runs (Rust.streamStep E handle)
        (.flatten (some none) (some []) : Rust.StreamState κ ς μ ν η ε) [] [] () := .finish rfl
    have hitems := Runs.items (fun xs => Rust.StreamState.flatten (some none) (some xs))
      (fun _ _ => rfl) hend (items.map fun info => Except.ok (handle info))
    rwa [List.append_nil] at hitems
  induction chain generalizing page cursor with
  | fails error => exact .request (hrequest page cursor hpage) (.yield rfl (.finish rfl))
  | last items | lastNull items =>
      refine .request (hrequest page cursor hpage) ?_
      show Runs _ _ _ (_ ++ []) _
      rw [List.append_nil]
      exact hlast items
  | more items next rest ih =>
      refine .request (hrequest page cursor hpage) ?_
      have hitems := Runs.items
        (fun xs => Rust.StreamState.flatten (some (some (filter.from (some next)))) (some xs))
        (fun _ _ => rfl) (ih (some []) rfl (some next))
        (items.map fun info => Except.ok (handle info))
      rwa [← List.append_assoc] at hitems

/-- The loop, with what it has collected. -/
theorem Rust.listAll_runs (cursor : Option κ) (all : List ι) (chain : Chain ι κ ε) :
    Runs (Rust.listAllStep E) (.loop (filter.from cursor) all) chain.answers
      ((cursor :: chain.cursors.map some).map fun c => .requested (Rust.query E (filter.from c)))
      (chain.outcome (all ++ chain.items)) := by
  induction chain generalizing cursor all with
  | fails error => exact .request rfl (.finish rfl)
  | last items | lastNull items => exact .request rfl (.finish rfl)
  | more items next rest ih =>
      refine .request rfl ?_
      have hrest := ih (some next) (all ++ items)
      rwa [List.append_assoc] at hrest

/-- TypeScript's generator, from the request for a page on. -/
theorem TypeScript.iterate_runs (cursor : Option κ) (chain : Chain ι κ ε) :
    Runs (TypeScript.iterateStep E handle filter) (.fetch cursor) chain.answers
      (chain.walk (fun c => TypeScript.query E (filter.from c)) handle cursor)
      (chain.outcome ()) := by
  have hlast : ∀ items : List ι, Runs (TypeScript.iterateStep E handle filter)
      (.page (items.map handle) none : TypeScript.IterateState κ η ε) []
      ((items.map handle).map .yielded) (.ok ()) := by
    intro items
    have hend : Runs (TypeScript.iterateStep E handle filter)
        (.page [] none : TypeScript.IterateState κ η ε) [] [] (.ok ()) := .finish rfl
    have hitems := Runs.items (fun xs => TypeScript.IterateState.page xs none) (fun _ _ => rfl)
      hend (items.map handle)
    rwa [List.append_nil] at hitems
  induction chain generalizing cursor with
  | fails error => exact .request rfl (.finish rfl)
  | last items | lastNull items => exact .request rfl (hlast items)
  | more items next rest ih =>
      refine .request rfl ?_
      have hstep : TypeScript.iterateStep (ε := ε) E handle filter (.page [] (some next)) =
          TypeScript.iterateStep E handle filter (.fetch (some next)) := rfl
      have hloop := (ih (some next)).of_step_eq hstep
      exact Runs.items (fun xs => TypeScript.IterateState.page xs (some next)) (fun _ _ => rfl)
        hloop _

/-- Python's generators, from the request for a page on. -/
theorem Python.iterate_runs (cursor : Option κ) (chain : Chain ι κ ε) :
    Runs (Python.iterateStep E handle filter) (.fetch cursor) chain.answers
      (chain.walk (fun c => Python.query E (filter.from c)) handle cursor)
      (chain.outcome ()) := by
  have hlast : ∀ (items : List ι) (next : NextCursor κ), next.toOption = none →
      Runs (Python.iterateStep E handle filter)
        (.page (items.map handle) next : Python.IterateState κ η ε) []
        ((items.map handle).map .yielded) (.ok ()) := by
    intro items next hnext
    have hend : Runs (Python.iterateStep E handle filter)
        (.page [] next : Python.IterateState κ η ε) [] [] (.ok ()) := by
      cases next with
      | missing | null => exact .finish rfl
      | cursor value => cases hnext
    have hitems := Runs.items (fun xs => Python.IterateState.page xs next) (fun _ _ => rfl)
      hend (items.map handle)
    rwa [List.append_nil] at hitems
  induction chain generalizing cursor with
  | fails error => exact .request rfl (.finish rfl)
  | last items | lastNull items => exact .request rfl (hlast items _ rfl)
  | more items next rest ih =>
      refine .request rfl ?_
      have hstep : Python.iterateStep (ε := ε) E handle filter (.page [] (.cursor next)) =
          Python.iterateStep E handle filter (.fetch (some next)) := rfl
      have hloop := (ih (some next)).of_step_eq hstep
      exact Runs.items (fun xs => Python.IterateState.page xs (.cursor next)) (fun _ _ => rfl)
        hloop _

/-- **Every page once, every item once.** Whatever the filter and the chain, each of the four walks
the chain: Rust from the caller's cursor and the others from the start. The lazy ones end with the
error of a failed request, after the items of the pages before it. -/
theorem walks_chain (E : Encoding κ ς μ ν) (handle : ι → η) (filter : ListSandboxesFilter κ ς μ ν)
    (chain : Chain ι κ ε) :
    Determines (Rust.streamStep E handle) (Rust.stream filter) chain.answers
      (chain.walk (fun c => Rust.query E (filter.from c)) (fun info => .ok (handle info))
        filter.cursor ++ chain.failure.toList.map fun error => .yielded (.error error)) () ∧
    Determines (Rust.listAllStep E) (Rust.listAll filter) chain.answers
      ((filter.cursor :: chain.cursors.map some).map fun c =>
        .requested (Rust.query E (filter.from c)))
      (chain.outcome chain.items) ∧
    Determines (TypeScript.iterateStep E handle filter) TypeScript.iterate chain.answers
      (chain.walk (fun c => TypeScript.query E (filter.from c)) handle none) (chain.outcome ()) ∧
    Determines (Python.iterateStep E handle filter) Python.iterate chain.answers
      (chain.walk (fun c => Python.query E (filter.from c)) handle none) (chain.outcome ()) ∧
    ∀ {ρ : Type u} {β : Type v} (query : Option κ → ρ) (item : ι → β) (cursor : Option κ),
      requested (chain.walk query item cursor) = (cursor :: chain.cursors.map some).map query ∧
      yielded (chain.walk query item cursor) = chain.items.map item :=
  ⟨(Rust.stream_runs filter none rfl filter.cursor chain).determines,
    (Rust.listAll_runs filter filter.cursor [] chain).determines,
    (TypeScript.iterate_runs filter none chain).determines,
    (Python.iterate_runs filter none chain).determines,
    fun query item cursor =>
      ⟨chain.requested_walk query item cursor, chain.yielded_walk query item cursor⟩⟩

end FissionPlane.Sdk.Pagination
