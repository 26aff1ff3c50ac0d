/-
# FissionPlane.Sdk.ListFilter -- the filter of a sandbox listing in a URL

A listing sends its filter as the query of the URL, and the metadata of the filter as one parameter
of it, which is a form of its own. So metadata is encoded twice. The three SDKs write different
texts: they order the metadata as their maps do, keep different punctuation, and encode the query
each with the serializer of its HTTP client. The serializers that are not the SDK's own are
parameters here.

All the same they say the same. Whatever the filter holds, the query the server finds in the URL
carries it, and carries no other filter. Texts are of Unicode scalar values: a lone surrogate in a
JavaScript string has no encoding, and what the platform puts in its place is another text.
-/
import FissionPlane.Lib.FormUrlencoded
import FissionPlane.Sdk.RequestUrl
import FissionPlane.Sdk.Pagination

namespace FissionPlane.Sdk.ListFilter

open FissionPlane.Lib
open FissionPlane.Lib.FormUrlencoded
open FissionPlane.Lib.UrlParser
open FissionPlane.Lib.Text (bytes)
open FissionPlane.Sdk.Pagination (ListSandboxesFilter Encoding param)

/-! ## Filters -/

inductive SandboxState where
  | running
  | paused
  | terminated
  | failed
  deriving DecidableEq, Repr

/-- `SandboxState::as_str`, and the values of the two other clients. -/
def SandboxState.asStr : SandboxState → String
  | .running => "running"
  | .paused => "paused"
  | .terminated => "terminated"
  | .failed => "failed"

/-- Metadata, in the order in which its keys were first set. -/
structure Metadata where
  pairs : List (List Char × List Char)
  nodup : (pairs.map Prod.fst).Nodup

/-- The value of a key. -/
def Metadata.value? (metadata : Metadata) (key : List Char) : Option (List Char) :=
  metadata.pairs.lookup key

abbrev Filter := ListSandboxesFilter (List Char) SandboxState Metadata Nat

/-- How a client writes the values, given its metadata. -/
def encoding (encodedMetadata : Metadata → List Char) :
    Encoding (List Char) SandboxState Metadata Nat where
  state state := state.asStr.toList
  metadata := encodedMetadata
  limit limit := Nat.toDigits 10 limit

/-! ## The three clients -/

/-- The three clients. -/
inductive Client where
  | rust
  | typeScript
  | python

/-- The serializers the SDKs are given: that of the crate `form_urlencoded`, and the one for the
query of each HTTP client (`reqwest`, `openapi-fetch`, `httpx`), which escapes a hash. -/
structure Serializers where
  formUrlencoded : Encoder
  query : Client → Encoder
  query_hash : ∀ client, (query client).keeps '#' = false

namespace Rust

/-- A `BTreeMap` is iterated in the order of its keys, which is that of their bytes. -/
def iter (metadata : Metadata) : List (List Char × List Char) :=
  metadata.pairs.mergeSort fun p q => decide (bytes p.1 ≤ bytes q.1)

/-- `ListSandboxesFilter::encoded_metadata` -/
def encodedMetadata (formUrlencoded : Encoder) (metadata : Metadata) : List Char :=
  serialize formUrlencoded (iter metadata)

end Rust

namespace TypeScript

/-- The number of a key that is an array index. -/
def arrayIndex? (key : List Char) : Option Nat :=
  let n := key.foldl (fun n c => 10 * n + (c.toNat - 48)) 0
  if Nat.toDigits 10 n = key ∧ n < 2 ^ 32 - 1 then some n else none

/-- The properties of an object: array indices in their order, and then the other keys. -/
def entries (metadata : Metadata) : List (List Char × List Char) :=
  (metadata.pairs.filter fun p => (arrayIndex? p.1).isSome).mergeSort
      (fun p q => decide ((arrayIndex? p.1).getD 0 ≤ (arrayIndex? q.1).getD 0)) ++
    metadata.pairs.filter fun p => !(arrayIndex? p.1).isSome

/-- `new URLSearchParams(options.metadata).toString()` -/
def encodedMetadata (metadata : Metadata) : List Char := serialize urlStandard (entries metadata)

end TypeScript

namespace Python

/-- `_metadata_filter`: a `dict` is iterated in the order of insertion. -/
def metadataFilter (metadata : Metadata) : List Char := serialize quotePlus metadata.pairs

end Python

/-- The parameters a client hands to its HTTP client. -/
def Client.parameters (formUrlencoded : Encoder) :
    Client → Filter → List (String × List Char)
  | .rust => Pagination.Rust.query (encoding (Rust.encodedMetadata formUrlencoded))
  | .typeScript => Pagination.TypeScript.query (encoding TypeScript.encodedMetadata)
  | .python => Pagination.Python.query (encoding Python.metadataFilter)

/-- The query the HTTP client writes. -/
def Client.search (given : Serializers) (client : Client) (filter : Filter) : List Char :=
  serialize (given.query client)
    ((client.parameters given.formUrlencoded filter).map fun p => (p.1.toList, p.2))

/-- What is put behind the path: without parameters there is no question mark. -/
def behindPath (search : List Char) : List Char := if search = [] then [] else '?' :: search

/-! ## What a query says -/

/-- The values of a parameter, as a server reads them. -/
def valuesOf (query : List Char) (name : String) : List (List UInt8) :=
  getAll (parse query) (bytes name.toList)

/-- The metadata a form says. -/
def SaysMetadata (form : List Char) (metadata : Metadata) : Prop :=
  (parse form).Perm (metadata.pairs.map fun p => (bytes p.1, bytes p.2))

/-- The query says the filter, and nothing besides it. -/
structure Carries (query : List Char) (filter : Filter) : Prop where
  state : valuesOf query "state" = (filter.state.map fun s => bytes s.asStr.toList).toList
  name : valuesOf query "name" = (filter.name.map bytes).toList
  limit : valuesOf query "limit" = (filter.limit.map fun n => bytes (Nat.toDigits 10 n)).toList
  cursor : valuesOf query "cursor" = (filter.cursor.map bytes).toList
  metadata : ∃ form : Metadata → List Char, (∀ m, SaysMetadata (form m) m) ∧
    valuesOf query "metadata" = (filter.metadata.map fun m => bytes (form m)).toList
  others : ∀ name, name ∉ ["state", "name", "limit", "cursor", "metadata"] →
    valuesOf query name = []

/-- Two filters that ask for the same. -/
structure Same (f g : Filter) : Prop where
  state : f.state = g.state
  name : f.name = g.name
  limit : f.limit = g.limit
  cursor : f.cursor = g.cursor
  metadata : f.metadata.map Metadata.value? = g.metadata.map Metadata.value?

/-! ## Metadata in each order -/

theorem iter_perm (metadata : Metadata) : (Rust.iter metadata).Perm metadata.pairs :=
  List.mergeSort_perm _ _

theorem entries_perm (metadata : Metadata) : (TypeScript.entries metadata).Perm metadata.pairs :=
  ((List.mergeSort_perm _ _).append_right _).trans (List.filter_append_perm _ _)

/-- A form of the pairs says the metadata, in whatever order and by whatever encoder. -/
theorem saysMetadata_serialize {e : Encoder} {pairs : List (List Char × List Char)}
    {metadata : Metadata} (h : pairs.Perm metadata.pairs) :
    SaysMetadata (serialize e pairs) metadata := by
  rw [SaysMetadata, parse_serialize]
  exact h.map _

/-! ## The parameters of a query -/

/-- A parameter as a server reads it. -/
def read (p : String × List Char) : List UInt8 × List UInt8 := (bytes p.1.toList, bytes p.2)

theorem getAll_read_param {τ : Type} (name other : String) (write : τ → List Char)
    (value : Option τ) :
    getAll ((param name write value).map read) (bytes other.toList) =
      if name = other then (value.map fun v => bytes (write v)).toList else [] := by
  have hname : (bytes name.toList == bytes other.toList) = decide (name = other) := by
    rw [Bool.eq_iff_iff, beq_iff_eq, decide_eq_true_eq]
    constructor
    · exact fun h => String.toList_inj.mp (PercentEncoding.bytes_injective h)
    · exact fun h => by rw [h]
  cases value with
  | none =>
      rw [Option.map_none, Option.toList_none, ite_self]
      rfl
  | some v =>
      rw [param, Option.map_some, Option.toList_some, List.map_singleton, getAll,
        List.filter_cons, List.filter_nil]
      show List.map _ (if (bytes name.toList == bytes other.toList) = true then _ else _) = _
      rw [hname]
      by_cases h : name = other
      · rw [if_pos (decide_eq_true h), if_pos h]
        rfl
      · rw [if_neg (by rw [decide_eq_false h]; decide), if_neg h]
        rfl

/-- The parameters of the filter in either order are read by name alike. -/
theorem getAll_query (encodedMetadata : Metadata → List Char) (filter : Filter)
    {pairs : List (String × List Char)}
    (h : pairs = Pagination.Rust.query (encoding encodedMetadata) filter ∨
      pairs = Pagination.Python.query (encoding encodedMetadata) filter) (name : String) :
    getAll (pairs.map read) (bytes name.toList) =
      if "state" = name then (filter.state.map fun s => bytes s.asStr.toList).toList
      else if "name" = name then (filter.name.map bytes).toList
      else if "metadata" = name then
        (filter.metadata.map fun m => bytes (encodedMetadata m)).toList
      else if "limit" = name then
        (filter.limit.map fun n => bytes (Nat.toDigits 10 n)).toList
      else if "cursor" = name then (filter.cursor.map bytes).toList
      else [] := by
  rcases h with rfl | rfl
  all_goals
    simp only [Pagination.Rust.query, Pagination.Python.query, List.map_append, getAll_append,
      getAll_read_param, encoding]
    -- a parameter has one of five names, and no two of them are the same
    by_cases hstate : "state" = name
    · subst hstate
      simp
    by_cases hname : "name" = name
    · subst hname
      simp
    by_cases hmetadata : "metadata" = name
    · subst hmetadata
      simp
    by_cases hlimit : "limit" = name
    · subst hlimit
      simp
    by_cases hcursor : "cursor" = name
    · subst hcursor
      simp
    simp [hstate, hname, hmetadata, hlimit, hcursor]

/-- A query whose parameters are those of the filter carries it. -/
theorem carries_of_parse {query : List Char} {filter : Filter}
    {encodedMetadata : Metadata → List Char} {pairs : List (String × List Char)}
    (hmetadata : ∀ m, SaysMetadata (encodedMetadata m) m)
    (hpairs : pairs = Pagination.Rust.query (encoding encodedMetadata) filter ∨
      pairs = Pagination.Python.query (encoding encodedMetadata) filter)
    (hparse : parse query = pairs.map read) : Carries query filter := by
  have hvalues := getAll_query encodedMetadata filter hpairs
  rw [← hparse] at hvalues
  refine ⟨(hvalues "state").trans (if_pos rfl), (hvalues "name").trans ?_,
    (hvalues "limit").trans ?_, (hvalues "cursor").trans ?_,
    ⟨encodedMetadata, hmetadata, (hvalues "metadata").trans ?_⟩,
    fun name hname => (hvalues name).trans ?_⟩
  · rw [if_neg (by decide), if_pos rfl]
  · rw [if_neg (by decide), if_neg (by decide), if_neg (by decide), if_pos rfl]
  · rw [if_neg (by decide), if_neg (by decide), if_neg (by decide), if_neg (by decide), if_pos rfl]
  · rw [if_neg (by decide), if_neg (by decide), if_pos rfl]
  · simp only [List.mem_cons, List.not_mem_nil, or_false, not_or] at hname
    obtain ⟨hstate, hn, hlimit, hcursor, hm⟩ := hname
    rw [if_neg (Ne.symm hstate), if_neg (Ne.symm hn), if_neg (Ne.symm hm), if_neg (Ne.symm hlimit),
      if_neg (Ne.symm hcursor)]

/-! ## The query of each client -/

/-- The parameters of each client are those of the filter, its metadata a form. -/
theorem Client.parameters_form (formUrlencoded : Encoder) (client : Client) (filter : Filter) :
    ∃ encodedMetadata : Metadata → List Char, (∀ m, SaysMetadata (encodedMetadata m) m) ∧
      (client.parameters formUrlencoded filter =
          Pagination.Rust.query (encoding encodedMetadata) filter ∨
        client.parameters formUrlencoded filter =
          Pagination.Python.query (encoding encodedMetadata) filter) := by
  cases client with
  | rust => exact ⟨_, fun m => saysMetadata_serialize (iter_perm m), .inl rfl⟩
  | typeScript => exact ⟨_, fun m => saysMetadata_serialize (entries_perm m), .inl rfl⟩
  | python => exact ⟨_, fun m => saysMetadata_serialize (List.Perm.refl _), .inr rfl⟩

theorem querySet_sparesForms : SparesForms querySet := by
  unfold SparesForms
  decide

/-- The query of a client carries the filter as it is written, and as a URL holds it. -/
theorem Client.search_carries (given : Serializers) (client : Client) (filter : Filter) :
    Carries (client.search given filter) filter ∧
      Carries (PercentEncoding.encode querySet (client.search given filter)) filter := by
  obtain ⟨encodedMetadata, hmetadata, hparameters⟩ :=
    client.parameters_form given.formUrlencoded filter
  constructor
  · apply carries_of_parse hmetadata hparameters
    rw [Client.search, parse_serialize, List.map_map]
    rfl
  · apply carries_of_parse hmetadata hparameters
    rw [Client.search, encode_serialize querySet_sparesForms, parse_serialize, List.map_map]
    rfl

/-! ## A query carries one filter -/

theorem toDigits_injective {m n : Nat} (h : Nat.toDigits 10 m = Nat.toDigits 10 n) : m = n := by
  rw [← Nat.ofDigitChars_toDigits (b := 10) (n := m) (by decide) (by decide), h,
    Nat.ofDigitChars_toDigits (by decide) (by decide)]

theorem asStr_injective {s t : SandboxState} (h : s.asStr.toList = t.asStr.toList) : s = t := by
  have h' : s.asStr = t.asStr := String.toList_inj.mp h
  revert h'
  cases s <;> cases t <;> decide

/-- An optional value is known by the values read. -/
theorem eq_of_toList_map {α β : Type} {f : α → β} (hf : ∀ a b, f a = f b → a = b)
    {x y : Option α} (h : (x.map f).toList = (y.map f).toList) : x = y := by
  cases x with
  | none =>
      cases y with
      | none => rfl
      | some b => cases h
  | some a =>
      cases y with
      | none => cases h
      | some b => rw [hf a b (List.cons.inj h).1]

/-- The value of a key is the one it is paired with. -/
theorem Metadata.value?_eq_some_iff (metadata : Metadata) (key value : List Char) :
    metadata.value? key = some value ↔ (key, value) ∈ metadata.pairs := by
  obtain ⟨pairs, nodup⟩ := metadata
  show pairs.lookup key = some value ↔ (key, value) ∈ pairs
  induction pairs with
  | nil => simp
  | cons p pairs ih =>
      obtain ⟨k, v⟩ := p
      rw [List.map_cons, List.nodup_cons] at nodup
      rw [List.lookup_cons, List.mem_cons]
      by_cases hk : key = k
      · subst hk
        rw [beq_self_eq_true]
        constructor
        · rintro h
          exact .inl (by rw [Option.some.inj h])
        · rintro (h | h)
          · rw [(Prod.mk.inj h).2]
          · exact absurd (List.mem_map_of_mem h) nodup.1
      · rw [beq_eq_false_iff_ne.mpr hk]
        dsimp only
        rw [ih nodup.2]
        constructor
        · exact .inr
        · rintro (h | h)
          · exact absurd (Prod.mk.inj h).1 hk
          · exact h

/-- A form says one map. -/
theorem SaysMetadata.value?_eq {form : List Char} {m m' : Metadata} (h : SaysMetadata form m)
    (h' : SaysMetadata form m') : m.value? = m'.value? := by
  have hperm := h.symm.trans h'
  have hmem : ∀ p, p ∈ m.pairs ↔ p ∈ m'.pairs := by
    have hinj : Function.Injective fun p : List Char × List Char => (bytes p.1, bytes p.2) := by
      rintro ⟨k, v⟩ ⟨k', v'⟩ heq
      obtain ⟨hk, hv⟩ := Prod.mk.inj heq
      obtain rfl : k = k' := PercentEncoding.bytes_injective hk
      obtain rfl : v = v' := PercentEncoding.bytes_injective hv
      rfl
    intro p
    rw [← List.mem_map_of_injective hinj, ← List.mem_map_of_injective hinj (l := m'.pairs)]
    exact hperm.mem_iff
  funext key
  apply Option.ext
  intro value
  rw [m.value?_eq_some_iff, m'.value?_eq_some_iff]
  exact hmem (key, value)

theorem Carries.same {query : List Char} {f g : Filter} (hf : Carries query f)
    (hg : Carries query g) : Same f g where
  state := eq_of_toList_map
    (fun _ _ h => asStr_injective (PercentEncoding.bytes_injective h))
    (hf.state.symm.trans hg.state)
  name := eq_of_toList_map (fun _ _ h => PercentEncoding.bytes_injective h)
    (hf.name.symm.trans hg.name)
  limit := eq_of_toList_map
    (fun _ _ h => toDigits_injective (PercentEncoding.bytes_injective h))
    (hf.limit.symm.trans hg.limit)
  cursor := eq_of_toList_map (fun _ _ h => PercentEncoding.bytes_injective h)
    (hf.cursor.symm.trans hg.cursor)
  metadata := by
    obtain ⟨form, hform, hvalues⟩ := hf.metadata
    obtain ⟨form', hform', hvalues'⟩ := hg.metadata
    rw [hvalues] at hvalues'
    cases hm : f.metadata with
    | none =>
        rw [hm] at hvalues'
        cases hm' : g.metadata with
        | none => rfl
        | some m' =>
            rw [hm'] at hvalues'
            cases hvalues'
    | some m =>
        rw [hm] at hvalues'
        cases hm' : g.metadata with
        | none =>
            rw [hm'] at hvalues'
            cases hvalues'
        | some m' =>
            rw [hm'] at hvalues'
            have hsame : form m = form' m' :=
              PercentEncoding.bytes_injective (List.cons.inj hvalues').1
            have hsays := hform' m'
            rw [← hsame] at hsays
            rw [Option.map_some, Option.map_some, (hform m).value?_eq hsays]

/-! ## The URL of a listing -/

/-- The path of the collection behind the path of a base URL. -/
def collectionPath (base : List Segment) : List Segment :=
  base ++ RequestUrl.Lookup.sandboxesGet.fixed

/-- The text of a query that a URL holds. -/
def heldQuery {H : Hosts} (url : Url H) : List Char := (url.query.map Subtype.val).getD []

/-- **Every client asks for its filter.** Whatever serializers it is given and behind any base URL,
the URL of a listing keeps its authority and its path, and its query carries the filter and no
other. -/
theorem filter_carried {H : Hosts} (given : Serializers) (client : Client) (filter : Filter)
    (a : Authority H) (base : List Segment) :
    ∃ url : Url H, parse H
        (a.text ++ (pathText (collectionPath base) ++ behindPath (client.search given filter))) =
          some url ∧
      url.toAuthority = a ∧ url.path = collectionPath base ∧ url.fragment = none ∧
      Carries (heldQuery url) filter ∧
      ∀ other, Carries (heldQuery url) other → Same filter other := by
  have hpath : collectionPath base ≠ [] :=
    List.append_ne_nil_of_right_ne_nil _ (List.cons_ne_nil _ _)
  obtain ⟨hwritten, hheld⟩ := client.search_carries given filter
  have hvisible : ∀ c ∈ client.search given filter, 0x20 < c.toNat ∧ c ≠ '#' :=
    serialize_visible (given.query_hash client) _
  generalize client.search given filter = search at hwritten hheld hvisible ⊢
  by_cases hempty : search = []
  · subst hempty
    refine ⟨a.at (collectionPath base) hpath, ?_, rfl, rfl, rfl, hwritten, fun _ => hwritten.same⟩
    rw [behindPath, if_pos rfl, List.append_nil]
    exact parse_pathText a hpath
  · have htidy : tidy search = search := tidy_of_visible fun c hc => (hvisible c hc).1
    have hno : ∀ c ∈ search, (c != '#') = true := fun c hc => bne_iff_ne.mpr (hvisible c hc).2
    obtain ⟨url, hparse, hauthority, hpathname, hquery, hfragment⟩ :=
      parse_pathEnd a hpath (c := '?') rfl search
    have hheldQuery : heldQuery url = PercentEncoding.encode querySet search := by
      rw [heldQuery, hquery, htidy, parseQuery, List.dropWhile_cons_of_neg (by decide)]
      show PercentEncoding.encode querySet (search.takeWhile (· != '#')) = _
      rw [List.takeWhile_eq_self_iff.mpr hno]
    have hnone : url.fragment = none := by
      rw [hfragment, htidy, parseFragment, List.dropWhile_cons_of_pos (by decide),
        List.dropWhile_eq_nil_iff.mpr hno]
    rw [← hheldQuery] at hheld
    refine ⟨url, ?_, hauthority, hpathname, hnone, hheld, fun _ => hheld.same⟩
    rw [behindPath, if_neg hempty]
    exact hparse

/-- The serializers as they are. -/
def Serializers.asGiven : Serializers where
  formUrlencoded := urlStandard
  query
    | .rust => urlStandard
    | .typeScript => FormUrlencoded.encodeURIComponent
    | .python => quotePlus
  query_hash client := by
    cases client with
    | rust => decide
    | typeScript => decide
    | python => decide

/-- Metadata with an index for a key, a space and a hash. -/
theorem filter_carried_hash :
    let filter : Filter := ⟨some .running, none,
      some ⟨[("b".toList, "x y".toList), ("1".toList, "#".toList)], by decide⟩, some 2, none⟩
    Client.search .asGiven .typeScript filter =
        "state=running&metadata=1%3D%2523%26b%3Dx%2By&limit=2".toList ∧
      ∃ url : Url letterHosts, Carries (heldQuery url) filter ∧
        ∀ other, Carries (heldQuery url) other → Same filter other := by
  intro filter
  refine ⟨by decide +kernel, ?_⟩
  obtain ⟨url, -, -, -, -, hcarries, hone⟩ := filter_carried .asGiven .typeScript filter
    RequestUrl.defaultHttp.base.toAuthority []
  exact ⟨url, hcarries, hone⟩

end FissionPlane.Sdk.ListFilter
