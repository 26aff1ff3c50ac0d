/-
# FissionPlane.Api.NodeServer -- from an incoming message to a web request

Node hands a request over as a message: header lines whose duplicates it has merged by name, and
the chunks of the body. `toWebRequest` turns that into a `Request`; `createNodeServer` sends it to
the auth handler by its path, or else through the gate of the host to the API handler. An exception
anywhere on the way is answered as an internal error.
-/
import FissionPlane.Lib.FetchHeaders
import FissionPlane.Lib.ProtoWire

namespace FissionPlane.Api

open FissionPlane.Lib.FetchHeaders
open FissionPlane.Lib.ProtoWire (Bytes)

/-! ## Incoming messages -/

/-- A header line as the HTTP parser lets it through: a token, and a value without control bytes
that end a line. -/
structure RawHeader where
  name : String
  value : String
  name_valid : isHeaderName (lower name) = true
  value_valid : isHeaderValue value = true

/-- A merged header: `set-cookie` is always a list. -/
inductive IncomingField where
  | one (value : String)
  | many (values : List String)
  deriving DecidableEq

def IncomingField.values : IncomingField → List String
  | .one value => [value]
  | .many values => values

/-- Headers of which Node keeps the first line only. -/
def firstLineOnly : List String :=
  ["age", "authorization", "content-length", "content-type", "etag", "expires", "from", "host",
    "if-modified-since", "if-unmodified-since", "last-modified", "location", "max-forwards",
    "proxy-authorization", "referer", "retry-after", "server", "user-agent"]

/-- A further line of the header `name`, or its first. -/
def mergeField (name : String) (held : Option IncomingField) (value : String) : IncomingField :=
  match held with
  | none => if name = "set-cookie" then .many [value] else .one value
  | some (.many values) => .many (values ++ [value])
  | some (.one old) =>
      if name ∈ firstLineOnly then .one old
      else if name = "cookie" then .one (old ++ "; " ++ value)
      else .one (old ++ ", " ++ value)

/-- Add one line to the headers merged so far, under its lower-case name. -/
def addHeaderLine (name value : String) :
    List (String × IncomingField) → List (String × IncomingField)
  | [] => [(name, mergeField name none value)]
  | (n, field) :: rest =>
      if n = name then (n, mergeField name (some field) value) :: rest
      else (n, field) :: addHeaderLine name value rest

def mergeHeaders (raw : List RawHeader) : List (String × IncomingField) :=
  raw.foldl (fun dest h => addHeaderLine (lower h.name) h.value dest) []

/-- The property `name` of the merged headers. -/
def fieldOf (name : String) : List (String × IncomingField) → Option IncomingField
  | [] => none
  | (n, field) :: rest => if n = name then some field else fieldOf name rest

/-- A message as Node's parser hands it to the host: `rawHeaders` are the lines it keeps, within its
limits on their number and size. -/
structure IncomingMessage where
  method : String
  url : Option String
  rawHeaders : List RawHeader
  body : List Bytes

def IncomingMessage.headers (message : IncomingMessage) : List (String × IncomingField) :=
  mergeHeaders message.rawHeaders

/-! ## Web requests -/

structure WebRequest where
  method : String
  url : String
  headers : Headers
  body : Option Bytes

/-- A parsed URL: its serialization and its path. -/
structure Url where
  href : String
  pathname : String

/-- `set` for a single value, `append` for each item of a list. -/
def setField (headers : Headers) (name : String) : IncomingField → Option Headers
  | .one value => headers.set name value
  | .many values => values.foldlM (fun h item => h.append name item) headers

def toHeaders (incoming : List (String × IncomingField)) : Option Headers :=
  incoming.foldlM (fun headers entry => setField headers entry.1 entry.2) Headers.empty

def readBody (message : IncomingMessage) : Option Bytes :=
  if message.method = "GET" ∨ message.method = "HEAD" then none
  else if message.body = [] then none
  else some message.body.flatten

/-- The value of `request.headers.host`. -/
def hostHeader (headers : List (String × IncomingField)) : Option String :=
  match fieldOf "host" headers with
  | some (.one value) => some value
  | _ => none

/-- Methods the `Request` constructor refuses. -/
def forbiddenMethods : List String := ["CONNECT", "TRACE", "TRACK"]

/-- `none` when a constructor throws; `parseUrl` is the platform's URL parser. -/
def toWebRequest (parseUrl : String → Option Url) (message : IncomingMessage) (port : Nat) :
    Option WebRequest := do
  let host := (hostHeader message.headers).getD ("localhost:" ++ toString port)
  let url ← parseUrl ("http://" ++ host ++ message.url.getD "/")
  let headers ← toHeaders message.headers
  if message.method ∈ forbiddenMethods then none
  else some ⟨message.method, url.href, headers, readBody message⟩

/-! ## Serving -/

/-- A response the host itself makes: the body of a domain error and its status. -/
structure DomainError where
  tag : String
  code : String
  message : String
  status : Nat
  deriving DecidableEq, Repr

def unauthenticatedError : DomainError :=
  ⟨"UnauthenticatedError", "UNAUTHENTICATED", "You are not authenticated", 401⟩

def unauthorizedError : DomainError :=
  ⟨"UnauthorizedError", "UNAUTHORIZED", "You are not authorized to perform this action", 403⟩

def activeOrganizationRequiredError : DomainError :=
  ⟨"ActiveOrganizationRequiredError", "ACTIVE_ORGANIZATION_REQUIRED",
    "Select an active organization before calling this API", 403⟩

def internalError : DomainError := ⟨"InternalError", "INTERNAL", "Internal server error", 500⟩

/-- What a gate makes of a request, when it does not throw. -/
inductive Authorization where
  | request (r : WebRequest)
  | response (e : DomainError)
  | undefined

/-- Where a request ends up: with the auth handler, the API handler, or answered by the host. -/
inductive Served where
  | auth (r : WebRequest)
  | api (r : WebRequest)
  | answered (e : DomainError)

/-- The options of a server that decide where a request goes. -/
structure NodeServerOptions where
  authPath : String
  authorizeApi : WebRequest → Option Authorization
  port : Nat

def createNodeServer (parseUrl : String → Option Url) (options : NodeServerOptions)
    (message : IncomingMessage) : Served :=
  match toWebRequest parseUrl message options.port with
  | none => .answered internalError
  | some webRequest =>
      match parseUrl webRequest.url with
      | none => .answered internalError
      | some url =>
          -- auth routes see the request as it came in
          if options.authPath.toList.isPrefixOf url.pathname.toList then .auth webRequest
          else
            match options.authorizeApi webRequest with
            | none => .answered internalError
            | some (.response e) => .answered e
            | some (.request r) => .api r
            | some .undefined => .api webRequest

/-! ## Merged headers, one name at a time -/

theorem fieldOf_addHeaderLine (n name value : String) (dest : List (String × IncomingField)) :
    fieldOf n (addHeaderLine name value dest) =
      if name = n then some (mergeField name (fieldOf name dest) value) else fieldOf n dest := by
  induction dest with
  | nil => rfl
  | cons entry rest ih =>
      obtain ⟨m, field⟩ := entry
      rw [addHeaderLine]
      by_cases hm : m = name
      · subst hm
        by_cases hn : m = n
        · subst hn
          simp only [fieldOf, if_true]
        · simp only [fieldOf, if_true, if_neg hn]
      · by_cases hn : m = n
        · subst hn
          simp only [fieldOf, if_neg hm, if_true, if_neg (Ne.symm hm)]
        · simp only [fieldOf, if_neg hm, if_neg hn, ih]

/-- What is merged under one name depends on the lines of that name only. -/
theorem fieldOf_mergeHeaders (n : String) (raw : List RawHeader) :
    fieldOf n (mergeHeaders raw) =
      (raw.filter fun h => lower h.name = n).foldl
        (fun held h => some (mergeField n held h.value)) none := by
  have hfold : ∀ dest : List (String × IncomingField),
      fieldOf n (raw.foldl (fun dest h => addHeaderLine (lower h.name) h.value dest) dest) =
        (raw.filter fun h => lower h.name = n).foldl
          (fun held h => some (mergeField n held h.value)) (fieldOf n dest) := by
    induction raw with
    | nil => exact fun _ => rfl
    | cons h raw ih =>
        intro dest
        rw [List.foldl_cons, ih, fieldOf_addHeaderLine, List.filter_cons]
        by_cases hn : lower h.name = n
        · rw [if_pos hn, if_pos (decide_eq_true hn), List.foldl_cons, hn]
        · rw [if_neg hn, if_neg (fun hd => hn (of_decide_eq_true hd))]
  exact hfold []

/-! ## Merged headers are well formed -/

/-- A header the `Headers` object takes: a lower-case token with valid values. -/
def Accepted (entry : String × IncomingField) : Prop :=
  isHeaderName entry.1 = true ∧ lower entry.1 = entry.1 ∧
    ∀ v ∈ entry.2.values, isHeaderValue v = true

theorem mergeField_valid {name value : String} {held : Option IncomingField}
    (hheld : ∀ field ∈ held, ∀ v ∈ field.values, isHeaderValue v = true)
    (hvalue : isHeaderValue value = true) :
    ∀ v ∈ (mergeField name held value).values, isHeaderValue v = true := by
  cases held with
  | none =>
      rw [mergeField]
      split <;> simpa [IncomingField.values] using hvalue
  | some field =>
      have hfield := hheld field rfl
      cases field with
      | many values =>
          intro v hv
          rcases List.mem_append.mp hv with hv | hv
          · exact hfield v hv
          · rw [List.mem_singleton.mp hv]
            exact hvalue
      | one old =>
          have hold : isHeaderValue old = true := hfield old (List.mem_singleton.mpr rfl)
          rw [mergeField]
          split
          · simpa [IncomingField.values] using hold
          · split
            · simpa [IncomingField.values] using
                isHeaderValue_append (isHeaderValue_append hold (by decide)) hvalue
            · simpa [IncomingField.values] using
                isHeaderValue_append (isHeaderValue_append hold (by decide)) hvalue

theorem addHeaderLine_accepted {name value : String} {dest : List (String × IncomingField)}
    (hdest : ∀ entry ∈ dest, Accepted entry) (hname : isHeaderName name = true)
    (hlower : lower name = name) (hvalue : isHeaderValue value = true) :
    ∀ entry ∈ addHeaderLine name value dest, Accepted entry := by
  induction dest with
  | nil =>
      intro entry hentry
      rw [List.mem_singleton.mp hentry]
      have hnone : ∀ field ∈ (none : Option IncomingField), ∀ v ∈ field.values,
          isHeaderValue v = true := fun _ h => (by cases h)
      exact ⟨hname, hlower, mergeField_valid hnone hvalue⟩
  | cons head rest ih =>
      obtain ⟨m, field⟩ := head
      have hhead : Accepted (m, field) := hdest _ List.mem_cons_self
      have hrest : ∀ entry ∈ rest, Accepted entry := fun e he =>
        hdest e (List.mem_cons_of_mem _ he)
      intro entry hentry
      rw [addHeaderLine] at hentry
      split at hentry
      · rcases List.mem_cons.mp hentry with rfl | hentry
        · have hheld : ∀ f ∈ some field, ∀ v ∈ f.values, isHeaderValue v = true := by
            intro f hf
            obtain rfl := Option.some.inj hf
            exact hhead.2.2
          exact ⟨hhead.1, hhead.2.1, mergeField_valid hheld hvalue⟩
        · exact hrest entry hentry
      · rcases List.mem_cons.mp hentry with rfl | hentry
        · exact hhead
        · exact ih hrest entry hentry

theorem addHeaderLine_keys (name value : String) (dest : List (String × IncomingField)) :
    ∀ n, n ∈ (addHeaderLine name value dest).map Prod.fst ↔ n = name ∨ n ∈ dest.map Prod.fst := by
  induction dest with
  | nil => simp [addHeaderLine]
  | cons head rest ih =>
      obtain ⟨m, field⟩ := head
      intro n
      rw [addHeaderLine]
      split
      · next hm =>
          subst hm
          simp
      · rw [List.map_cons, List.mem_cons, ih, List.map_cons, List.mem_cons]
        exact or_left_comm

theorem addHeaderLine_nodup {name value : String} {dest : List (String × IncomingField)}
    (hdest : (dest.map Prod.fst).Nodup) :
    ((addHeaderLine name value dest).map Prod.fst).Nodup := by
  induction dest with
  | nil => simp [addHeaderLine]
  | cons head rest ih =>
      obtain ⟨m, field⟩ := head
      rw [List.map_cons, List.nodup_cons] at hdest
      rw [addHeaderLine]
      split
      · rw [List.map_cons, List.nodup_cons]
        exact hdest
      · next hm =>
          rw [List.map_cons, List.nodup_cons, addHeaderLine_keys]
          refine ⟨?_, ih hdest.2⟩
          rintro (h | h)
          · exact hm h
          · exact hdest.1 h

theorem mergeHeaders_spec (raw : List RawHeader) :
    ((mergeHeaders raw).map Prod.fst).Nodup ∧ ∀ entry ∈ mergeHeaders raw, Accepted entry := by
  have hfold : ∀ dest : List (String × IncomingField), (dest.map Prod.fst).Nodup →
      (∀ entry ∈ dest, Accepted entry) →
      ((raw.foldl (fun dest h => addHeaderLine (lower h.name) h.value dest) dest).map
        Prod.fst).Nodup ∧
      ∀ entry ∈ raw.foldl (fun dest h => addHeaderLine (lower h.name) h.value dest) dest,
        Accepted entry := by
    induction raw with
    | nil => exact fun _ hn ha => ⟨hn, ha⟩
    | cons h raw ih =>
        intro dest hn ha
        exact ih _ (addHeaderLine_nodup hn)
          (addHeaderLine_accepted ha h.name_valid (lower_lower h.name) h.value_valid)
  exact hfold [] List.nodup_nil fun _ h => absurd h List.not_mem_nil

/-! ## The headers of a web request -/

theorem foldlM_append (name : String) (hname : isHeaderName name = true) :
    ∀ (values : List String) (h : Headers), (∀ v ∈ values, isHeaderValue v = true) →
      values.foldlM (fun h item => h.append name item) h =
        some (h.put name (h.values (lower name) ++ values.map normalize))
  | [], h, _ => by
      rw [List.foldlM_nil, List.map_nil, List.append_nil, Headers.put_eq_self rfl]
      rfl
  | v :: values, h, hvalid => by
      have hv : isHeaderValue (normalize v) = true :=
        isHeaderValue_normalize (hvalid v List.mem_cons_self)
      have happend : h.append name v =
          some (h.put name (h.values (lower name) ++ [normalize v])) := by
        rw [Headers.append, hname, hv]
        rfl
      rw [List.foldlM_cons, happend, Option.bind_eq_bind, Option.bind_some,
        foldlM_append name hname values _ fun w hw => hvalid w (List.mem_cons_of_mem _ hw),
        Headers.put_values_self, List.map_cons, List.append_assoc, List.singleton_append]
      refine congrArg some (Headers.ext (funext fun n => ?_))
      by_cases hn : n = lower name
      · rw [hn, Headers.put_values_self, Headers.put_values_self]
      · rw [Headers.put_values_ne _ _ hn, Headers.put_values_ne _ _ hn,
          Headers.put_values_ne _ _ hn]

/-- A header not yet there gets exactly the normalized values of its entry. -/
theorem setField_eq {h : Headers} {entry : String × IncomingField} (hacc : Accepted entry)
    (hnew : h.values entry.1 = []) :
    setField h entry.1 entry.2 = some (h.put entry.1 (entry.2.values.map normalize)) := by
  obtain ⟨hname, hlower, hvalid⟩ := hacc
  obtain ⟨name, field⟩ := entry
  dsimp only at hname hlower hvalid hnew ⊢
  cases field with
  | one v =>
      have hv : isHeaderValue (normalize v) = true :=
        isHeaderValue_normalize (hvalid v (List.mem_singleton.mpr rfl))
      rw [setField, Headers.set, hname, hv]
      rfl
  | many vs =>
      rw [setField, foldlM_append name hname vs h hvalid, hlower, hnew]
      rfl

/-- The values of one name after `toHeaders`. -/
def valuesOf (name : String) (entries : List (String × IncomingField)) : List String :=
  match fieldOf name entries with
  | none => []
  | some field => field.values.map normalize

theorem toHeaders_from : ∀ (entries : List (String × IncomingField)) (h : Headers),
    (entries.map Prod.fst).Nodup → (∀ entry ∈ entries, Accepted entry) →
    (∀ entry ∈ entries, h.values entry.1 = []) →
    entries.foldlM (fun headers entry => setField headers entry.1 entry.2) h =
      some ⟨fun n => if n ∈ entries.map Prod.fst then valuesOf n entries else h.values n⟩
  | [], h, _, _, _ => by
      simp
  | entry :: rest, h, hnodup, hacc, hnew => by
      rw [List.map_cons, List.nodup_cons] at hnodup
      have hentry : Accepted entry := hacc entry List.mem_cons_self
      have hne : ∀ e ∈ rest, e.1 ≠ entry.1 := fun e he heq =>
        hnodup.1 (heq ▸ List.mem_map_of_mem he)
      have hrest : ∀ e ∈ rest,
          (h.put entry.1 (entry.2.values.map normalize)).values e.1 = [] := by
        intro e he
        rw [Headers.put_values_ne h _ (by rw [hentry.2.1]; exact hne e he)]
        exact hnew e (List.mem_cons_of_mem _ he)
      rw [List.foldlM_cons, setField_eq hentry (hnew entry List.mem_cons_self),
        Option.bind_eq_bind, Option.bind_some, toHeaders_from rest _ hnodup.2
          (fun e he => hacc e (List.mem_cons_of_mem _ he)) hrest]
      refine congrArg some (Headers.ext (funext fun n => ?_))
      dsimp only
      by_cases hn : n = entry.1
      · subst hn
        rw [if_neg hnodup.1, if_pos (by rw [List.map_cons]; exact List.mem_cons_self),
          valuesOf, fieldOf, if_pos rfl]
        have hself := Headers.put_values_self h entry.1 (entry.2.values.map normalize)
        rw [hentry.2.1] at hself
        exact hself
      · have hput : (h.put entry.1 (entry.2.values.map normalize)).values n = h.values n :=
          Headers.put_values_ne h _ (by rw [hentry.2.1]; exact hn)
        have hfield : valuesOf n (entry :: rest) = valuesOf n rest := by
          rw [valuesOf, fieldOf, if_neg (Ne.symm hn), valuesOf]
        have hmem : n ∈ (entry :: rest).map Prod.fst ↔ n ∈ rest.map Prod.fst := by
          rw [List.map_cons, List.mem_cons]
          exact or_iff_right hn
        rw [hput, hfield]
        simp only [hmem]

theorem fieldOf_eq_none {n : String} {entries : List (String × IncomingField)}
    (h : n ∉ entries.map Prod.fst) : fieldOf n entries = none := by
  induction entries with
  | nil => rfl
  | cons entry rest ih =>
      obtain ⟨m, field⟩ := entry
      rw [List.map_cons, List.mem_cons, not_or] at h
      rw [fieldOf, if_neg (Ne.symm h.1)]
      exact ih h.2

/-- The headers of a message are never refused, and hold the merged values by name. -/
theorem toHeaders_mergeHeaders (raw : List RawHeader) :
    toHeaders (mergeHeaders raw) = some ⟨fun n => valuesOf n (mergeHeaders raw)⟩ := by
  obtain ⟨hnodup, hacc⟩ := mergeHeaders_spec raw
  rw [toHeaders, toHeaders_from _ _ hnodup hacc fun _ _ => rfl]
  refine congrArg some (Headers.ext (funext fun n => ?_))
  dsimp only
  split
  · rfl
  · next hn =>
      rw [valuesOf, fieldOf_eq_none hn]
      rfl

end FissionPlane.Api
