/-
# FissionPlane.Api.Gate -- the trusted subject channel of the console and the backoffice

The host resolves the caller's session before the API runs and hands the result over in three
headers of its own. Each gate strips those headers from the incoming request first, looks the
session up in what is left, and only then may write them; the `OrganizationAuthentication`
middleware reads nothing else. So a caller who sends the headers himself changes nothing, whichever
way the auth path, the guarded-route matcher, the session lookup and the router split the request.
-/
import FissionPlane.Api.NodeServer
import FissionPlane.Lib.Utf16

namespace FissionPlane.Api

open FissionPlane.Lib FissionPlane.Lib.FetchHeaders

/-! ## Members -/

inductive OrganizationRole where
  | owner
  | admin
  | developer
  | viewer
  deriving DecidableEq, Repr

def OrganizationRole.text : OrganizationRole → String
  | .owner => "owner"
  | .admin => "admin"
  | .developer => "developer"
  | .viewer => "viewer"

/-- The literals the role schema accepts. -/
def decodeRole (text : String) : Option OrganizationRole :=
  [.owner, .admin, .developer, .viewer].find? fun role => role.text = text

/-- Bounds of `AuthOrganizationIdSchema` and of `UserIdSchema`, in JavaScript length. -/
def isBoundedId (id : String) : Bool :=
  decide (1 ≤ Utf16.length id.toList) && decide (Utf16.length id.toList ≤ 255)

/-- Per-request caller identity; its identifiers are within the bounds of their schemas. -/
structure AuthenticatedMember where
  organizationId : String
  role : OrganizationRole
  userId : String
  organizationId_bounded : isBoundedId organizationId = true
  userId_bounded : isBoundedId userId = true
  deriving DecidableEq

/-- `Schema.decodeUnknownEither(AuthenticatedMemberSchema)`; an absent field is refused. -/
def decodeMember (organizationId role userId : Option String) : Option AuthenticatedMember :=
  match organizationId, role.bind decodeRole, userId with
  | some organizationId, some role, some userId =>
      if ho : isBoundedId organizationId = true then
        if hu : isBoundedId userId = true then some ⟨organizationId, role, userId, ho, hu⟩
        else none
      else none
  | _, _, _ => none

/-! ## The subject headers -/

def organizationIdHeader : String := "x-fissionplane-auth-organization-id"
def organizationRoleHeader : String := "x-fissionplane-auth-organization-role"
def userIdHeader : String := "x-fissionplane-auth-user-id"

def authenticatedMemberHeaders : List String :=
  [organizationIdHeader, organizationRoleHeader, userIdHeader]

/-- Drops any caller-supplied subject headers. -/
def withoutAuthenticatedMember (request : WebRequest) : WebRequest :=
  let result := authenticatedMemberHeaders.foldl
    (fun (acc : Headers × Bool) header =>
      if acc.1.has header then (acc.1.delete header, true) else acc)
    (request.headers, false)
  if result.2 then { request with headers := result.1 } else request

/-- Replaces the subject headers with the identity the host just resolved. -/
def withAuthenticatedMember (request : WebRequest) (subject : AuthenticatedMember) :
    Option WebRequest := do
  let headers ← request.headers.set userIdHeader subject.userId
  let headers ← headers.set organizationIdHeader subject.organizationId
  let headers ← headers.set organizationRoleHeader subject.role.text
  some { request with headers := headers }

/-! ## The gates of the two hosts -/

structure Session where
  userId : String
  userRole : Option String
  activeOrganizationId : Option String

/-- The session lookups of a host, as functions of the headers they are given; `none` throws. -/
structure Auth where
  getSession : Headers → Option (Option Session)
  getActiveMemberRole : Headers → String → Option (Option String)

/-- The console's gate. -/
def resolveAuthenticatedMember (auth : Auth) (requiresAuthenticatedMember : WebRequest → Bool)
    (incoming : WebRequest) : Option Authorization :=
  let request := withoutAuthenticatedMember incoming
  if requiresAuthenticatedMember request = false then some (.request request)
  else
    match auth.getSession request.headers with
    | none => none
    | some none => some (.response unauthenticatedError)
    | some (some session) =>
        match session.activeOrganizationId with
        | none => some (.response activeOrganizationRequiredError)
        | some organizationId =>
            -- a lookup that throws is a caller without a role
            let role := (auth.getActiveMemberRole request.headers organizationId).join
            match decodeMember (some organizationId) role (some session.userId) with
            | none => some (.response unauthorizedError)
            -- the subject goes into the request that was stripped, never into the incoming one
            | some subject => (withAuthenticatedMember request subject).map .request

/-- The backoffice's gate. -/
def authorizeOperator (auth : Auth) (incoming : WebRequest) : Option Authorization :=
  let request := withoutAuthenticatedMember incoming
  match auth.getSession request.headers with
  | none => none
  | some none => some (.response unauthenticatedError)
  | some (some session) =>
      if session.userRole = some "admin" then some (.request request)
      else some (.response unauthorizedError)

section Hosts

variable (parseUrl : String → Option Url) (auth : Auth) (port : Nat)

def consoleServer (requiresAuthenticatedMember : WebRequest → Bool) : IncomingMessage → Served :=
  createNodeServer parseUrl
    ⟨"/api/auth/", resolveAuthenticatedMember auth requiresAuthenticatedMember, port⟩

def backofficeServer : IncomingMessage → Served :=
  createNodeServer parseUrl ⟨"/api/auth/", authorizeOperator auth, port⟩

end Hosts

/-! ## The API handler -/

/-- `OrganizationAuthenticationLive`: decodes the trusted headers, or fails the request. -/
def organizationAuthenticationLive (request : WebRequest) :
    Except DomainError AuthenticatedMember :=
  match decodeMember (request.headers.get organizationIdHeader)
      (request.headers.get organizationRoleHeader) (request.headers.get userIdHeader) with
  | none => .error unauthenticatedError
  | some subject => .ok subject

/-- Where a router sends a request: to a handler guarded by the middleware, or anywhere else. -/
inductive Route where
  | guarded
  | unguarded
  deriving DecidableEq

/-- What the API handler does: run the guarded handler with a subject, refuse, or neither. -/
inductive Ran where
  | guarded (subject : AuthenticatedMember)
  | refused (e : DomainError)
  | unguarded
  deriving DecidableEq

def apiHandler (router : WebRequest → Route) (request : WebRequest) : Ran :=
  match router request with
  | .unguarded => .unguarded
  | .guarded =>
      match organizationAuthenticationLive request with
      | .error e => .refused e
      | .ok subject => .guarded subject

/-! ## Stripping -/

/-- Headers without the three subject headers. -/
def stripped (h : Headers) : Headers :=
  ⟨fun n => if n ∈ authenticatedMemberHeaders then [] else h.values n⟩

theorem lower_subject {n : String} (h : n ∈ authenticatedMemberHeaders) : lower n = n := by
  revert n
  decide

/-- Deleting only what is there comes to deleting all, and the flag says whether anything was. -/
theorem foldl_deletePresent (names : List String) (h : Headers) (f : Bool) :
    let result := names.foldl (fun (acc : Headers × Bool) header =>
      if acc.1.has header then (acc.1.delete header, true) else acc) (h, f)
    result.1 = names.foldl Headers.delete h ∧ (result.2 = false → f = false ∧ result.1 = h) := by
  induction names generalizing h f with
  | nil => exact ⟨rfl, fun hf => ⟨hf, rfl⟩⟩
  | cons name names ih =>
      rw [List.foldl_cons, List.foldl_cons]
      by_cases hhas : h.has name = true
      · rw [if_pos hhas]
        obtain ⟨hval, hflag⟩ := ih (h.delete name) true
        exact ⟨hval, fun hf => absurd (hflag hf).1 (by decide)⟩
      · rw [if_neg hhas, Headers.delete_eq_self (Bool.eq_false_iff.mpr hhas)]
        exact ih h f

/-- Deleting only what is there, and only then copying the request, strips either way. -/
theorem withoutAuthenticatedMember_eq (request : WebRequest) :
    withoutAuthenticatedMember request =
      { request with headers := stripped request.headers } := by
  obtain ⟨hval, hflag⟩ := foldl_deletePresent authenticatedMemberHeaders request.headers false
  have hstripped : authenticatedMemberHeaders.foldl Headers.delete request.headers =
      stripped request.headers := by
    ext1
    funext n
    exact Headers.foldl_delete_values (fun _ => lower_subject) request.headers n
  rw [withoutAuthenticatedMember]
  split
  · rw [hval, hstripped]
  · next hf =>
      -- nothing was deleted, so the stripped headers are the request's own
      have heq := (hflag (Bool.eq_false_iff.mpr hf)).2
      rw [hval, hstripped] at heq
      rw [heq]

/-! ## Two requests that differ in the subject headers only -/

def RawHeader.isSubject (h : RawHeader) : Bool := authenticatedMemberHeaders.contains (lower h.name)

/-- The messages agree but for header lines that carry a subject header in any letter case. -/
structure SameButSubject (m₁ m₂ : IncomingMessage) : Prop where
  method : m₁.method = m₂.method
  url : m₁.url = m₂.url
  body : m₁.body = m₂.body
  headers : m₁.rawHeaders.filter (fun h => !h.isSubject) =
    m₂.rawHeaders.filter fun h => !h.isSubject

/-- Both with the auth handler, the same request with the API handler, or the same answer. -/
def Served.Same : Served → Served → Prop
  | .auth _, .auth _ => True
  | .api r₁, .api r₂ => r₁ = r₂
  | .answered e₁, .answered e₂ => e₁ = e₂
  | _, _ => False

theorem filter_name_eq {n : String} (hn : n ∉ authenticatedMemberHeaders)
    (raw : List RawHeader) :
    (raw.filter fun h => !h.isSubject).filter (fun h => lower h.name = n) =
      raw.filter fun h => lower h.name = n := by
  rw [List.filter_filter]
  refine List.filter_congr fun h _ => ?_
  by_cases hname : lower h.name = n
  · have hnot : h.isSubject = false := by
      rw [RawHeader.isSubject, hname, List.contains_eq_mem]
      exact decide_eq_false hn
    simp [hname, hnot]
  · simp [hname]

/-- A header that is no subject header is merged the same way in both. -/
theorem SameButSubject.fieldOf_eq {m₁ m₂ : IncomingMessage} (h : SameButSubject m₁ m₂) {n : String}
    (hn : n ∉ authenticatedMemberHeaders) : fieldOf n m₁.headers = fieldOf n m₂.headers := by
  rw [IncomingMessage.headers, IncomingMessage.headers, fieldOf_mergeHeaders,
    fieldOf_mergeHeaders, ← filter_name_eq hn m₁.rawHeaders, h.headers, filter_name_eq hn]

theorem SameButSubject.readBody_eq {m₁ m₂ : IncomingMessage} (h : SameButSubject m₁ m₂) :
    readBody m₁ = readBody m₂ := by
  rw [readBody, readBody, h.method, h.body]

/-- Both messages become a request, or neither does; the requests agree once stripped. -/
theorem SameButSubject.toWebRequest {m₁ m₂ : IncomingMessage} (h : SameButSubject m₁ m₂)
    (parseUrl : String → Option Url) (port : Nat) :
    (Api.toWebRequest parseUrl m₁ port = none ∧ Api.toWebRequest parseUrl m₂ port = none) ∨
      ∃ r₁ r₂, Api.toWebRequest parseUrl m₁ port = some r₁ ∧
        Api.toWebRequest parseUrl m₂ port = some r₂ ∧ r₁.url = r₂.url ∧
        withoutAuthenticatedMember r₁ = withoutAuthenticatedMember r₂ := by
  -- the URL depends on the host header alone, which is no subject header
  have hhost : hostHeader m₁.headers = hostHeader m₂.headers := by
    rw [hostHeader, hostHeader, h.fieldOf_eq (by decide)]
  have hheaders : ∀ m : IncomingMessage, toHeaders m.headers =
      some ⟨fun n => valuesOf n m.headers⟩ := fun m => toHeaders_mergeHeaders m.rawHeaders
  rw [Api.toWebRequest, Api.toWebRequest, hhost, h.url, hheaders, hheaders, h.method]
  cases parseUrl ("http://" ++ (hostHeader m₂.headers).getD ("localhost:" ++ toString port) ++
      m₂.url.getD "/") with
  | none => exact .inl ⟨rfl, rfl⟩
  | some url =>
      simp only [Option.bind_eq_bind, Option.bind_some]
      by_cases hmethod : m₂.method ∈ forbiddenMethods
      · rw [if_pos hmethod, if_pos hmethod]
        exact .inl ⟨rfl, rfl⟩
      · rw [if_neg hmethod, if_neg hmethod]
        refine .inr ⟨_, _, rfl, rfl, rfl, ?_⟩
        rw [withoutAuthenticatedMember_eq, withoutAuthenticatedMember_eq, h.readBody_eq]
        congr 1
        ext1
        funext n
        simp only [stripped]
        split
        · rfl
        · next hn => simp only [valuesOf, h.fieldOf_eq hn]

/-- A gate that looks only at the stripped request, and always decides, serves both the same. -/
theorem createNodeServer_same {parseUrl : String → Option Url} {options : NodeServerOptions}
    (hgate : ∀ r₁ r₂, withoutAuthenticatedMember r₁ = withoutAuthenticatedMember r₂ →
      options.authorizeApi r₁ = options.authorizeApi r₂)
    (hdecides : ∀ r, options.authorizeApi r ≠ some .undefined) {m₁ m₂ : IncomingMessage}
    (h : SameButSubject m₁ m₂) :
    (createNodeServer parseUrl options m₁).Same (createNodeServer parseUrl options m₂) := by
  rw [createNodeServer, createNodeServer]
  obtain ⟨h₁, h₂⟩ | ⟨r₁, r₂, h₁, h₂, hurl, hstrip⟩ := h.toWebRequest parseUrl options.port
  · rw [h₁, h₂]
    exact rfl
  · rw [h₁, h₂]
    dsimp only
    rw [hurl, hgate r₁ r₂ hstrip]
    split
    · exact rfl
    split
    · trivial
    · cases hauth : options.authorizeApi r₂ with
      | none => exact rfl
      | some authorization =>
          cases authorization with
          | request r => exact rfl
          | response e => exact rfl
          | undefined => exact absurd hauth (hdecides r₂)

/-- The gate wrote the subject headers of `r` itself, from the session of what is left of the
request `incoming` once stripped. -/
def WrittenByGate (auth : Auth) (incoming r : WebRequest) (member : AuthenticatedMember) : Prop :=
  ∃ session organizationId,
    auth.getSession (withoutAuthenticatedMember incoming).headers = some (some session) ∧
    session.activeOrganizationId = some organizationId ∧
    decodeMember (some organizationId)
      (auth.getActiveMemberRole (withoutAuthenticatedMember incoming).headers
        organizationId).join (some session.userId) = some member ∧
    withAuthenticatedMember (withoutAuthenticatedMember incoming) member = some r

/-- The console's gate answers, forwards the stripped request, or forwards what it wrote. -/
theorem resolveAuthenticatedMember_cases {auth : Auth} {requires : WebRequest → Bool}
    {incoming : WebRequest} {a : Authorization}
    (h : resolveAuthenticatedMember auth requires incoming = some a) :
    (∃ e, a = .response e) ∨ a = .request (withoutAuthenticatedMember incoming) ∨
      ∃ r member, a = .request r ∧ WrittenByGate auth incoming r member := by
  rw [resolveAuthenticatedMember] at h
  split at h
  · exact .inr (.inl (Option.some.inj h).symm)
  · split at h
    · cases h
    · exact .inl ⟨_, (Option.some.inj h).symm⟩
    · next session hsession =>
        split at h
        · exact .inl ⟨_, (Option.some.inj h).symm⟩
        · next organizationId horganization =>
            dsimp only at h
            split at h
            · exact .inl ⟨_, (Option.some.inj h).symm⟩
            · next member hmember =>
                obtain ⟨r, hr, rfl⟩ := Option.map_eq_some_iff.mp h
                exact .inr (.inr ⟨r, member, rfl, session, organizationId, hsession,
                  horganization, hmember, hr⟩)

/-- The backoffice's gate answers, or forwards the stripped request. -/
theorem authorizeOperator_cases {auth : Auth} {incoming : WebRequest} {a : Authorization}
    (h : authorizeOperator auth incoming = some a) :
    (∃ e, a = .response e) ∨ a = .request (withoutAuthenticatedMember incoming) := by
  rw [authorizeOperator] at h
  split at h
  · cases h
  · exact .inl ⟨_, (Option.some.inj h).symm⟩
  · split at h
    · exact .inr (Option.some.inj h).symm
    · exact .inl ⟨_, (Option.some.inj h).symm⟩

/-! ## What the API handler may trust -/

/-- A request the API handler gets went through the gate, unless the gate decided nothing. -/
theorem createNodeServer_api {parseUrl : String → Option Url} {options : NodeServerOptions}
    {m : IncomingMessage} {r : WebRequest}
    (h : createNodeServer parseUrl options m = .api r) :
    ∃ incoming, toWebRequest parseUrl m options.port = some incoming ∧
      (options.authorizeApi incoming = some (.request r) ∨
        options.authorizeApi incoming = some .undefined) := by
  rw [createNodeServer] at h
  split at h
  · cases h
  · next incoming hincoming =>
      refine ⟨incoming, hincoming, ?_⟩
      split at h
      · cases h
      split at h
      · cases h
      · split at h
        · cases h
        · cases h
        · next r' hr' =>
            cases h
            exact .inl hr'
        · next hundefined => exact .inr hundefined

/-- A request without subject headers is refused by the middleware. -/
theorem organizationAuthenticationLive_stripped (r : WebRequest) :
    organizationAuthenticationLive (withoutAuthenticatedMember r) =
      .error unauthenticatedError := by
  have hmem : organizationIdHeader ∈ authenticatedMemberHeaders := List.mem_cons_self
  have hvalues : (stripped r.headers).values (lower organizationIdHeader) = [] := by
    rw [lower_subject hmem]
    simp only [stripped, if_pos hmem]
  have hnone : (stripped r.headers).get organizationIdHeader = none := by
    rw [Headers.get, hvalues]
  rw [withoutAuthenticatedMember_eq, organizationAuthenticationLive]
  dsimp only
  rw [hnone]
  rfl

/-- What the gate wrote is what the three headers hold. -/
theorem get_withAuthenticatedMember {request r : WebRequest} {member : AuthenticatedMember}
    (h : withAuthenticatedMember request member = some r) :
    r.headers.get organizationIdHeader = some (normalize member.organizationId) ∧
      r.headers.get organizationRoleHeader = some (normalize member.role.text) ∧
      r.headers.get userIdHeader = some (normalize member.userId) := by
  simp only [withAuthenticatedMember, Option.bind_eq_bind, Option.bind_eq_some_iff] at h
  obtain ⟨h₁, hset₁, h₂, hset₂, h₃, hset₃, hr⟩ := h
  obtain rfl := Option.some.inj hr
  -- the three names differ, so a later `set` leaves the earlier ones alone
  obtain ⟨-, -, rfl⟩ := Headers.set_eq_some_iff.mp hset₁
  obtain ⟨-, -, rfl⟩ := Headers.set_eq_some_iff.mp hset₂
  obtain ⟨-, -, rfl⟩ := Headers.set_eq_some_iff.mp hset₃
  have huo : lower organizationIdHeader ≠ lower userIdHeader := by decide
  have hor : lower organizationIdHeader ≠ lower organizationRoleHeader := by decide
  have hur : lower userIdHeader ≠ lower organizationRoleHeader := by decide
  refine ⟨?_, ?_, ?_⟩
  · simp only [Headers.get, Headers.put_values_ne _ _ hor, Headers.put_values_self]
    rfl
  · simp only [Headers.get, Headers.put_values_self]
    rfl
  · simp only [Headers.get, Headers.put_values_ne _ _ hur, Headers.put_values_ne _ _ huo.symm,
      Headers.put_values_self]
    rfl

/-- The subject the middleware decodes from what the gate wrote. -/
theorem organizationAuthenticationLive_written {request r : WebRequest}
    {member : AuthenticatedMember} (h : withAuthenticatedMember request member = some r) :
    organizationAuthenticationLive r =
      match decodeMember (some (normalize member.organizationId))
        (some (normalize member.role.text)) (some (normalize member.userId)) with
      | none => .error unauthenticatedError
      | some subject => .ok subject := by
  obtain ⟨horganization, hrole, huser⟩ := get_withAuthenticatedMember h
  rw [organizationAuthenticationLive, horganization, hrole, huser]

/-- A guarded handler runs only with a subject decoded from what the gate wrote for the session of
this request, and is refused otherwise. -/
def GuardedByGate (auth : Auth) (incoming r : WebRequest) : Ran → Prop
  | .guarded subject => ∃ member, WrittenByGate auth incoming r member ∧
      decodeMember (some (normalize member.organizationId)) (some (normalize member.role.text))
        (some (normalize member.userId)) = some subject
  | .refused e => e = unauthenticatedError
  | .unguarded => True

theorem guardedByGate_of_written {auth : Auth} {incoming r : WebRequest}
    {member : AuthenticatedMember} (h : WrittenByGate auth incoming r member)
    (router : WebRequest → Route) : GuardedByGate auth incoming r (apiHandler router r) := by
  have hwith : withAuthenticatedMember (withoutAuthenticatedMember incoming) member = some r := by
    obtain ⟨_, _, -, -, -, hwith⟩ := h
    exact hwith
  rw [apiHandler, organizationAuthenticationLive_written hwith]
  cases router r with
  | unguarded => trivial
  | guarded =>
      cases hdecode : decodeMember (some (normalize member.organizationId))
          (some (normalize member.role.text)) (some (normalize member.userId)) with
      | none => exact rfl
      | some subject => exact ⟨member, h, hdecode⟩

theorem apiHandler_stripped (router : WebRequest → Route) (incoming : WebRequest) :
    apiHandler router (withoutAuthenticatedMember incoming) = .unguarded ∨
      apiHandler router (withoutAuthenticatedMember incoming) = .refused unauthenticatedError := by
  rw [apiHandler, organizationAuthenticationLive_stripped]
  cases router (withoutAuthenticatedMember incoming) with
  | unguarded => exact .inl rfl
  | guarded => exact .inr rfl

/-! ## The two hosts -/

section Hosts

variable (parseUrl : String → Option Url) (auth : Auth) (port : Nat)
  (requires : WebRequest → Bool)

theorem consoleServer_same {m₁ m₂ : IncomingMessage} (h : SameButSubject m₁ m₂) :
    (consoleServer parseUrl auth port requires m₁).Same
      (consoleServer parseUrl auth port requires m₂) := by
  refine createNodeServer_same (fun r₁ r₂ hstrip => ?_) (fun r hr => ?_) h
  · simp only [resolveAuthenticatedMember, hstrip]
  · obtain ⟨e, he⟩ | he | ⟨r', _, he, -⟩ := resolveAuthenticatedMember_cases hr
    all_goals cases he

theorem backofficeServer_same {m₁ m₂ : IncomingMessage} (h : SameButSubject m₁ m₂) :
    (backofficeServer parseUrl auth port m₁).Same (backofficeServer parseUrl auth port m₂) := by
  refine createNodeServer_same (fun r₁ r₂ hstrip => ?_) (fun r hr => ?_) h
  · simp only [authorizeOperator, hstrip]
  · obtain ⟨e, he⟩ | he := authorizeOperator_cases hr
    all_goals cases he

theorem consoleServer_guarded {m : IncomingMessage} {r : WebRequest}
    (h : consoleServer parseUrl auth port requires m = .api r) (router : WebRequest → Route) :
    ∃ incoming, toWebRequest parseUrl m port = some incoming ∧
      GuardedByGate auth incoming r (apiHandler router r) := by
  obtain ⟨incoming, hincoming, hgate | hgate⟩ := createNodeServer_api h
  · refine ⟨incoming, hincoming, ?_⟩
    obtain ⟨e, he⟩ | he | ⟨r', member, he, hwritten⟩ := resolveAuthenticatedMember_cases hgate
    · cases he
    · cases he
      obtain hran | hran := apiHandler_stripped router incoming
      · rw [hran]
        trivial
      · rw [hran]
        exact rfl
    · cases he
      exact guardedByGate_of_written hwritten router
  · obtain ⟨e, he⟩ | he | ⟨r', _, he, -⟩ := resolveAuthenticatedMember_cases hgate
    all_goals cases he

/-- The backoffice writes no subject, so its guarded handlers, if it had any, never run. -/
theorem backofficeServer_guarded {m : IncomingMessage} {r : WebRequest}
    (h : backofficeServer parseUrl auth port m = .api r) (router : WebRequest → Route) :
    apiHandler router r = .unguarded ∨ apiHandler router r = .refused unauthenticatedError := by
  obtain ⟨incoming, -, hgate | hgate⟩ := createNodeServer_api h
  · obtain ⟨e, he⟩ | he := authorizeOperator_cases hgate
    · cases he
    · cases he
      exact apiHandler_stripped router incoming
  · obtain ⟨e, he⟩ | he := authorizeOperator_cases hgate
    all_goals cases he

/-- Subject headers of the caller's change nothing at either host, and a guarded handler runs only
with what the gate wrote. -/
theorem subject_headers_confined {m₁ m₂ : IncomingMessage} (h : SameButSubject m₁ m₂)
    (router : WebRequest → Route) :
    (consoleServer parseUrl auth port requires m₁).Same
        (consoleServer parseUrl auth port requires m₂) ∧
      (backofficeServer parseUrl auth port m₁).Same (backofficeServer parseUrl auth port m₂) ∧
      (∀ r, consoleServer parseUrl auth port requires m₁ = .api r →
        ∃ incoming, toWebRequest parseUrl m₁ port = some incoming ∧
          GuardedByGate auth incoming r (apiHandler router r)) ∧
      ∀ r, backofficeServer parseUrl auth port m₁ = .api r →
        apiHandler router r = .unguarded ∨
          apiHandler router r = .refused unauthenticatedError :=
  ⟨consoleServer_same parseUrl auth port requires h, backofficeServer_same parseUrl auth port h,
    fun _ hr => consoleServer_guarded parseUrl auth port requires hr router,
    fun _ hr => backofficeServer_guarded parseUrl auth port hr router⟩

end Hosts

/-- A forged header, in a letter case of the caller's choosing. -/
def forgedUserId : RawHeader :=
  ⟨"X-FissionPlane-Auth-User-Id", "attacker", by decide, by decide⟩

/-- A request for the sandboxes of the caller, with these header lines. -/
def listSandboxes (rawHeaders : List RawHeader) : IncomingMessage :=
  ⟨"GET", some "/api/sandboxes", rawHeaders, []⟩

/-- A session whose member is a developer, whatever the headers. -/
def developerAuth : Auth :=
  ⟨fun _ => some (some ⟨"user-1", none, some "auth-org-1"⟩), fun _ _ => some (some "developer")⟩

theorem subject_headers_confined_forged :
    (consoleServer (fun s => some ⟨s, "/api/sandboxes"⟩) developerAuth 3000 (fun _ => true)
        (listSandboxes [forgedUserId])).Same
      (consoleServer (fun s => some ⟨s, "/api/sandboxes"⟩) developerAuth 3000 (fun _ => true)
        (listSandboxes [])) := by
  have hsame : SameButSubject (listSandboxes [forgedUserId]) (listSandboxes []) :=
    ⟨rfl, rfl, rfl, rfl⟩
  exact (subject_headers_confined (fun s => some ⟨s, "/api/sandboxes"⟩) developerAuth 3000
    (fun _ => true) hsame fun _ => .guarded).1

end FissionPlane.Api
