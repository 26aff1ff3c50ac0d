/-
# FissionPlane.Api.Console -- the console API from the socket to the repository

The console host with everything behind it: the matcher of its contract, the gate, the router, the
middleware, the use case and the repository it asks. The router is the platform's and a parameter;
nothing below depends on how it splits requests.

A tenant's sandboxes are listed for the active organization of the caller's own session and for no
other one, whatever the request says about its subject.
-/
import FissionPlane.Api.GuardedRoutes
import FissionPlane.Api.Permissions

namespace FissionPlane.Api

open FissionPlane.Lib FissionPlane.Lib.FetchHeaders

/-! ## The contract of the console -/

/-- The key of the middleware. -/
def organizationAuthentication : String := "@fissionplane/core/OrganizationAuthentication"

/-- The endpoints of `ConsoleApi` as the platform reports them: that of `SystemApiGroup` and that of
`SandboxesApiGroup`, the latter with the middleware of its group, both behind the prefix. -/
def consoleApi : List ReflectedEndpoint :=
  [⟨"GET", "/api/health", []⟩, ⟨"GET", "/api/sandboxes", [organizationAuthentication]⟩]

/-- The matcher the gate consults. It does so only after the request's URL has parsed, so what it
says of another request is never read. -/
def requiresAuthenticatedMember (parseUrl : String → Option Url) (request : WebRequest) : Bool :=
  ((createGuardedRouteMatcher parseUrl consoleApi organizationAuthentication).bind
    (· request)).getD false

/-! ## Handlers -/

/-- The endpoints of the contract, as the router picks one. -/
inductive ConsoleEndpoint where
  | health
  | list
  deriving DecidableEq

structure Health where
  service : String
  status : String
  deriving DecidableEq

/-- What the API answers; `σ` is the type of the summaries. -/
inductive ConsoleAnswer (σ : Type) where
  | health (health : Health)
  | sandboxes (summaries : List σ)
  | failed (e : DomainError)
  | forbidden (e : ForbiddenError)
  | notFound

/-- A handled request: the organizations the repository was asked for, and the answer. -/
structure Handled (σ : Type) where
  asked : List String
  answer : ConsoleAnswer σ

/-- `GetHealthUseCaseLive`. -/
def getHealth (service : String) : Health := ⟨service, "ok"⟩

section Repository

variable {σ : Type} (repository : String → List σ)

/-- `ListSandboxesUseCaseLive`: the permission first, then the subject's organization. -/
def listSandboxesExecute (subject : AuthenticatedMember) : Handled σ :=
  match requirePermission .sandboxRead subject with
  | .error e => ⟨[], .forbidden e⟩
  | .ok () => ⟨[subject.organizationId], .sandboxes (repository subject.organizationId)⟩

/-- `ConsoleApiLive` behind the router: the sandboxes group runs behind the middleware. -/
def consoleApiLive (router : WebRequest → Option ConsoleEndpoint) (request : WebRequest) :
    Handled σ :=
  match router request with
  | none => ⟨[], .notFound⟩
  | some .health => ⟨[], .health (getHealth "console-api")⟩
  | some .list =>
      match organizationAuthenticationLive request with
      | .error e => ⟨[], .failed e⟩
      | .ok subject => listSandboxesExecute repository subject

/-- How the host disposes of a message. -/
inductive ConsoleServed (σ : Type) where
  | auth
  | handled (h : Handled σ)
  | answered (e : DomainError)

def ConsoleServed.asked {σ : Type} : ConsoleServed σ → List String
  | .handled h => h.asked
  | _ => []

variable (parseUrl : String → Option Url) (auth : Auth) (port : Nat)
  (router : WebRequest → Option ConsoleEndpoint)

/-- The console host and the API behind it. -/
def console (message : IncomingMessage) : ConsoleServed σ :=
  match consoleServer parseUrl auth port (requiresAuthenticatedMember parseUrl) message with
  | .auth _ => .auth
  | .api request => .handled (consoleApiLive repository router request)
  | .answered e => .answered e

end Repository

/-! ## The routes behind the gate -/

theorem guarded_consoleApi_iff {method pathname : String} :
    Guarded consoleApi organizationAuthentication method pathname ↔
      method = "GET" ∧ (pathname = "/api/sandboxes" ∨ pathname = "/api/sandboxes/") := by
  have hliteral : ∀ s ∈ "/api/sandboxes".toList.splitOn '/',
      s.head? ≠ some ':' ∧ s ≠ ['*'] := by
    decide +kernel
  rw [Guarded, consoleApi]
  constructor
  · rintro ⟨endpoint, hmem, hguarded, rfl, hcovers⟩
    rcases List.mem_cons.mp hmem with rfl | hmem
    · exact absurd hguarded List.not_mem_nil
    · obtain rfl := List.mem_singleton.mp hmem
      exact ⟨rfl, (covers_literal_iff hliteral pathname).mp hcovers⟩
  · rintro ⟨rfl, hpathname⟩
    refine ⟨_, List.mem_cons_of_mem _ (List.mem_singleton_self _), List.mem_singleton_self _,
      rfl, ?_⟩
    exact (covers_literal_iff hliteral pathname).mpr hpathname

theorem requiresAuthenticatedMember_iff {parseUrl : String → Option Url} {request : WebRequest}
    {url : Url} (hurl : parseUrl request.url = some url) :
    requiresAuthenticatedMember parseUrl request = true ↔
      request.method = "GET" ∧
        (url.pathname = "/api/sandboxes" ∨ url.pathname = "/api/sandboxes/") := by
  obtain ⟨matcher, hmatcher, hspec⟩ :=
    createGuardedRouteMatcher_eq parseUrl consoleApi organizationAuthentication
  obtain ⟨b, hb, hguarded⟩ := (hspec request).2 url hurl
  rw [requiresAuthenticatedMember, hmatcher, Option.bind_some, hb, Option.getD_some, hguarded]
  exact guarded_consoleApi_iff

/-! ## What the API does with a request -/

/-- No role lacks the grant the use case requires. -/
theorem listSandboxesExecute_eq {σ : Type} (repository : String → List σ)
    (subject : AuthenticatedMember) :
    listSandboxesExecute repository subject =
      ⟨[subject.organizationId], .sandboxes (repository subject.organizationId)⟩ := by
  rw [listSandboxesExecute, requirePermission, if_pos (sandboxRead_granted subject.role)]

/-- Neither a listing nor a denied permission. -/
def ConsoleAnswer.Plain {σ : Type} : ConsoleAnswer σ → Prop
  | .sandboxes _ => False
  | .forbidden _ => False
  | _ => True

/-- The API lists for a subject the middleware decoded, or asks nothing. -/
theorem consoleApiLive_cases {σ : Type} (repository : String → List σ)
    (router : WebRequest → Option ConsoleEndpoint) (request : WebRequest) :
    (∃ subject, router request = some .list ∧
        organizationAuthenticationLive request = .ok subject ∧
        consoleApiLive repository router request =
          ⟨[subject.organizationId], .sandboxes (repository subject.organizationId)⟩) ∨
      ((consoleApiLive repository router request).asked = [] ∧
        (consoleApiLive repository router request).answer.Plain ∧
        ∀ subject, router request = some .list →
          organizationAuthenticationLive request ≠ .ok subject) := by
  rw [consoleApiLive]
  cases hroute : router request with
  | none => exact .inr ⟨rfl, trivial, fun _ h => by cases h⟩
  | some endpoint =>
      cases endpoint with
      | health => exact .inr ⟨rfl, trivial, fun _ h => by cases h⟩
      | list =>
          cases hsubject : organizationAuthenticationLive request with
          | error e => exact .inr ⟨rfl, trivial, fun _ _ h => by cases h⟩
          | ok subject => exact .inl ⟨subject, rfl, rfl, listSandboxesExecute_eq _ _⟩

/-! ## What the gate forwards -/

/-- The gate forwards the stripped request where the contract is open, and what it wrote for the
session where it is not. -/
theorem resolveAuthenticatedMember_request {auth : Auth} {requires : WebRequest → Bool}
    {incoming r : WebRequest} :
    resolveAuthenticatedMember auth requires incoming = some (.request r) ↔
      (requires (withoutAuthenticatedMember incoming) = false ∧
          r = withoutAuthenticatedMember incoming) ∨
        (requires (withoutAuthenticatedMember incoming) = true ∧
          ∃ member, WrittenByGate auth incoming r member) := by
  rw [resolveAuthenticatedMember]
  cases hrequires : requires (withoutAuthenticatedMember incoming) with
  | false =>
      rw [if_pos rfl, Option.some.injEq, Authorization.request.injEq]
      constructor
      · exact fun h => .inl ⟨rfl, h.symm⟩
      · rintro (⟨-, h⟩ | ⟨h, -⟩)
        · exact h.symm
        · cases h
  | true =>
      rw [if_neg (by decide)]
      constructor
      · intro h
        refine .inr ⟨rfl, ?_⟩
        split at h
        · cases h
        · cases h
        · next session hsession =>
            split at h
            · cases h
            · next organizationId horganization =>
                dsimp only at h
                split at h
                · cases h
                · next member hmember =>
                    obtain ⟨r', hr, heq⟩ := Option.map_eq_some_iff.mp h
                    cases heq
                    exact ⟨member, session, organizationId, hsession, horganization, hmember, hr⟩
      · rintro (⟨h, -⟩ | ⟨-, member, session, organizationId, hsession, horganization, hmember,
          hwritten⟩)
        · cases h
        · simp only [hsession, horganization, hmember, hwritten, Option.map_some]

/-- A message reaches the API exactly as the request the gate forwards. -/
theorem consoleServer_api_iff {parseUrl : String → Option Url} {auth : Auth} {port : Nat}
    {requires : WebRequest → Bool} {message : IncomingMessage} {r : WebRequest} :
    consoleServer parseUrl auth port requires message = .api r ↔
      ∃ incoming url, toWebRequest parseUrl message port = some incoming ∧
        parseUrl incoming.url = some url ∧
        "/api/auth/".toList.isPrefixOf url.pathname.toList = false ∧
        resolveAuthenticatedMember auth requires incoming = some (.request r) := by
  rw [consoleServer, createNodeServer]
  cases hincoming : toWebRequest parseUrl message port with
  | none =>
      constructor
      · intro h
        cases h
      · rintro ⟨_, _, h, -⟩
        cases h
  | some incoming =>
      dsimp only
      cases hurl : parseUrl incoming.url with
      | none =>
          constructor
          · intro h
            cases h
          · rintro ⟨_, _, h, hurl', -⟩
            obtain rfl := Option.some.inj h
            rw [hurl] at hurl'
            cases hurl'
      | some url =>
          dsimp only
          constructor
          · intro h
            split at h
            · cases h
            · next hpath =>
                refine ⟨incoming, url, rfl, hurl, Bool.eq_false_iff.mpr hpath, ?_⟩
                split at h
                · cases h
                · cases h
                · next r' hr' =>
                    cases h
                    exact hr'
                · next hundefined =>
                    obtain ⟨e, he⟩ | he | ⟨r', _, he, -⟩ :=
                      resolveAuthenticatedMember_cases hundefined
                    all_goals cases he
          · rintro ⟨incoming', url', h, hurl', hpath, hgate⟩
            obtain rfl := Option.some.inj h
            obtain rfl := Option.some.inj (hurl.symm.trans hurl')
            rw [hpath, if_neg (by decide), hgate]

/-! ## Whose sandboxes are listed -/

section Tenant

variable {σ : Type} (repository : String → List σ) (parseUrl : String → Option Url) (auth : Auth)
  (port : Nat) (router : WebRequest → Option ConsoleEndpoint)

/-- The message is a `GET` of the guarded route, its session has the active organization `active`,
the caller is a member of it, and the router takes the request the gate writes to the listing; what
the middleware reads is `organizationId`. -/
def ListedFor (message : IncomingMessage) (active organizationId : String) : Prop :=
  ∃ incoming url session member written subject,
    toWebRequest parseUrl message port = some incoming ∧
    parseUrl incoming.url = some url ∧
    incoming.method = "GET" ∧
    (url.pathname = "/api/sandboxes" ∨ url.pathname = "/api/sandboxes/") ∧
    auth.getSession (withoutAuthenticatedMember incoming).headers = some (some session) ∧
    session.activeOrganizationId = some active ∧
    decodeMember (some active)
      (auth.getActiveMemberRole (withoutAuthenticatedMember incoming).headers active).join
      (some session.userId) = some member ∧
    withAuthenticatedMember (withoutAuthenticatedMember incoming) member = some written ∧
    router written = some .list ∧
    organizationAuthenticationLive written = .ok subject ∧
    subject.organizationId = organizationId

/-- A decoded member has the fields it was decoded from. -/
theorem decodeMember_fields {organizationId userId : String} {role : Option String}
    {member : AuthenticatedMember}
    (h : decodeMember (some organizationId) role (some userId) = some member) :
    member.organizationId = organizationId ∧ member.userId = userId ∧
      role.bind decodeRole = some member.role := by
  unfold decodeMember at h
  cases hrole : role.bind decodeRole with
  | none =>
      rw [hrole] at h
      cases h
  | some r =>
      rw [hrole] at h
      dsimp only at h
      split_ifs at h
      cases h
      exact ⟨rfl, rfl, rfl⟩

/-- The organization asked for is the active one, as a header carries it. -/
theorem ListedFor.eq_normalize {message : IncomingMessage} {active organizationId : String}
    (h : ListedFor parseUrl auth port router message active organizationId) :
    organizationId = normalize active := by
  obtain ⟨_, _, _, member, written, subject, -, -, -, -, -, -, hmember, hwritten, -, hsubject,
    rfl⟩ := h
  rw [organizationAuthenticationLive_written hwritten] at hsubject
  split at hsubject
  · cases hsubject
  · next found hfound =>
      obtain rfl := Except.ok.inj hsubject
      rw [(decodeMember_fields hfound).1, (decodeMember_fields hmember).1]

/-- A subject is read at the API only where the gate wrote one. -/
theorem listed_of_api {message : IncomingMessage} {r : WebRequest} {subject : AuthenticatedMember}
    (hserved : consoleServer parseUrl auth port (requiresAuthenticatedMember parseUrl) message =
      .api r) (hroute : router r = some .list)
    (hsubject : organizationAuthenticationLive r = .ok subject) :
    ∃ active, ListedFor parseUrl auth port router message active subject.organizationId := by
  obtain ⟨incoming, url, hincoming, hurl, -, hgate⟩ := consoleServer_api_iff.mp hserved
  obtain ⟨-, rfl⟩ | ⟨hrequires, member, session, active, hsession, hactive, hmember, hwritten⟩ :=
    resolveAuthenticatedMember_request.mp hgate
  · rw [organizationAuthenticationLive_stripped] at hsubject
    cases hsubject
  · have hurl' : parseUrl (withoutAuthenticatedMember incoming).url = some url := by
      rw [withoutAuthenticatedMember_eq]
      exact hurl
    obtain ⟨hmethod, hpathname⟩ := (requiresAuthenticatedMember_iff hurl').mp hrequires
    rw [withoutAuthenticatedMember_eq] at hmethod
    exact ⟨active, incoming, url, session, member, r, subject, hincoming, hurl, hmethod,
      hpathname, hsession, hactive, hmember, hwritten, hroute, hsubject, rfl⟩

theorem ListedFor.console_eq {message : IncomingMessage} {active organizationId : String}
    (h : ListedFor parseUrl auth port router message active organizationId) :
    console repository parseUrl auth port router message =
      .handled ⟨[organizationId], .sandboxes (repository organizationId)⟩ := by
  obtain ⟨incoming, url, session, member, written, subject, hincoming, hurl, hmethod, hpathname,
    hsession, hactive, hmember, hwritten, hroute, hsubject, rfl⟩ := h
  have hurl' : parseUrl (withoutAuthenticatedMember incoming).url = some url := by
    rw [withoutAuthenticatedMember_eq]
    exact hurl
  have hmethod' : (withoutAuthenticatedMember incoming).method = "GET" := by
    rw [withoutAuthenticatedMember_eq]
    exact hmethod
  have hrequires := (requiresAuthenticatedMember_iff hurl').mpr ⟨hmethod', hpathname⟩
  -- neither guarded path is one of the auth handler's
  have hauth : "/api/auth/".toList.isPrefixOf url.pathname.toList = false := by
    rcases hpathname with hpathname | hpathname
    all_goals
      rw [hpathname]
      decide +kernel
  have hserved : consoleServer parseUrl auth port (requiresAuthenticatedMember parseUrl) message =
      .api written := by
    refine consoleServer_api_iff.mpr ⟨incoming, url, hincoming, hurl, hauth, ?_⟩
    exact resolveAuthenticatedMember_request.mpr
      (.inr ⟨hrequires, member, session, active, hsession, hactive, hmember, hwritten⟩)
  rw [console, hserved]
  obtain ⟨found, -, hfound, heq⟩ | ⟨-, -, hnone⟩ := consoleApiLive_cases repository router written
  · rw [hfound] at hsubject
    obtain rfl := Except.ok.inj hsubject
    dsimp only
    rw [heq]
  · exact absurd hsubject (hnone subject hroute)

/-- The host lists for a tenant, or it asks the repository nothing and denies no permission. -/
theorem console_cases (message : IncomingMessage) :
    (∃ active organizationId, ListedFor parseUrl auth port router message active organizationId) ∨
      (console repository parseUrl auth port router message).asked = [] ∧
        ∀ h, console repository parseUrl auth port router message = .handled h →
          h.answer.Plain := by
  rw [console]
  cases hserved : consoleServer parseUrl auth port (requiresAuthenticatedMember parseUrl)
      message with
  | auth r => exact .inr ⟨rfl, fun _ h => by cases h⟩
  | answered e => exact .inr ⟨rfl, fun _ h => by cases h⟩
  | api r =>
      obtain ⟨subject, hroute, hsubject, -⟩ | ⟨hasked, hplain, -⟩ :=
        consoleApiLive_cases repository router r
      · obtain ⟨active, h⟩ := listed_of_api parseUrl auth port router hserved hroute hsubject
        exact .inl ⟨active, _, h⟩
      · refine .inr ⟨hasked, fun h heq => ?_⟩
        obtain rfl := ConsoleServed.handled.inj heq
        exact hplain

/-- What the caller says of its subject does not matter. -/
theorem console_same {m₁ m₂ : IncomingMessage} (h : SameButSubject m₁ m₂) :
    console repository parseUrl auth port router m₁ =
      console repository parseUrl auth port router m₂ := by
  have hsame := consoleServer_same parseUrl auth port (requiresAuthenticatedMember parseUrl) h
  rw [console, console]
  cases h₁ : consoleServer parseUrl auth port (requiresAuthenticatedMember parseUrl) m₁ with
  | auth r₁ =>
      cases h₂ : consoleServer parseUrl auth port (requiresAuthenticatedMember parseUrl) m₂ with
      | auth r₂ => rfl
      | api r₂ => rw [h₁, h₂] at hsame; exact hsame.elim
      | answered e₂ => rw [h₁, h₂] at hsame; exact hsame.elim
  | api r₁ =>
      cases h₂ : consoleServer parseUrl auth port (requiresAuthenticatedMember parseUrl) m₂ with
      | auth r₂ => rw [h₁, h₂] at hsame; exact hsame.elim
      | api r₂ =>
          rw [h₁, h₂] at hsame
          obtain rfl : r₁ = r₂ := hsame
          rfl
      | answered e₂ => rw [h₁, h₂] at hsame; exact hsame.elim
  | answered e₁ =>
      cases h₂ : consoleServer parseUrl auth port (requiresAuthenticatedMember parseUrl) m₂ with
      | auth r₂ => rw [h₁, h₂] at hsame; exact hsame.elim
      | api r₂ => rw [h₁, h₂] at hsame; exact hsame.elim
      | answered e₂ =>
          rw [h₁, h₂] at hsame
          obtain rfl : e₁ = e₂ := hsame
          rfl

/-- **A tenant sees its own sandboxes only.** The repository is asked at most once, for the active
organization of the caller's session and only on the guarded route; a listing is what it answered;
no permission is ever denied; and forged subject headers change nothing. -/
theorem tenant_confined (message : IncomingMessage) :
    (∀ organizationId,
      organizationId ∈ (console repository parseUrl auth port router message).asked ↔
        ∃ active, ListedFor parseUrl auth port router message active organizationId) ∧
    (∀ active organizationId,
      ListedFor parseUrl auth port router message active organizationId →
        organizationId = normalize active ∧
        console repository parseUrl auth port router message =
          .handled ⟨[organizationId], .sandboxes (repository organizationId)⟩) ∧
    (∀ asked summaries, console repository parseUrl auth port router message =
        .handled ⟨asked, .sandboxes summaries⟩ →
      ∃ active organizationId,
        ListedFor parseUrl auth port router message active organizationId ∧
        asked = [organizationId] ∧ summaries = repository organizationId) ∧
    (∀ asked e, console repository parseUrl auth port router message ≠
      .handled ⟨asked, .forbidden e⟩) ∧
    ∀ forged, SameButSubject forged message →
      console repository parseUrl auth port router forged =
        console repository parseUrl auth port router message := by
  have hlisted : ∀ active organizationId,
      ListedFor parseUrl auth port router message active organizationId →
        console repository parseUrl auth port router message =
          .handled ⟨[organizationId], .sandboxes (repository organizationId)⟩ :=
    fun _ _ => ListedFor.console_eq repository parseUrl auth port router
  refine ⟨fun organizationId => ⟨fun h => ?_, ?_⟩, fun active organizationId h => ?_,
    fun asked summaries h => ?_, fun asked e h => ?_, fun forged h => ?_⟩
  · obtain ⟨active, found, hfound⟩ | ⟨hnone, -⟩ :=
      console_cases repository parseUrl auth port router message
    · rw [hlisted active found hfound] at h
      obtain rfl := List.mem_singleton.mp h
      exact ⟨active, hfound⟩
    · rw [hnone] at h
      exact absurd h List.not_mem_nil
  · rintro ⟨active, h⟩
    rw [hlisted active organizationId h]
    exact List.mem_singleton_self _
  · exact ⟨h.eq_normalize, hlisted active organizationId h⟩
  · obtain ⟨active, found, hfound⟩ | ⟨-, hplain⟩ :=
      console_cases repository parseUrl auth port router message
    · rw [hlisted active found hfound] at h
      cases h
      exact ⟨active, found, hfound, rfl, rfl⟩
    · exact (hplain _ h).elim
  · obtain ⟨active, found, hfound⟩ | ⟨-, hplain⟩ :=
      console_cases repository parseUrl auth port router message
    · rw [hlisted active found hfound] at h
      cases h
    · exact hplain _ h
  · exact console_same repository parseUrl auth port router h

end Tenant

end FissionPlane.Api
