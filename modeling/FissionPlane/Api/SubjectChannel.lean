/-
# FissionPlane.Api.SubjectChannel -- which subjects the three headers carry

The schema of a subject bounds the length of its identifiers and nothing else. The headers it is
handed over in hold byte strings, and white space at the ends of a value is stripped when it is set.
So an identifier comes through as it is exactly if it is such a byte string; another one is refused,
or read as the identifier without its white space.
-/
import FissionPlane.Api.Gate

namespace FissionPlane.Api

open FissionPlane.Lib FissionPlane.Lib.FetchHeaders

/-! ## Values a header keeps -/

/-- Neither end is white space to the header layer. -/
def HasNoPadding (cs : List Char) : Prop :=
  (∀ c ∈ cs.head?, isHttpWhitespace c = false) ∧ ∀ c ∈ cs.getLast?, isHttpWhitespace c = false

theorem eq_of_dropWhile_eq {p : Char → Bool} {cs : List Char} (h : cs.dropWhile p = cs) :
    ∀ c ∈ cs.head?, p c = false := by
  intro c hc
  cases cs with
  | nil => cases hc
  | cons d cs =>
      obtain rfl := Option.some.inj hc
      by_contra hp
      rw [Bool.not_eq_false] at hp
      rw [List.dropWhile_cons_of_pos hp] at h
      have hlength : (cs.dropWhile p).length ≤ cs.length := (List.dropWhile_sublist p).length_le
      rw [h, List.length_cons] at hlength
      omega

/-- Stripping keeps exactly the values without padding. -/
theorem strip_eq_self_iff {cs : List Char} : strip cs = cs ↔ HasNoPadding cs := by
  constructor
  · intro h
    have hfirst : (strip cs).length ≤ (cs.dropWhile isHttpWhitespace).length := by
      rw [strip, List.length_reverse]
      exact ((List.dropWhile_sublist _).length_le).trans (List.length_reverse ..).le
    have hdrop : cs.dropWhile isHttpWhitespace = cs := by
      apply (List.dropWhile_sublist _).eq_of_length_le
      rwa [h] at hfirst
    have hback : cs.reverse.dropWhile isHttpWhitespace = cs.reverse := by
      rw [strip, hdrop] at h
      exact List.reverse_eq_iff.mp h
    refine ⟨eq_of_dropWhile_eq hdrop, fun c hc => ?_⟩
    apply eq_of_dropWhile_eq hback
    rwa [List.head?_reverse]
  · rintro ⟨hhead, hlast⟩
    exact strip_eq_self hhead hlast

theorem normalize_eq_self_iff {value : String} :
    normalize value = value ↔ HasNoPadding value.toList := by
  rw [← strip_eq_self_iff, FetchHeaders.normalize]
  constructor
  · intro h
    rw [← String.toList_ofList (l := strip value.toList), h]
  · intro h
    rw [h, String.ofList_toList]

/-- An identifier that is a header value as it stands: code points up to U+00FF other than NUL, CR
and LF, and no tab or space at either end. -/
def IsCarried (id : String) : Prop :=
  (∀ c ∈ id.toList, isValueChar c = true) ∧ HasNoPadding id.toList

theorem isCarried_iff {id : String} :
    IsCarried id ↔ isHeaderValue (normalize id) = true ∧ normalize id = id := by
  rw [IsCarried, ← normalize_eq_self_iff]
  constructor
  · rintro ⟨hvalue, hnormal⟩
    rw [hnormal]
    exact ⟨List.all_eq_true.mpr hvalue, rfl⟩
  · rintro ⟨hvalue, hnormal⟩
    rw [hnormal] at hvalue
    exact ⟨List.all_eq_true.mp hvalue, hnormal⟩

/-! ## The round trip -/

/-- Writing a subject into a request and decoding the request gives the subject. -/
def RoundTrips (request : WebRequest) (subject : AuthenticatedMember) : Prop :=
  ∃ written, withAuthenticatedMember request subject = some written ∧
    organizationAuthenticationLive written = .ok subject

/-- Every role is written and read as itself. -/
theorem role_text (role : OrganizationRole) :
    isHeaderValue (normalize role.text) = true ∧ normalize role.text = role.text ∧
      decodeRole role.text = some role := by
  cases role <;> decide +kernel

/-- The write succeeds exactly if both identifiers are header values once they are stripped. -/
theorem withAuthenticatedMember_isSome_iff {request : WebRequest} {subject : AuthenticatedMember} :
    (∃ written, withAuthenticatedMember request subject = some written) ↔
      isHeaderValue (normalize subject.userId) = true ∧
        isHeaderValue (normalize subject.organizationId) = true := by
  simp only [withAuthenticatedMember, Option.bind_eq_bind, Option.bind_eq_some_iff,
    Headers.set_eq_some_iff]
  have huser : isHeaderName userIdHeader = true := by decide +kernel
  have horganization : isHeaderName organizationIdHeader = true := by decide +kernel
  have hrole : isHeaderName organizationRoleHeader = true := by decide +kernel
  constructor
  · rintro ⟨_, _, ⟨-, hu, -⟩, _, ⟨-, ho, -⟩, -⟩
    exact ⟨hu, ho⟩
  · rintro ⟨hu, ho⟩
    exact ⟨_, _, ⟨huser, hu, rfl⟩, _, ⟨horganization, ho, rfl⟩, _,
      ⟨hrole, (role_text subject.role).1, rfl⟩, rfl⟩

/-- What the middleware decodes is the subject exactly if stripping changes neither identifier. -/
theorem decodeMember_normalize_iff {subject : AuthenticatedMember} :
    decodeMember (some (normalize subject.organizationId)) (some (normalize subject.role.text))
        (some (normalize subject.userId)) = some subject ↔
      normalize subject.userId = subject.userId ∧
        normalize subject.organizationId = subject.organizationId := by
  obtain ⟨-, hrole, hdecode⟩ := role_text subject.role
  rw [hrole]
  unfold decodeMember
  rw [Option.bind_some, hdecode]
  dsimp only
  constructor
  · intro h
    split_ifs at h
    have hsubject := Option.some.inj h
    exact ⟨congrArg AuthenticatedMember.userId hsubject,
      congrArg AuthenticatedMember.organizationId hsubject⟩
  · rintro ⟨huser, horganization⟩
    rw [dif_pos (by rw [horganization]; exact subject.organizationId_bounded),
      dif_pos (by rw [huser]; exact subject.userId_bounded), Option.some.injEq,
      AuthenticatedMember.mk.injEq]
    exact ⟨horganization, rfl, huser⟩

theorem roundTrips_iff_isCarried {request : WebRequest} {subject : AuthenticatedMember} :
    RoundTrips request subject ↔ IsCarried subject.userId ∧ IsCarried subject.organizationId := by
  rw [isCarried_iff, isCarried_iff]
  constructor
  · rintro ⟨written, hwritten, hread⟩
    obtain ⟨huser, horganization⟩ := withAuthenticatedMember_isSome_iff.mp ⟨written, hwritten⟩
    rw [organizationAuthenticationLive_written hwritten] at hread
    split at hread
    · cases hread
    · next found hfound =>
        obtain rfl := Except.ok.inj hread
        obtain ⟨hnu, hno⟩ := decodeMember_normalize_iff.mp hfound
        exact ⟨⟨huser, hnu⟩, horganization, hno⟩
  · rintro ⟨⟨huser, hnu⟩, horganization, hno⟩
    obtain ⟨written, hwritten⟩ := withAuthenticatedMember_isSome_iff.mpr ⟨huser, horganization⟩
    refine ⟨written, hwritten, ?_⟩
    rw [organizationAuthenticationLive_written hwritten,
      decodeMember_normalize_iff.mpr ⟨hnu, hno⟩]

/-- A subject that comes through is what is read. -/
theorem RoundTrips.eq_read {request written : WebRequest} {subject read : AuthenticatedMember}
    (h : RoundTrips request subject)
    (hwritten : withAuthenticatedMember request subject = some written)
    (hread : organizationAuthenticationLive written = .ok read) : subject = read := by
  obtain ⟨w, hw, hsubject⟩ := h
  obtain rfl : w = written := Option.some.inj (hw.symm.trans hwritten)
  exact Except.ok.inj (hsubject.symm.trans hread)

/-- **A subject comes through exactly if both of its identifiers are carried**, and it is never
taken for another such subject. -/
theorem roundTrips_iff (request : WebRequest) (subject : AuthenticatedMember) :
    (RoundTrips request subject ↔ IsCarried subject.userId ∧ IsCarried subject.organizationId) ∧
    ∀ request' subject' written written' read,
      IsCarried subject.userId ∧ IsCarried subject.organizationId →
      IsCarried subject'.userId ∧ IsCarried subject'.organizationId →
      withAuthenticatedMember request subject = some written →
      withAuthenticatedMember request' subject' = some written' →
      organizationAuthenticationLive written = .ok read →
      organizationAuthenticationLive written' = .ok read → subject = subject' := by
  refine ⟨roundTrips_iff_isCarried, ?_⟩
  intro request' subject' written written' read hcarried hcarried' hwritten hwritten' hread hread'
  have hsubject : subject = read :=
    (roundTrips_iff_isCarried.mpr hcarried).eq_read hwritten hread
  have hsubject' : subject' = read :=
    (roundTrips_iff_isCarried.mpr hcarried').eq_read hwritten' hread'
  rw [hsubject, hsubject']

/-! ## Two subjects read as one -/

def member (userId : String) (h : isBoundedId userId = true) : AuthenticatedMember :=
  ⟨"org_1", .owner, userId, by decide +kernel, h⟩

/-- The users "user" and " user" are both read as "user". -/
theorem read_padded {request written : WebRequest} {userId : String}
    {h : isBoundedId userId = true} (hnormal : normalize userId = "user")
    (hwritten : withAuthenticatedMember request (member userId h) = some written) :
    organizationAuthenticationLive written = .ok (member "user" (by decide +kernel)) := by
  have hdecode : decodeMember (some (normalize "org_1"))
      (some (normalize OrganizationRole.owner.text)) (some "user") =
        some (member "user" (by decide +kernel)) := by decide +kernel
  have horganization : (member userId h).organizationId = "org_1" := rfl
  have hrole : (member userId h).role = .owner := rfl
  have huser : (member userId h).userId = userId := rfl
  rw [organizationAuthenticationLive_written hwritten, horganization, hrole, huser, hnormal,
    hdecode]

/-- The subject with the user " user" is written, comes back as the one with the user "user", and
so is taken for it. -/
theorem not_roundTrips : (¬ ∀ request subject, RoundTrips request subject) ∧
    ¬ ∀ request request' subject subject' written written' read,
      withAuthenticatedMember request subject = some written →
      withAuthenticatedMember request' subject' = some written' →
      organizationAuthenticationLive written = .ok read →
      organizationAuthenticationLive written' = .ok read → subject = subject' := by
  have hne : member " user" (by decide +kernel) ≠ member "user" (by decide +kernel) := by
    decide +kernel
  have hpadded : normalize " user" = "user" := by decide +kernel
  have hplain : normalize "user" = "user" := by decide +kernel
  constructor
  · intro hround
    obtain ⟨written, hwritten, hread⟩ :=
      hround ⟨"GET", "/", Headers.empty, none⟩ (member " user" (by decide +kernel))
    rw [read_padded hpadded hwritten] at hread
    exact hne (Except.ok.inj hread).symm
  · intro hsame
    have hwrite : ∀ {userId : String} (h : isBoundedId userId = true),
        normalize userId = "user" → ∃ written,
          withAuthenticatedMember ⟨"GET", "/", Headers.empty, none⟩ (member userId h)
            = some written := by
      intro userId h hnormal
      apply withAuthenticatedMember_isSome_iff.mpr
      show isHeaderValue (normalize userId) = true ∧ isHeaderValue (normalize "org_1") = true
      rw [hnormal]
      decide +kernel
    obtain ⟨written, hwritten⟩ := hwrite (by decide +kernel) hpadded
    obtain ⟨written', hwritten'⟩ := hwrite (by decide +kernel) hplain
    exact hne (hsame _ _ _ _ written written' _ hwritten hwritten'
      (read_padded hpadded hwritten) (read_padded hplain hwritten'))

end FissionPlane.Api
