/-
# FissionPlane.ConsoleWeb.OrganizationSlug -- a slug from a name and a fresh identifier

The console turns an organization's name into a slug: what is neither a letter nor a digit becomes
hyphens, the rest is cut to what fits, and a NanoID goes behind it. Strings are sequences of UTF-16
code units here, as the patterns and `slice` read them.

The lowering of a name is Unicode's and is left open: whatever it makes of a name, the class that is
kept is spelled out in ASCII. The cut may end on a hyphen, which the identifier then follows.
-/
import FissionPlane.Domain.DisplayName

namespace FissionPlane.ConsoleWeb

open FissionPlane.Lib FissionPlane.Domain

/-- A JavaScript string. -/
abbrev JsString := List UInt16

/-! ## Schemas on JavaScript strings -/

/-- `Schema.make`: the value, or an exception. -/
def make (schema : JsString → Bool) (value : JsString) : Option JsString :=
  if schema value then some value else none

def NanoIdSchema (value : JsString) : Bool := NANO_ID_PATTERN.test (value.map UInt16.toNat)

def OrganizationSlugSchema (value : JsString) : Bool :=
  decide (ORGANIZATION_SLUG_MIN_LENGTH ≤ value.length) &&
    decide (value.length ≤ ORGANIZATION_SLUG_MAX_LENGTH) &&
    DNS_LABEL_PATTERN.test (value.map UInt16.toNat)

/-- On the code units of a text the schema is the one on texts. -/
theorem organizationSlugSchema_encode (value : String) :
    OrganizationSlugSchema ((value.toList.flatMap Utf16.encode).map UInt16.ofNat) =
      Domain.OrganizationSlugSchema value := by
  rw [OrganizationSlugSchema, Utf16.map_toNat_encode, List.length_map,
    Domain.OrganizationSlugSchema,
    dnsLabelSchema, hasLength, ← Text.codeUnits_length]
  rfl

/-- What the identifier library returns, as far as its pattern goes. -/
def GeneratedNanoId : Type := { id : JsString // NanoIdSchema id = true }

/-! ## The slug -/

def SLUG_SEPARATOR_LENGTH : Nat := 1

def ORGANIZATION_SLUG_PREFIX_MAX_LENGTH : Nat :=
  ORGANIZATION_SLUG_MAX_LENGTH - NANO_ID_LENGTH - SLUG_SEPARATOR_LENGTH

/-- `-` -/
def hyphen : UInt16 := 0x2D

/-- `[a-z0-9]` -/
def isKept (u : UInt16) : Bool := isEdgeUnit u.toNat

/-- `String.prototype.trim`. -/
def trim (s : JsString) : JsString :=
  (s.dropWhile fun u => isSpacePoint u.toNat).rdropWhile fun u => isSpacePoint u.toNat

/-- `replaceAll(/[^a-z0-9]+/g, '-')`: a run is replaced where it begins. -/
def collapse : Bool → JsString → JsString
  | _, [] => []
  | inRun, u :: s =>
      if isKept u then u :: collapse false s
      else if inRun then collapse true s
      else hyphen :: collapse true s

/-- The replacement of `^-` by nothing. -/
def stripFirst : JsString → JsString
  | [] => []
  | u :: s => if u = hyphen then s else u :: s

/-- The replacement of `-$` by nothing. -/
def stripLast (s : JsString) : JsString := if s.getLast? = some hyphen then s.dropLast else s

/-- `replaceAll(/(^-|-$)/g, '')`: a single hyphen is both and is replaced once. -/
def stripEdges (s : JsString) : JsString := stripLast (stripFirst s)

/-- `'organization'` -/
def fallback : JsString := ("organization".toList.map Char.toNat).map UInt16.ofNat

variable (toLowerCase : JsString → JsString)

/-- The part of the slug that comes from the name. -/
def slugPrefix (name : JsString) : JsString :=
  let cut := (stripEdges (collapse false (toLowerCase (trim name)))).take
    ORGANIZATION_SLUG_PREFIX_MAX_LENGTH
  if cut = [] then fallback else cut

def generateNanoId (nanoid : JsString) : Option JsString := make NanoIdSchema nanoid

/-- `createOrganizationSlug`, for what `nanoid()` returns; `none` is an exception. -/
def createOrganizationSlug (name nanoid : JsString) : Option JsString :=
  (generateNanoId nanoid).bind fun id =>
    make OrganizationSlugSchema (slugPrefix toLowerCase name ++ [hyphen] ++ id)

/-! ## The prefix -/

theorem isKept_iff {u : UInt16} : isKept u = true ↔ IsEdge u.toNat := isEdgeUnit_iff

theorem isBody_hyphen : IsBody hyphen.toNat := Or.inr rfl

/-- A text that a label can begin with: a letter or a digit first, if anything. -/
structure Opens (s : JsString) : Prop where
  head : ∀ u, s.head? = some u → IsEdge u.toNat
  body : ∀ u ∈ s, IsBody u.toNat

theorem opens_nil : Opens [] where
  head u h := by cases h
  body u h := absurd h List.not_mem_nil

theorem body_collapse : ∀ (inRun : Bool) (s : JsString), ∀ u ∈ collapse inRun s, IsBody u.toNat
  | _, [], u, h => absurd h List.not_mem_nil
  | inRun, v :: s, u, h => by
      rw [collapse] at h
      split_ifs at h with hv hrun
      · rcases List.mem_cons.mp h with rfl | h
        · exact Or.inl (isKept_iff.mp hv)
        · exact body_collapse false s u h
      · exact body_collapse true s u h
      · rcases List.mem_cons.mp h with rfl | h
        · exact isBody_hyphen
        · exact body_collapse true s u h

/-- Inside a run nothing is written before the next character that is kept. -/
theorem opens_collapse_true : ∀ s : JsString, Opens (collapse true s)
  | [] => opens_nil
  | u :: s => by
      rw [collapse]
      split
      · next hu =>
          have hedge := isKept_iff.mp hu
          refine ⟨fun v hv => ?_, fun v hv => ?_⟩
          · obtain rfl := Option.some.inj hv
            exact hedge
          · rcases List.mem_cons.mp hv with rfl | hv
            · exact Or.inl hedge
            · exact body_collapse false s v hv
      · exact opens_collapse_true s

/-- Behind the hyphen that is stripped stands the rest of a run. -/
theorem opens_stripFirst_collapse (s : JsString) : Opens (stripFirst (collapse false s)) := by
  cases s with
  | nil => exact opens_nil
  | cons u s =>
      by_cases hu : isKept u = true
      · have hedge := isKept_iff.mp hu
        have hne : u ≠ hyphen := by
          rintro rfl
          rw [IsEdge] at hedge
          have hvalue : hyphen.toNat = 45 := rfl
          omega
        rw [collapse, if_pos hu, stripFirst, if_neg hne]
        refine ⟨fun v hv => ?_, fun v hv => ?_⟩
        · obtain rfl := Option.some.inj hv
          exact hedge
        · rcases List.mem_cons.mp hv with rfl | hv
          · exact Or.inl hedge
          · exact body_collapse false s v hv
      · rw [collapse, if_neg hu, if_neg Bool.false_ne_true, stripFirst, if_pos rfl]
        exact opens_collapse_true s

/-- What is left of it from the front is one, too. -/
theorem Opens.take {s t : JsString} (h : Opens s) (ht : t <+: s) : Opens t := by
  refine ⟨fun u hu => ?_, fun u hu => h.body u (ht.subset hu)⟩
  obtain ⟨rest, rfl⟩ := ht
  cases t with
  | nil => cases hu
  | cons v t => exact h.head u hu

theorem stripLast_isPrefix (s : JsString) : stripLast s <+: s := by
  unfold stripLast
  split
  · exact List.dropLast_prefix s
  · exact List.prefix_rfl

theorem opens_fallback : Opens fallback := by
  have hall : fallback.all isKept = true := by decide
  have hedge : ∀ u ∈ fallback, IsEdge u.toNat := fun u hu =>
    isKept_iff.mp (List.all_eq_true.mp hall u hu)
  exact ⟨fun u hu => hedge u (List.mem_of_mem_head? hu), fun u hu => Or.inl (hedge u hu)⟩

/-- The prefix opens a label, is not empty, and leaves room for a hyphen and an identifier. -/
theorem slugPrefix_spec (name : JsString) :
    Opens (slugPrefix toLowerCase name) ∧ slugPrefix toLowerCase name ≠ [] ∧
      (slugPrefix toLowerCase name).length ≤ ORGANIZATION_SLUG_PREFIX_MAX_LENGTH := by
  unfold slugPrefix
  dsimp only
  split
  · exact ⟨opens_fallback, by decide, by decide⟩
  · next hne =>
      refine ⟨?_, hne, List.length_take_le _ _⟩
      apply (opens_stripFirst_collapse (toLowerCase (trim name))).take
      exact (List.take_prefix _ _).trans (stripLast_isPrefix _)

/-! ## The slug is a label -/

theorem nanoIdSchema_iff {id : JsString} :
    NanoIdSchema id = true ↔ id.length = NANO_ID_LENGTH ∧ ∀ u ∈ id, IsEdge u.toNat := by
  rw [NanoIdSchema, nanoIdPattern_iff, IsNanoIdText, List.length_map, List.forall_mem_map]

/-- A prefix, a hyphen and an identifier are a label that fits. -/
theorem organizationSlugSchema_of_parts {cut id : JsString} (hopens : Opens cut) (hne : cut ≠ [])
    (hlength : cut.length ≤ ORGANIZATION_SLUG_PREFIX_MAX_LENGTH) (hid : NanoIdSchema id = true) :
    OrganizationSlugSchema (cut ++ [hyphen] ++ id) = true := by
  obtain ⟨hidLength, hidEdges⟩ := nanoIdSchema_iff.mp hid
  have hidNe : id ≠ [] := by
    rintro rfl
    cases hidLength
  have hmax : ORGANIZATION_SLUG_PREFIX_MAX_LENGTH + 1 + NANO_ID_LENGTH =
      ORGANIZATION_SLUG_MAX_LENGTH := rfl
  have hmin : ORGANIZATION_SLUG_MIN_LENGTH = 1 := rfl
  have htotal : (cut ++ [hyphen] ++ id).length = cut.length + 1 + NANO_ID_LENGTH := by
    rw [List.length_append, List.length_append, hidLength, List.length_singleton]
  rw [OrganizationSlugSchema, Bool.and_eq_true, Bool.and_eq_true, decide_eq_true_eq,
    decide_eq_true_eq, dnsLabelPattern_iff, htotal]
  refine ⟨⟨by omega, by omega⟩, ⟨?_, ?_, ?_⟩, ?_⟩
  · simp
  · cases cut with
    | nil => exact absurd rfl hne
    | cons u cut => exact hopens.head u rfl
  · rw [List.getLast_map, List.getLast_append_of_ne_nil _ hidNe]
    exact hidEdges _ (List.getLast_mem hidNe)
  · rw [List.forall_mem_map]
    intro u hu
    rcases List.mem_append.mp hu with hu | hu
    · rcases List.mem_append.mp hu with hu | hu
      · exact hopens.body u hu
      · rw [List.mem_singleton.mp hu]
        exact isBody_hyphen
    · exact Or.inl (hidEdges u hu)

/-- Every name and every identifier give a slug, and it is the prefix, a hyphen and the
identifier. -/
theorem createOrganizationSlug_eq (name : JsString) (id : GeneratedNanoId) :
    createOrganizationSlug toLowerCase name id.val =
      some (slugPrefix toLowerCase name ++ [hyphen] ++ id.val) := by
  obtain ⟨hopens, hne, hlength⟩ := slugPrefix_spec toLowerCase name
  have hvalid := organizationSlugSchema_of_parts hopens hne hlength id.property
  rw [createOrganizationSlug, generateNanoId, make, if_pos id.property, Option.bind_some, make,
    if_pos hvalid]

/-- Slugs are made without an exception, are labels of at most 63 characters that end in a hyphen
and the identifier, and tell identifiers apart whatever the names. -/
theorem createOrganizationSlug_valid (toLowerCase : JsString → JsString) :
    (∀ (name : JsString) (id : GeneratedNanoId), ∃ slug cut,
      createOrganizationSlug toLowerCase name id.val = some slug ∧
        OrganizationSlugSchema slug = true ∧ IsLabel (slug.map UInt16.toNat) ∧ slug.length ≤ 63 ∧
        slug = cut ++ [hyphen] ++ id.val ∧ id.val.length = 24) ∧
    (∀ (name name' : JsString) (id id' : GeneratedNanoId), id.val ≠ id'.val →
      createOrganizationSlug toLowerCase name id.val ≠
        createOrganizationSlug toLowerCase name' id'.val) := by
  constructor
  · intro name id
    obtain ⟨hopens, hne, hlength⟩ := slugPrefix_spec toLowerCase name
    have hvalid := organizationSlugSchema_of_parts hopens hne hlength id.property
    have hschema := hvalid
    rw [OrganizationSlugSchema, Bool.and_eq_true, Bool.and_eq_true, decide_eq_true_eq,
      decide_eq_true_eq, dnsLabelPattern_iff] at hschema
    exact ⟨_, _, createOrganizationSlug_eq toLowerCase name id, hvalid, hschema.2, hschema.1.2, rfl,
      (nanoIdSchema_iff.mp id.property).1⟩
  · intro name name' id id' hne heq
    rw [createOrganizationSlug_eq, createOrganizationSlug_eq] at heq
    have hlength : id.val.length = id'.val.length :=
      (nanoIdSchema_iff.mp id.property).1.trans (nanoIdSchema_iff.mp id'.property).1.symm
    exact hne (List.append_inj_right' (Option.some.inj heq) hlength)

end FissionPlane.ConsoleWeb
