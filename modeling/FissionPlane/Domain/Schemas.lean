/-
# FissionPlane.Domain.Schemas -- the TypeScript schemas of the same values

The core library bounds a string by its JavaScript length and matches it against a regular
expression. Only the display-name pattern carries the `u` flag and reads code points; the label and
NanoID patterns read UTF-16 code units. The contract names an artifact by a pattern of its own.
-/
import FissionPlane.Lib.Regex
import FissionPlane.Domain.Values

namespace FissionPlane.Domain

open FissionPlane.Lib

/-! ## Patterns -/

/-- Rejects leading/trailing whitespace and any Unicode control character:
`/^(?!\s)(?!.*\s$)[^\p{Cc}]+$/u`. -/
def DISPLAY_NAME_PATTERN : Regex Char :=
  .seq .start
    (.seq (.notAhead (.chr Text.isJsSpace))
      (.seq
        (.notAhead
          (.seq (.star (.chr fun c => !Text.isLineTerminator c))
            (.seq (.chr Text.isJsSpace) .finish)))
        (.seq (.plus (.chr fun c => !Text.isControl c)) .finish)))

/-- `[a-z0-9]` over code units. -/
def isEdgeUnit (u : Nat) : Bool :=
  (decide (97 ≤ u) && decide (u ≤ 122)) || (decide (48 ≤ u) && decide (u ≤ 57))

/-- `[a-z0-9-]` over code units. -/
def isBodyUnit (u : Nat) : Bool := isEdgeUnit u || u == 45

/-- Lowercase DNS label: alphanumeric edges, optional inner hyphens:
`/^[a-z0-9](?:[a-z0-9-]*[a-z0-9])?$/`. -/
def DNS_LABEL_PATTERN : Regex Nat :=
  .seq .start
    (.seq
      (.seq (.chr isEdgeUnit) (.opt (.seq (.star (.chr isBodyUnit)) (.chr isEdgeUnit)))) .finish)

def NANO_ID_ALPHABET : String := "0123456789abcdefghijklmnopqrstuvwxyz"

/-- `^[NANO_ID_ALPHABET]{NANO_ID_LENGTH}$` -/
def NANO_ID_PATTERN : Regex Nat :=
  .seq .start
    (.seq (.rep (.chr fun u => (NANO_ID_ALPHABET.toList.map Char.toNat).contains u) NANO_ID_LENGTH)
      .finish)

/-- `[a-f0-9]` over code points. -/
def isHexChar (c : Char) : Bool :=
  (decide ('a' ≤ c) && decide (c ≤ 'f')) || (decide ('0' ≤ c) && decide (c ≤ '9'))

/-- The contract's `^sha256:[a-f0-9]{64}$`. -/
def artifactIdPattern : Regex Char :=
  .seq .start (.seq (.seq (.lit "sha256:".toList) (.rep (.chr isHexChar) 64)) .finish)

/-! ## Schemas -/

/-- `Schema.minLength` and `Schema.maxLength`. -/
def hasLength (minLength maxLength : Nat) (value : String) : Bool :=
  decide (minLength ≤ Utf16.length value.toList) && decide (Utf16.length value.toList ≤ maxLength)

/-- Human-readable label bounded by the caller's exported length constants. -/
def displayNameSchema (minLength maxLength : Nat) (value : String) : Bool :=
  hasLength minLength maxLength value && DISPLAY_NAME_PATTERN.test value.toList

/-- DNS-label-compatible name bounded by the caller's exported constants. -/
def dnsLabelSchema (minLength maxLength : Nat) (value : String) : Bool :=
  hasLength minLength maxLength value && DNS_LABEL_PATTERN.test (Text.codeUnits value.toList)

def NanoIdSchema (value : String) : Bool := NANO_ID_PATTERN.test (Text.codeUnits value.toList)

def OrganizationNameSchema : String → Bool :=
  displayNameSchema ORGANIZATION_NAME_MIN_LENGTH ORGANIZATION_NAME_MAX_LENGTH
def UserDisplayNameSchema : String → Bool :=
  displayNameSchema USER_DISPLAY_NAME_MIN_LENGTH USER_DISPLAY_NAME_MAX_LENGTH
def ResourceDescriptionSchema : String → Bool :=
  displayNameSchema RESOURCE_DESCRIPTION_MIN_LENGTH RESOURCE_DESCRIPTION_MAX_LENGTH

def OrganizationSlugSchema : String → Bool :=
  dnsLabelSchema ORGANIZATION_SLUG_MIN_LENGTH ORGANIZATION_SLUG_MAX_LENGTH
def SandboxNameSchema : String → Bool :=
  dnsLabelSchema SANDBOX_NAME_MIN_LENGTH SANDBOX_NAME_MAX_LENGTH
def TemplateAliasSchema : String → Bool :=
  dnsLabelSchema TEMPLATE_ALIAS_MIN_LENGTH TEMPLATE_ALIAS_MAX_LENGTH

/-! ## What the patterns accept -/

theorem isEdgeUnit_iff {u : Nat} : isEdgeUnit u = true ↔ IsEdge u := by
  simp [isEdgeUnit, IsEdge]

theorem isBodyUnit_iff {u : Nat} : isBodyUnit u = true ↔ IsBody u := by
  simp [isBodyUnit, IsBody, isEdgeUnit_iff]

/-- The label pattern accepts exactly the labels. -/
theorem dnsLabelPattern_iff {units : List Nat} :
    DNS_LABEL_PATTERN.test units = true ↔ IsLabel units := by
  rw [DNS_LABEL_PATTERN, Regex.test_whole_iff]
  constructor
  · rintro ⟨rest, ⟨c, hc, rfl⟩, hrest⟩
    rcases hrest with ⟨m, hm, d, hd, rfl⟩ | hrest
    · obtain ⟨u, hu, rfl⟩ := Regex.reaches_star_chr_iff.mp hm
      refine ⟨⟨List.cons_ne_nil _ _, isEdgeUnit_iff.mp hc, ?_⟩, ?_⟩
      · rw [List.getLast_cons (by simp), List.getLast_append_of_ne_nil _ (by simp)]
        exact isEdgeUnit_iff.mp hd
      · intro v hv
        rcases List.mem_cons.mp hv with rfl | hv
        · exact Or.inl (isEdgeUnit_iff.mp hc)
        · rcases List.mem_append.mp hv with hv | hv
          · exact isBodyUnit_iff.mp (hu v hv)
          · rw [List.mem_singleton.mp hv]
            exact Or.inl (isEdgeUnit_iff.mp hd)
    · cases hrest
      refine ⟨⟨List.cons_ne_nil _ _, isEdgeUnit_iff.mp hc, isEdgeUnit_iff.mp hc⟩, ?_⟩
      intro v hv
      rw [List.mem_singleton.mp hv]
      exact Or.inl (isEdgeUnit_iff.mp hc)
  · rintro ⟨⟨hne, hfirst, hlast⟩, hbody⟩
    cases units with
    | nil => exact absurd rfl hne
    | cons c rest =>
        refine ⟨rest, ⟨c, isEdgeUnit_iff.mpr hfirst, rfl⟩, ?_⟩
        by_cases hrest : rest = []
        · exact Or.inr (by rw [hrest]; rfl)
        · rw [List.getLast_cons hrest] at hlast
          refine Or.inl ⟨[rest.getLast hrest], ?_, ?_⟩
          · refine Regex.reaches_star_chr_iff.mpr ⟨rest.dropLast, fun v hv => ?_, ?_⟩
            · exact isBodyUnit_iff.mpr
                (hbody v (List.mem_cons_of_mem c (List.mem_of_mem_dropLast hv)))
            · exact (List.dropLast_append_getLast hrest).symm
          · exact ⟨_, isEdgeUnit_iff.mpr hlast, rfl⟩

/-- The alphabet spells out the class of the label's edges. -/
theorem nanoIdAlphabet_iff {u : Nat} :
    (NANO_ID_ALPHABET.toList.map Char.toNat).contains u = true ↔ IsEdge u := by
  have hvalues : NANO_ID_ALPHABET.toList.map Char.toNat =
      List.range' 48 10 ++ List.range' 97 26 := by decide +kernel
  rw [hvalues, List.contains_iff_mem, List.mem_append, List.mem_range'_1, List.mem_range'_1, IsEdge]
  omega

theorem nanoIdPattern_iff {units : List Nat} :
    NANO_ID_PATTERN.test units = true ↔ IsNanoIdText units := by
  rw [NANO_ID_PATTERN, Regex.test_whole_iff, Regex.reaches_rep_chr_iff]
  constructor
  · rintro ⟨u, hlen, hu, rfl⟩
    rw [List.append_nil]
    exact ⟨hlen, fun v hv => nanoIdAlphabet_iff.mp (hu v hv)⟩
  · rintro ⟨hlen, hu⟩
    exact ⟨units, hlen, fun v hv => nanoIdAlphabet_iff.mpr (hu v hv), (List.append_nil _).symm⟩

theorem isHexChar_iff {c : Char} : isHexChar c = true ↔ IsHexValue c.toNat := by
  simp only [isHexChar, IsHexValue, Bool.or_eq_true, Bool.and_eq_true, decide_eq_true_eq,
    Char.le_def, UInt32.le_iff_toNat_le]
  exact or_comm

theorem artifactIdPattern_iff {s : List Char} :
    artifactIdPattern.test s = true ↔
      ∃ digest, s = ARTIFACT_ID_PREFIX.toList ++ digest ∧ IsDigest (digest.map Char.toNat) := by
  rw [artifactIdPattern, Regex.test_whole_iff]
  constructor
  · rintro ⟨m, hm, hrep⟩
    obtain ⟨digest, hlen, hhex, hdigest⟩ := Regex.reaches_rep_chr_iff.mp hrep
    rw [List.append_nil] at hdigest
    refine ⟨digest, by rw [Regex.reaches_lit_iff.mp hm, hdigest]; rfl, ?_, ?_⟩
    · rw [List.length_map, hlen]; rfl
    · rw [List.forall_mem_map]
      exact fun c hc => isHexChar_iff.mp (hhex c hc)
  · rintro ⟨digest, rfl, hlen, hhex⟩
    rw [List.length_map] at hlen
    rw [List.forall_mem_map] at hhex
    exact ⟨digest, Regex.reaches_lit_iff.mpr rfl, Regex.reaches_rep_chr_iff.mpr
      ⟨digest, hlen, fun c hc => isHexChar_iff.mpr (hhex c hc), (List.append_nil _).symm⟩⟩

/-- A separator before the last character ends the run `.*` can take, so that the lookahead for
trailing white space never reaches the end. -/
def hidesEnd (s : List Char) : Bool := s.dropLast.any Text.isLineTerminator

/-- The display-name pattern over any alphabet with its three classes. -/
def displayNameRegex {α : Type} (isSpace isTerminator isControl : α → Bool) : Regex α :=
  .seq .start
    (.seq (.notAhead (.chr isSpace))
      (.seq
        (.notAhead (.seq (.star (.chr fun c => !isTerminator c)) (.seq (.chr isSpace) .finish)))
        (.seq (.plus (.chr fun c => !isControl c)) .finish)))

/-- What the pattern accepts, whatever the classes are: the lookahead for white space at the end
does not see past a terminator. -/
theorem displayNameRegex_iff {α : Type} {isSpace isTerminator isControl : α → Bool} {s : List α} :
    (displayNameRegex isSpace isTerminator isControl).test s = true ↔
      ∃ h : s ≠ [], s.any isControl = false ∧ isSpace (s.head h) = false ∧
        (s.dropLast.any isTerminator = true ∨ isSpace (s.getLast h) = false) := by
  rw [displayNameRegex, Regex.test_start_iff]
  constructor
  · rintro ⟨t, s₁, ⟨hlead, h₁⟩, s₂, ⟨htrail, h₂⟩, hall⟩
    rw [h₂, h₁] at hall
    rw [h₁] at htrail
    obtain ⟨u, hne, hu, hs⟩ := Regex.reaches_plus_chr_iff.mp (Regex.reaches_finish_iff.mp ⟨t, hall⟩)
    rw [List.append_nil] at hs
    rw [← hs] at hne hu
    refine ⟨hne, List.any_eq_false.mpr fun c hc => by simpa using hu c hc, ?_, ?_⟩
    · refine Bool.eq_false_iff.mpr fun hspace => hlead ⟨s.tail, _, hspace, ?_⟩
      exact (List.cons_head_tail hne).symm
    · by_contra hboth
      rw [not_or, Bool.not_eq_true, Bool.not_eq_false] at hboth
      obtain ⟨hhides, hspace⟩ := hboth
      -- all before the last character is a run of `.*`, so the lookahead would match
      refine htrail ⟨[], [_], ?_, [], ⟨_, hspace, rfl⟩, rfl, rfl⟩
      refine Regex.reaches_star_chr_iff.mpr ⟨_, fun c hc => ?_,
        (List.dropLast_append_getLast hne).symm⟩
      rw [Bool.not_eq_true', Bool.eq_false_iff]
      exact List.any_eq_false.mp hhides c hc
  · rintro ⟨hne, hcontrol, hlead, htrail⟩
    refine ⟨[], s, ⟨?_, rfl⟩, s, ⟨?_, rfl⟩, [], ?_, rfl, rfl⟩
    · rintro ⟨t, c, hc, rfl⟩
      rw [List.head_cons, hc] at hlead
      cases hlead
    · rintro ⟨t, m, hm, _, ⟨c, hc, rfl⟩, rfl, rfl⟩
      obtain ⟨u, hu, rfl⟩ := Regex.reaches_star_chr_iff.mp hm
      rw [List.getLast_append_of_ne_nil _ (List.cons_ne_nil c []), List.getLast_singleton, hc,
        or_iff_left (by decide), List.dropLast_concat] at htrail
      -- a run of `.*` up to the last character would contain the terminator
      obtain ⟨d, hd, hterm⟩ := List.any_eq_true.mp htrail
      have hdot := hu d hd
      rw [hterm] at hdot
      cases hdot
    · refine Regex.reaches_plus_chr_iff.mpr ⟨s, hne, fun c hc => ?_, (List.append_nil s).symm⟩
      rw [Bool.not_eq_true', Bool.eq_false_iff]
      exact List.any_eq_false.mp hcontrol c hc

/-- What the display-name pattern accepts: the lookahead for white space at the end does not see
past a line terminator. -/
theorem displayNamePattern_iff {s : List Char} :
    DISPLAY_NAME_PATTERN.test s = true ↔
      ∃ h : s ≠ [], s.any Text.isControl = false ∧ Text.isJsSpace (s.head h) = false ∧
        (hidesEnd s = true ∨ Text.isJsSpace (s.getLast h) = false) :=
  displayNameRegex_iff

end FissionPlane.Domain
