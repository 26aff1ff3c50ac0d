/-
# FissionPlane.Domain.Agreement -- the two languages against each other

Labels, NanoIDs and artifact identifiers have an ASCII alphabet, so the byte loops of Rust and the
patterns of TypeScript accept the same strings at every bound. Display names do not: TypeScript
bounds UTF-16 units where Rust bounds code points, `\s` takes the byte order mark for white space,
and a line or paragraph separator stops the `.*` of the lookahead that looks for trailing white
space. `namesAgreeOn` says exactly where these three leave the verdicts equal.
-/
import FissionPlane.Domain.Schemas

namespace FissionPlane.Domain

open FissionPlane.Lib

/-! ## Identifiers and labels -/

/-- A label within bounds, over the values of any encoding. -/
def IsBoundedLabel (min max : Nat) (l : List Nat) : Prop :=
  IsLabel l ∧ min ≤ l.length ∧ l.length ≤ max

/-- Rust reads bytes and TypeScript code units, but the two agree on every ASCII property. -/
theorem bytes_iff_codeUnits (P : List Nat → Prop) (hP : ∀ l, P l → ∀ v ∈ l, v < 0x80)
    (s : List Char) : P ((Text.bytes s).map UInt8.toNat) ↔ P (Text.codeUnits s) := by
  rw [Text.bytes_map_toNat, Text.codeUnits, Text.utf8_ascii.holds_iff P hP,
    Text.utf16_ascii.holds_iff P hP]

/-- `validate_dns_label` and `dnsLabelSchema` accept the same strings. -/
theorem validateDnsLabel_eq_schema (value kind : String) (min max : Nat) :
    (validateDnsLabel value kind min max).isOk = dnsLabelSchema min max value := by
  have hP : ∀ l, IsBoundedLabel min max l → ∀ v ∈ l, v < 0x80 := fun l h v hv => (h.1.2 v hv).lt
  have hbytes : (validateDnsLabel value kind min max).isOk = true ↔
      IsBoundedLabel min max ((Text.bytes value.toList).map UInt8.toNat) := by
    rw [validateDnsLabel_isOk_iff, IsBoundedLabel, List.length_map]
  have hunits : dnsLabelSchema min max value = true ↔
      IsBoundedLabel min max (Text.codeUnits value.toList) := by
    rw [dnsLabelSchema, hasLength, Bool.and_eq_true, Bool.and_eq_true, decide_eq_true_eq,
      decide_eq_true_eq, dnsLabelPattern_iff, IsBoundedLabel, Text.codeUnits_length]
    exact and_comm
  rw [Bool.eq_iff_iff, hbytes, hunits]
  exact bytes_iff_codeUnits _ hP _

/-- `is_nano_id` and `NANO_ID_PATTERN` accept the same strings. -/
theorem isNanoId_eq_schema (value : String) : isNanoId value = NanoIdSchema value := by
  rw [Bool.eq_iff_iff, isNanoId_iff, NanoIdSchema, nanoIdPattern_iff]
  exact bytes_iff_codeUnits _ (fun l h v hv => (h.2 v hv).lt) _

theorem IsHexValue.lt {v : Nat} (h : IsHexValue v) : v < 0x80 := by
  rcases h with h | h <;> omega

/-- The bytes of a digest are its characters. -/
theorem isDigest_bytes_iff {digest : List Char} :
    IsDigest ((Text.bytes digest).map UInt8.toNat) ↔ IsDigest (digest.map Char.toNat) := by
  rw [Text.bytes_map_toNat]
  exact Text.utf8_ascii.holds_iff IsDigest (fun l h v hv => (h.2 v hv).lt) digest

/-- `ArtifactId::parse` and the contract's pattern accept the same strings. -/
theorem isArtifactId_eq_pattern (id : String) :
    isArtifactId id = artifactIdPattern.test id.toList := by
  rw [Bool.eq_iff_iff, isArtifactId_iff, artifactIdPattern_iff]
  exact exists_congr fun digest => and_congr_right fun _ => isDigest_bytes_iff

/-- **The identifier and label grammars agree.** Every DNS-label parse accepts what the schema with
its bounds accepts, every NanoID parse what the pattern accepts, and `ArtifactId::parse` exactly
`sha256:` with 64 characters of `0-9a-f`, which is the contract's pattern. -/
theorem identifier_grammars_agree :
    (∀ (kind value : String) (min max : Nat),
      (DnsName.parse kind min max value).isOk = dnsLabelSchema min max value) ∧
    (∀ value : String,
      (OrganizationSlug.parse value).isOk = OrganizationSlugSchema value ∧
      (SandboxName.parse value).isOk = SandboxNameSchema value ∧
      (TemplateAlias.parse value).isOk = TemplateAliasSchema value) ∧
    (∀ kind value : String,
      (NanoId.parse kind value).isOk = NANO_ID_PATTERN.test (Text.codeUnits value.toList)) ∧
    (∀ id : String,
      ((ArtifactId.parse id).isOk = true ↔
        ∃ digest, id.toList = "sha256:".toList ++ digest ∧ digest.length = 64 ∧
          ∀ c ∈ digest, ('0' ≤ c ∧ c ≤ '9') ∨ ('a' ≤ c ∧ c ≤ 'f')) ∧
      (ArtifactId.parse id).isOk = artifactIdPattern.test id.toList) := by
  have hdns : ∀ (kind value : String) (min max : Nat),
      (DnsName.parse kind min max value).isOk = dnsLabelSchema min max value := by
    intro kind value min max
    rw [DnsName.parse_isOk]
    exact validateDnsLabel_eq_schema value kind min max
  refine ⟨hdns, fun value => ⟨hdns _ _ _ _, hdns _ _ _ _, hdns _ _ _ _⟩, ?_, ?_⟩
  · intro kind value
    rw [NanoId.parse_isOk]
    exact isNanoId_eq_schema value
  · intro id
    refine ⟨?_, by rw [ArtifactId.parse_isOk]; exact isArtifactId_eq_pattern id⟩
    rw [ArtifactId.parse_isOk, isArtifactId_iff]
    refine exists_congr fun digest => and_congr_right fun _ => ?_
    rw [isDigest_bytes_iff, IsDigest, List.length_map, List.forall_mem_map]
    rfl

/-! ## Display names -/

/-- `minLength ≤ k ≤ maxLength` -/
def Within (min max k : Nat) : Prop := min ≤ k ∧ k ≤ max

/-- `displayNameSchema` as a predicate on the text. -/
theorem displayNameSchema_iff {min max : Nat} {value : String} :
    displayNameSchema min max value = true ↔
      ∃ h : value.toList ≠ [], Within min max (Utf16.length value.toList) ∧
        value.toList.any Text.isControl = false ∧
        Text.isJsSpace (value.toList.head h) = false ∧
        (hidesEnd value.toList = true ∨ Text.isJsSpace (value.toList.getLast h) = false) := by
  rw [displayNameSchema, hasLength, Bool.and_eq_true, Bool.and_eq_true, decide_eq_true_eq,
    decide_eq_true_eq, displayNamePattern_iff]
  constructor
  · rintro ⟨hlen, hne, hrest⟩
    exact ⟨hne, hlen, hrest⟩
  · rintro ⟨hne, hlen, hrest⟩
    exact ⟨hlen, hne, hrest⟩

/-- Where the two display-name checks agree. Both refuse an empty text, a control character and
white space in front. Past these, a text with white space at its end is refused by the pattern
unless a line terminator hides that end; one with a byte order mark at an edge the pattern sees is
refused by the pattern alone; and for every other text the two lengths decide. -/
def NamesAgreeOn (min max : Nat) (s : List Char) : Prop :=
  s.any Text.isControl = true ∨ ∀ h : s ≠ [], Text.isWhitespace (s.head h) = true ∨
    if Text.isWhitespace (s.getLast h) = true then
      hidesEnd s = false ∨ Text.isByteOrderMark (s.head h) = true ∨
        ¬ Within min max (Utf16.length s)
    else if Text.isByteOrderMark (s.head h) = true ∨
        (Text.isByteOrderMark (s.getLast h) = true ∧ hidesEnd s = false) then
      ¬ Within min max s.length
    else (Within min max s.length ↔ Within min max (Utf16.length s))

/-- The verdicts of the two checks, once no control character is left, over the four facts about
the text and the two about its lengths. -/
theorem verdicts_agree_iff {headWs lastWs headBom lastBom hides : Bool} {n u : Prop}
    (hlast : lastBom = true → lastWs = false) (hhead : headBom = true → headWs = false) :
    ((n ∧ headWs = false ∧ lastWs = false) ↔
      (u ∧ (headWs || headBom) = false ∧ (hides = true ∨ (lastWs || lastBom) = false))) ↔
    (headWs = true ∨
      if lastWs = true then hides = false ∨ headBom = true ∨ ¬ u
      else if headBom = true ∨ (lastBom = true ∧ hides = false) then ¬ n
      else (n ↔ u)) := by
  cases headWs <;> cases lastWs <;> cases headBom <;> cases lastBom <;> cases hides <;>
    simp at hlast hhead ⊢

/-- **Display names agree exactly where `NamesAgreeOn` says.** -/
theorem displayNames_agree_iff (value kind : String) (min max : Nat) :
    (validateDisplayName value kind min max).isOk = displayNameSchema min max value ↔
      NamesAgreeOn min max value.toList := by
  rw [Bool.eq_iff_iff, validateDisplayName_isOk_iff, displayNameSchema_iff, NamesAgreeOn]
  generalize value.toList = s
  by_cases hc : s.any Text.isControl = true
  · -- both refuse a control character
    refine iff_of_true (iff_of_false ?_ ?_) (Or.inl hc)
    · rintro ⟨_, _, _, _, h⟩
      rw [hc] at h
      cases h
    · rintro ⟨_, _, h, _⟩
      rw [hc] at h
      cases h
  · rw [or_iff_right hc]
    by_cases he : s = []
    · exact iff_of_true (iff_of_false (fun ⟨h, _⟩ => h he) fun ⟨h, _⟩ => h he)
        fun h => absurd he h
    · rw [Bool.not_eq_true] at hc
      have hspace : ∀ c ∈ s,
          Text.isJsSpace c = (Text.isWhitespace c || Text.isByteOrderMark c) := by
        intro c hmem
        rw [Bool.eq_iff_iff, Bool.or_eq_true]
        exact Text.isJsSpace_iff (Bool.eq_false_iff.mpr (List.any_eq_false.mp hc c hmem))
      simp only [hc, he, and_true, true_and, ne_eq, not_false_eq_true, exists_true_left,
        forall_true_left, hspace _ (List.head_mem _), hspace _ (List.getLast_mem _)]
      exact verdicts_agree_iff Text.isWhitespace_of_isByteOrderMark
        Text.isWhitespace_of_isByteOrderMark

/-- Trailing white space that Rust refuses passes the schema behind a line separator, although the
pattern's own comment rules it out. -/
theorem not_displayNames_agree :
    ¬ ∀ (value kind : String) (min max : Nat),
      (validateDisplayName value kind min max).isOk = displayNameSchema min max value := by
  intro h
  have hcase := h "a\u2028b " "UserDisplayName" USER_DISPLAY_NAME_MIN_LENGTH
    USER_DISPLAY_NAME_MAX_LENGTH
  revert hcase
  decide +kernel

end FissionPlane.Domain
