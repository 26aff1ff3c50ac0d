/-
# FissionPlane.Domain.Values -- the validated value objects of the Rust domain

Canonical identifiers are 24-character NanoIDs, slugs and aliases are DNS labels, display names are
bounded, unpadded and free of control characters, and an artifact is named by its digest. Every
value object is built by its `parse` alone; the type carries what `parse` checked.

The checks run over the UTF-8 bytes of the value, except for display names, which count `char`s.
-/
import FissionPlane.Lib.Text

namespace FissionPlane.Domain

open FissionPlane.Lib

def NANO_ID_LENGTH : Nat := 24

/-- A domain primitive failed validation. -/
inductive ValueObjectError where
  | invalidNanoId (kind : String)
  | empty (kind : String)
  | tooShort (kind : String) (min : Nat)
  | tooLong (kind : String) (max : Nat)
  | invalidCharacters (kind : String)
  deriving DecidableEq, Repr

def ValueObjectError.message : ValueObjectError → String
  | .invalidNanoId kind =>
      kind ++ " must be a " ++ toString NANO_ID_LENGTH ++ "-character lowercase-alphanumeric NanoID"
  | .empty kind => kind ++ " must not be empty"
  | .tooShort kind min => kind ++ " must be at least " ++ toString min ++ " characters"
  | .tooLong kind max => kind ++ " must be at most " ++ toString max ++ " characters"
  | .invalidCharacters kind => kind ++ " contains invalid characters"

/-! ## The checks -/

def isAsciiLowercase (byte : UInt8) : Bool := decide (97 ≤ byte.toNat) && decide (byte.toNat ≤ 122)
def isAsciiDigit (byte : UInt8) : Bool := decide (48 ≤ byte.toNat) && decide (byte.toNat ≤ 57)

def isNanoId (value : String) : Bool :=
  let bytes := Text.bytes value.toList
  bytes.length == NANO_ID_LENGTH && bytes.all fun byte => isAsciiLowercase byte || isAsciiDigit byte

def validateDisplayName (value kind : String) (min max : Nat) :
    Except ValueObjectError String :=
  let chars := value.toList
  if chars.isEmpty then .error (.empty kind)
  else if chars.length < min then .error (.tooShort kind min)
  else if max < chars.length then .error (.tooLong kind max)
  else if Text.trim chars != chars || chars.any Text.isControl then
    .error (.invalidCharacters kind)
  else .ok value

def validEdge (byte : UInt8) : Bool := isAsciiLowercase byte || isAsciiDigit byte
def validBody (byte : UInt8) : Bool := validEdge byte || byte == 45

def validateDnsLabel (value kind : String) (min max : Nat) : Except ValueObjectError String :=
  let bytes := Text.bytes value.toList
  if bytes.isEmpty then .error (.empty kind)
  else if bytes.length < min then .error (.tooShort kind min)
  else if max < bytes.length then .error (.tooLong kind max)
  else
    match bytes.head?, bytes.getLast? with
    -- `-` is a body byte only: a label neither starts nor ends with it
    | some first, some last =>
        if !validEdge first || !validEdge last || !bytes.all validBody then
          .error (.invalidCharacters kind)
        else .ok value
    -- not reached: the bytes are not empty here
    | _, _ => .error (.empty kind)

/-! ## What the checks accept -/

/-- `validate_display_name` as a predicate on the text. -/
theorem validateDisplayName_isOk_iff {value kind : String} {min max : Nat} :
    (validateDisplayName value kind min max).isOk = true ↔
      ∃ h : value.toList ≠ [], (min ≤ value.toList.length ∧ value.toList.length ≤ max) ∧
        Text.isWhitespace (value.toList.head h) = false ∧
        Text.isWhitespace (value.toList.getLast h) = false ∧
        value.toList.any Text.isControl = false := by
  rw [validateDisplayName]
  by_cases he : value.toList = []
  · simp [he, Except.isOk, Except.toBool]
  · have htrim := Text.trim_eq_self_iff he
    rw [if_neg (List.isEmpty_iff.not.mpr he)]
    by_cases hmin : value.toList.length < min
    · rw [if_pos hmin]
      exact ⟨fun h => (by cases h), fun ⟨_, hb, _⟩ => absurd hb.1 (by omega)⟩
    · rw [if_neg hmin]
      by_cases hmax : max < value.toList.length
      · rw [if_pos hmax]
        exact ⟨fun h => (by cases h), fun ⟨_, hb, _⟩ => absurd hb.2 (by omega)⟩
      · rw [if_neg hmax]
        split
        next hbad =>
          refine ⟨fun h => (by cases h), fun ⟨_, _, hhead, hlast, hcontrol⟩ => ?_⟩
          rw [hcontrol, Bool.or_false, bne_iff_ne] at hbad
          exact absurd (htrim.mpr ⟨hhead, hlast⟩) hbad
        next hgood =>
          rw [Bool.or_eq_true, bne_iff_ne, not_or, not_not, Bool.not_eq_true] at hgood
          obtain ⟨hhead, hlast⟩ := htrim.mp hgood.1
          exact ⟨fun _ => ⟨he, ⟨by omega, by omega⟩, hhead, hlast, hgood.2⟩, fun _ => rfl⟩

theorem validateDisplayName_ok {value kind out : String} {min max : Nat}
    (h : validateDisplayName value kind min max = .ok out) : out = value := by
  simp only [validateDisplayName] at h
  split_ifs at h
  exact (Except.ok.inj h).symm

/-- The edge and body bytes of a label, as values. -/
def IsEdge (v : Nat) : Prop := (97 ≤ v ∧ v ≤ 122) ∨ (48 ≤ v ∧ v ≤ 57)
def IsBody (v : Nat) : Prop := IsEdge v ∨ v = 45

theorem IsEdge.lt {v : Nat} (h : IsEdge v) : v < 0x80 := by
  rcases h with h | h <;> omega

theorem IsBody.lt {v : Nat} (h : IsBody v) : v < 0x80 := by
  rcases h with h | h
  · exact h.lt
  · omega

theorem validEdge_iff {byte : UInt8} : validEdge byte = true ↔ IsEdge byte.toNat := by
  simp [validEdge, isAsciiLowercase, isAsciiDigit, IsEdge]

theorem validBody_iff {byte : UInt8} : validBody byte = true ↔ IsBody byte.toNat := by
  rw [validBody, Bool.or_eq_true, validEdge_iff, beq_iff_eq, IsBody, ← UInt8.toNat_inj]
  rfl

/-- A lowercase DNS label over the values of any encoding: alphanumeric edges, inner hyphens. -/
def IsLabel (l : List Nat) : Prop :=
  (∃ h : l ≠ [], IsEdge (l.head h) ∧ IsEdge (l.getLast h)) ∧ ∀ v ∈ l, IsBody v

/-- `validate_dns_label` as a predicate on the bytes. -/
theorem validateDnsLabel_isOk_iff {value kind : String} {min max : Nat} :
    (validateDnsLabel value kind min max).isOk = true ↔
      IsLabel ((Text.bytes value.toList).map UInt8.toNat) ∧
        min ≤ (Text.bytes value.toList).length ∧ (Text.bytes value.toList).length ≤ max := by
  rw [validateDnsLabel]
  generalize Text.bytes value.toList = bytes
  by_cases he : bytes = []
  · subst he
    exact ⟨fun h => (by cases h), fun ⟨⟨⟨h, _⟩, _⟩, _⟩ => absurd rfl h⟩
  · rw [if_neg (List.isEmpty_iff.not.mpr he)]
    by_cases hmin : bytes.length < min
    · rw [if_pos hmin]
      exact ⟨fun h => (by cases h), fun ⟨_, hb⟩ => absurd hb.1 (by omega)⟩
    · rw [if_neg hmin]
      by_cases hmax : max < bytes.length
      · rw [if_pos hmax]
        exact ⟨fun h => (by cases h), fun ⟨_, hb⟩ => absurd hb.2 (by omega)⟩
      · rw [if_neg hmax, List.head?_eq_some_head he, List.getLast?_eq_some_getLast he]
        simp only [IsLabel, List.head_map, List.getLast_map, ← validEdge_iff, ne_eq,
          List.map_eq_nil_iff, List.forall_mem_map, ← validBody_iff]
        rw [← List.all_eq_true]
        split
        next hbad =>
          refine ⟨fun h => (by cases h), fun ⟨⟨⟨_, hfirst, hlast⟩, hbody⟩, _⟩ => ?_⟩
          rw [hfirst, hlast, hbody] at hbad
          cases hbad
        next hgood =>
          simp only [Bool.or_eq_true, Bool.not_eq_true', not_or, Bool.not_eq_false] at hgood
          exact ⟨fun _ => ⟨⟨⟨he, hgood.1.1, hgood.1.2⟩, hgood.2⟩, by omega, by omega⟩,
            fun _ => rfl⟩

theorem validateDnsLabel_ok {value kind out : String} {min max : Nat}
    (h : validateDnsLabel value kind min max = .ok out) : out = value := by
  simp only [validateDnsLabel] at h
  split_ifs at h
  split at h
  · split_ifs at h
    exact (Except.ok.inj h).symm
  · cases h

/-- A NanoID over the values of any encoding. -/
def IsNanoIdText (l : List Nat) : Prop := l.length = NANO_ID_LENGTH ∧ ∀ v ∈ l, IsEdge v

theorem isNanoId_iff {value : String} :
    isNanoId value = true ↔ IsNanoIdText ((Text.bytes value.toList).map UInt8.toNat) := by
  simp only [isNanoId, IsNanoIdText, Bool.and_eq_true, beq_iff_eq, List.length_map,
    List.forall_mem_map, ← validEdge_iff]
  exact and_congr_right fun _ => List.all_eq_true

/-! ## The value objects -/

/-- `nano_id_type!`: a canonical identifier of the family `kind`. -/
structure NanoId (kind : String) where
  value : String
  valid : isNanoId value = true
  deriving DecidableEq

def NanoId.parse (kind value : String) : Except ValueObjectError (NanoId kind) :=
  if h : isNanoId value = true then .ok ⟨value, h⟩ else .error (.invalidNanoId kind)

abbrev OrganizationId := NanoId "OrganizationId"
abbrev SandboxId := NanoId "SandboxId"
abbrev TemplateId := NanoId "TemplateId"
abbrev TemplateBuildId := NanoId "TemplateBuildId"

def OrganizationId.parse : String → Except ValueObjectError OrganizationId :=
  NanoId.parse "OrganizationId"
def SandboxId.parse : String → Except ValueObjectError SandboxId := NanoId.parse "SandboxId"
def TemplateId.parse : String → Except ValueObjectError TemplateId := NanoId.parse "TemplateId"
def TemplateBuildId.parse : String → Except ValueObjectError TemplateBuildId :=
  NanoId.parse "TemplateBuildId"

/-- `display_name_type!` -/
structure DisplayName (kind : String) (min max : Nat) where
  value : String
  valid : validateDisplayName value kind min max = .ok value
  deriving DecidableEq

def DisplayName.parse (kind : String) (min max : Nat) (value : String) :
    Except ValueObjectError (DisplayName kind min max) :=
  match h : validateDisplayName value kind min max with
  | .ok _ => .ok ⟨value, by rw [h, validateDisplayName_ok h]⟩
  | .error error => .error error

def ORGANIZATION_NAME_MIN_LENGTH : Nat := 1
def ORGANIZATION_NAME_MAX_LENGTH : Nat := 100
def USER_DISPLAY_NAME_MIN_LENGTH : Nat := 1
def USER_DISPLAY_NAME_MAX_LENGTH : Nat := 80
def RESOURCE_DESCRIPTION_MIN_LENGTH : Nat := 1
def RESOURCE_DESCRIPTION_MAX_LENGTH : Nat := 2000

abbrev OrganizationName := DisplayName "OrganizationName"
  ORGANIZATION_NAME_MIN_LENGTH ORGANIZATION_NAME_MAX_LENGTH
abbrev UserDisplayName := DisplayName "UserDisplayName"
  USER_DISPLAY_NAME_MIN_LENGTH USER_DISPLAY_NAME_MAX_LENGTH
abbrev ResourceDescription := DisplayName "ResourceDescription"
  RESOURCE_DESCRIPTION_MIN_LENGTH RESOURCE_DESCRIPTION_MAX_LENGTH

def OrganizationName.parse : String → Except ValueObjectError OrganizationName :=
  DisplayName.parse _ _ _
def UserDisplayName.parse : String → Except ValueObjectError UserDisplayName :=
  DisplayName.parse _ _ _
def ResourceDescription.parse : String → Except ValueObjectError ResourceDescription :=
  DisplayName.parse _ _ _

/-- `dns_name_type!` -/
structure DnsName (kind : String) (min max : Nat) where
  value : String
  valid : validateDnsLabel value kind min max = .ok value
  deriving DecidableEq

def DnsName.parse (kind : String) (min max : Nat) (value : String) :
    Except ValueObjectError (DnsName kind min max) :=
  match h : validateDnsLabel value kind min max with
  | .ok _ => .ok ⟨value, by rw [h, validateDnsLabel_ok h]⟩
  | .error error => .error error

def ORGANIZATION_SLUG_MIN_LENGTH : Nat := 1
def ORGANIZATION_SLUG_MAX_LENGTH : Nat := 63
def SANDBOX_NAME_MIN_LENGTH : Nat := 1
def SANDBOX_NAME_MAX_LENGTH : Nat := 63
def TEMPLATE_ALIAS_MIN_LENGTH : Nat := 1
def TEMPLATE_ALIAS_MAX_LENGTH : Nat := 63

abbrev OrganizationSlug := DnsName "OrganizationSlug"
  ORGANIZATION_SLUG_MIN_LENGTH ORGANIZATION_SLUG_MAX_LENGTH
abbrev SandboxName := DnsName "SandboxName" SANDBOX_NAME_MIN_LENGTH SANDBOX_NAME_MAX_LENGTH
abbrev TemplateAlias := DnsName "TemplateAlias" TEMPLATE_ALIAS_MIN_LENGTH TEMPLATE_ALIAS_MAX_LENGTH

def OrganizationSlug.parse : String → Except ValueObjectError OrganizationSlug :=
  DnsName.parse _ _ _
def SandboxName.parse : String → Except ValueObjectError SandboxName := DnsName.parse _ _ _
def TemplateAlias.parse : String → Except ValueObjectError TemplateAlias := DnsName.parse _ _ _

/-! ## `parse` accepts what the check accepts -/

theorem NanoId.parse_isOk {kind value : String} :
    (NanoId.parse kind value).isOk = isNanoId value := by
  rw [NanoId.parse]
  split
  next h => exact h.symm
  next h => exact (Bool.eq_false_iff.mpr h).symm

theorem DisplayName.parse_isOk {kind value : String} {min max : Nat} :
    (DisplayName.parse kind min max value).isOk =
      (validateDisplayName value kind min max).isOk := by
  rw [DisplayName.parse]
  split
  next h => exact (congrArg Except.isOk h).symm
  next h => exact (congrArg Except.isOk h).symm

theorem DnsName.parse_isOk {kind value : String} {min max : Nat} :
    (DnsName.parse kind min max value).isOk = (validateDnsLabel value kind min max).isOk := by
  rw [DnsName.parse]
  split
  next h => exact (congrArg Except.isOk h).symm
  next h => exact (congrArg Except.isOk h).symm

/-! ## Artifacts -/

/-- Prefix identifying the artifact digest algorithm. -/
def ARTIFACT_ID_PREFIX : String := "sha256:"
def ARTIFACT_DIGEST_HEX_LENGTH : Nat := 64

/-- A lowercase hexadecimal digit. -/
def isLowerHex (byte : UInt8) : Bool :=
  isAsciiDigit byte || (decide (97 ≤ byte.toNat) && decide (byte.toNat ≤ 102))

/-- What `ArtifactId::parse` checks. -/
def isArtifactId (id : String) : Bool :=
  match id.toList.dropPrefix? ARTIFACT_ID_PREFIX.toList with
  | none => false
  | some digest =>
      !((Text.bytes digest).length != ARTIFACT_DIGEST_HEX_LENGTH ||
        !(Text.bytes digest).all isLowerHex)

/-- Content-addressed identity of an immutable artifact. -/
structure ArtifactId where
  value : String
  valid : isArtifactId value = true
  deriving DecidableEq

inductive ArtifactIdError where
  | malformed
  deriving DecidableEq, Repr

def ArtifactIdError.message : ArtifactIdError → String
  | .malformed => "artifact ID must be a lowercase SHA-256 digest"

def ArtifactId.parse (id : String) : Except ArtifactIdError ArtifactId :=
  if h : isArtifactId id = true then .ok ⟨id, h⟩ else .error .malformed

theorem ArtifactId.parse_isOk {id : String} : (ArtifactId.parse id).isOk = isArtifactId id := by
  rw [ArtifactId.parse]
  split
  next h => exact h.symm
  next h => exact (Bool.eq_false_iff.mpr h).symm

/-- The values of `0-9a-f`. -/
def IsHexValue (v : Nat) : Prop := (48 ≤ v ∧ v ≤ 57) ∨ (97 ≤ v ∧ v ≤ 102)

/-- A digest over the values of any encoding. -/
def IsDigest (l : List Nat) : Prop :=
  l.length = ARTIFACT_DIGEST_HEX_LENGTH ∧ ∀ v ∈ l, IsHexValue v

theorem isLowerHex_iff {byte : UInt8} : isLowerHex byte = true ↔ IsHexValue byte.toNat := by
  simp [isLowerHex, isAsciiDigit, IsHexValue]

theorem isArtifactId_iff {id : String} :
    isArtifactId id = true ↔
      ∃ digest, id.toList = ARTIFACT_ID_PREFIX.toList ++ digest ∧
        IsDigest ((Text.bytes digest).map UInt8.toNat) := by
  have hdigest : ∀ digest, IsDigest ((Text.bytes digest).map UInt8.toNat) ↔
      (!((Text.bytes digest).length != ARTIFACT_DIGEST_HEX_LENGTH ||
        !(Text.bytes digest).all isLowerHex)) = true := by
    intro digest
    simp [IsDigest, ← isLowerHex_iff]
  rw [isArtifactId]
  split
  next hnone =>
    refine ⟨fun h => (by cases h), fun ⟨digest, hid, _⟩ => ?_⟩
    have hsome : id.toList.dropPrefix? ARTIFACT_ID_PREFIX.toList = some digest :=
      List.dropPrefix?_eq_some_iff.mpr ⟨_, hid, beq_self_eq_true _⟩
    rw [hnone] at hsome
    cases hsome
  next digest hsome =>
    obtain ⟨p, hid, hp⟩ := List.dropPrefix?_eq_some_iff.mp hsome
    rw [beq_iff_eq.mp hp] at hid
    rw [← hdigest]
    refine ⟨fun h => ⟨digest, hid, h⟩, fun ⟨other, hother, h⟩ => ?_⟩
    rw [hid] at hother
    rwa [List.append_cancel_left hother]

end FissionPlane.Domain
