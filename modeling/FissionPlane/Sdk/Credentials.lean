/-
# FissionPlane.Sdk.Credentials -- which credential a client authenticates with

A client is given an API key, an access token, both or neither, and may find an API key in the
environment. Each SDK has a precedence chain of its own, a check for white space in the terms of
its language, and an HTTP library that takes the header when the client is built (Rust, Python) or
when a request is (TypeScript).

Of the libraries, `isHeaderValue` is what `HeaderValue::from_str` accepts, and `encodes` what
`httpx` can encode. JavaScript's `Headers` are those of the Fetch standard.
-/
import FissionPlane.Lib.FetchHeaders
import FissionPlane.Lib.Text

namespace FissionPlane.Sdk.Credentials

open FissionPlane.Lib FissionPlane.Lib.FetchHeaders

/-- What the constructors look at. -/
structure Config where
  apiKey : Option String
  accessToken : Option String
  /-- `FISSIONPLANE_API_KEY` -/
  env : Option String
  deriving DecidableEq

/-- How the requests of a client to the control plane are authenticated. -/
inductive Outcome where
  | rejected
  | authenticates (header value : String)
  | anonymous
  /-- Building a request throws. -/
  | unsendable
  deriving DecidableEq

/-- A constructor that throws, or one that gives its client a header. -/
def Outcome.ofExcept {ε : Type} : Except ε (String × String) → Outcome
  | .error _ => .rejected
  | .ok (header, value) => .authenticates header value

/-! ## Rust -/

namespace Rust

/-- `validate_credential` -/
def validateCredential (secret origin : String) : Except String Unit :=
  if secret.toList.isEmpty then
    .error (origin ++ " is empty: pass a credential to ClientOptions::api_key or " ++
      "ClientOptions::access_token, or set FISSIONPLANE_API_KEY")
  else if secret.toList.any Text.isWhitespace then
    .error (origin ++ " contains whitespace: pass the credential verbatim to " ++
      "ClientOptions::api_key or ClientOptions::access_token, or set " ++
      "FISSIONPLANE_API_KEY without surrounding quotes or a trailing newline")
  else .ok ()

/-- The header of a secret, validated before the bearer scheme is prepended. -/
def credential (isHeaderValue : String → Bool) (header secret origin : String) :
    Except String (String × String) :=
  match validateCredential secret origin with
  | .error message => .error message
  | .ok () =>
      let credential := if header = "Authorization" then "Bearer " ++ secret else secret
      if isHeaderValue credential then .ok (header, credential)
      else .error "credential is not a header value: failed to parse header value"

/-- `FissionPlane::new`, as far as the credential goes. -/
def new (isHeaderValue : String → Bool) (config : Config) : Except String (String × String) :=
  match config.apiKey, config.accessToken with
  | some key, _ => credential isHeaderValue "X-API-Key" key "the API key"
  | none, some token => credential isHeaderValue "Authorization" token "the access token"
  | none, none =>
      match config.env with
      | some key => credential isHeaderValue "X-API-Key" key "FISSIONPLANE_API_KEY"
      | none => .error "no credential: pass api_key/access_token or set FISSIONPLANE_API_KEY"

def outcome (isHeaderValue : String → Bool) (config : Config) : Outcome :=
  .ofExcept (new isHeaderValue config)

end Rust

/-! ## TypeScript -/

namespace TypeScript

/-- `checkCredential`, with the message of its `AuthenticationError`. -/
def checkCredential (value option : String) : Except String Unit :=
  if value.toList.isEmpty = false ∧ value.toList.any Text.isJsSpace = false then .ok ()
  else
    let fault :=
      if value.toList.isEmpty then "empty" else "not a single token: it contains whitespace"
    .error (option ++ " is " ++ fault ++ "; pass one as new FissionPlane(\x7b " ++ option ++
      ": '…' \x7d)" ++
      if option = "apiKey" then " or set FISSIONPLANE_API_KEY in the environment" else "")

/-- A credential that may be absent is checked if it is there. -/
def checkOption (value : Option String) (option : String) : Except String Unit :=
  match value with
  | none => .ok ()
  | some value => checkCredential value option

/-- The credential header of `createApiClient`. -/
def createApiClient (apiKey accessToken : Option String) : Option (String × String) :=
  match apiKey, accessToken with
  | some key, _ => some ("X-API-Key", key)
  | none, some token => some ("Authorization", "Bearer " ++ token)
  | none, none => none

/-- The constructor; an unused token is checked as well. -/
def new (config : Config) : Except String (Option (String × String)) :=
  let apiKey := config.apiKey <|> config.env
  match checkOption apiKey "apiKey", checkOption config.accessToken "accessToken" with
  | .error message, _ => .error message
  | _, .error message => .error message
  | .ok (), .ok () => .ok (createApiClient apiKey config.accessToken)

/-- A request sets the header of the client on a `Headers` object of its own. -/
def outcome (config : Config) : Outcome :=
  match new config with
  | .error _ => .rejected
  | .ok none => .anonymous
  | .ok (some (header, value)) =>
      match (Headers.empty.set header value).bind (Headers.get · header) with
      | some value => .authenticates header value
      | none => .unsendable

end TypeScript

/-! ## Python -/

namespace Python

inductive ConstructionError where
  | valueError (message : String)
  | unicodeEncodeError
  deriving DecidableEq

/-- `_validate_credential` -/
def validateCredential (kind value : String) : Except ConstructionError String :=
  if value.toList.isEmpty || value.toList.any Text.isPySpace then
    .error (.valueError (kind ++ " is empty or contains whitespace; pass a valid credential as " ++
      "FissionPlane(" ++ kind ++ "=...) or set FISSIONPLANE_API_KEY"))
  else .ok value

/-- `_resolve_credential` -/
def resolveCredential (config : Config) : Except ConstructionError (String × String) :=
  let resolvedKey := config.apiKey <|> config.env
  match resolvedKey, config.accessToken with
  | some key, _ => (validateCredential "api_key" key).map fun value => ("X-API-Key", value)
  | none, some token =>
      (validateCredential "access_token" token).map fun value =>
        ("Authorization", "Bearer " ++ value)
  | none, none =>
      .error (.valueError "no credential: pass api_key/access_token or set FISSIONPLANE_API_KEY")

/-- The HTTP client encodes its headers when it is built. -/
def install (encodes : String → Bool) (credential : String × String) :
    Except ConstructionError (String × String) :=
  if encodes credential.2 then .ok credential else .error .unicodeEncodeError

/-- `_build_api_client`, for either transport. -/
def buildApiClient (encodes : String → Bool) (config : Config) :
    Except ConstructionError (String × String) :=
  (resolveCredential config).bind (install encodes)

def outcome (encodes : String → Bool) (config : Config) : Outcome :=
  .ofExcept (buildApiClient encodes config)

end Python

/-! ## Which secrets are refused -/

/-- The empty secret, one with white space, and one that makes no header value. -/
def RustRefuses (isHeaderValue : String → Bool) (scheme secret : String) : Prop :=
  secret.toList = [] ∨ (∃ c ∈ secret.toList, Text.isWhitespace c = true) ∨
    isHeaderValue (scheme ++ secret) = false

def TypeScriptRefuses (secret : String) : Prop :=
  secret.toList = [] ∨ ∃ c ∈ secret.toList, Text.isJsSpace c = true

/-- The empty secret, one with white space, and one that is not ASCII. -/
def PythonRefuses (secret : String) : Prop :=
  secret.toList = [] ∨ ∃ c ∈ secret.toList, Text.isPySpace c = true ∨ 0x80 ≤ c.toNat

/-- A secret of visible ASCII characters. -/
def Visible (secret : String) : Prop :=
  secret.toList ≠ [] ∧ ∀ c ∈ secret.toList, 0x21 ≤ c.toNat ∧ c.toNat ≤ 0x7E

variable {isHeaderValue encodes : String → Bool} {secret scheme header origin option kind : String}

/-- What JavaScript takes for white space is white space to Python, or not ASCII. -/
theorem pythonRefuses_of_typeScriptRefuses (h : TypeScriptRefuses secret) :
    PythonRefuses secret := by
  obtain h | ⟨c, hc, hspace⟩ := h
  · exact .inl h
  · refine .inr ⟨c, hc, ?_⟩
    obtain h | h := Text.isWhitespace_of_isJsSpace hspace
    · left
      rw [Text.isPySpace, h, Bool.true_or]
    · right
      simp only [Text.isByteOrderMark, beq_iff_eq] at h
      omega

theorem Visible.ascii (h : Visible secret) : ∀ c ∈ secret.toList, c.toNat < 0x80 := by
  intro c hc
  have hvisible := (h.2 c hc).2
  omega

theorem Visible.not_pythonRefuses (h : Visible secret) : ¬ PythonRefuses secret := by
  rintro (hempty | ⟨c, hc, hspace | hhigh⟩)
  · exact h.1 hempty
  · obtain ⟨hlow, hhigh⟩ := h.2 c hc
    rw [Text.isPySpace_of_visible hlow hhigh] at hspace
    exact Bool.false_ne_true hspace
  · have hlow := h.ascii c hc
    omega

theorem Visible.not_typeScriptRefuses (h : Visible secret) : ¬ TypeScriptRefuses secret :=
  fun hrefuses => h.not_pythonRefuses (pythonRefuses_of_typeScriptRefuses hrefuses)

section

variable (hfrom : ∀ s : String, (∀ c ∈ s.toList, c.toNat < 0x80) → (isHeaderValue s = true ↔
    ∀ c ∈ s.toList, c = '\t' ∨ (0x20 ≤ c.toNat ∧ c.toNat ≤ 0x7E)))

include hfrom

theorem Visible.not_rustRefuses (h : Visible secret)
    (hscheme : ∀ c ∈ scheme.toList, 0x20 ≤ c.toNat ∧ c.toNat ≤ 0x7E) :
    ¬ RustRefuses isHeaderValue scheme secret := by
  rintro (hempty | ⟨c, hc, hspace⟩ | hvalue)
  · exact h.1 hempty
  · obtain ⟨hlow, hhigh⟩ := h.2 c hc
    have hpy : Text.isPySpace c = true := by rw [Text.isPySpace, hspace, Bool.true_or]
    rw [Text.isPySpace_of_visible hlow hhigh] at hpy
    exact Bool.false_ne_true hpy
  · have hchars : ∀ c ∈ (scheme ++ secret).toList, 0x20 ≤ c.toNat ∧ c.toNat ≤ 0x7E := by
      intro c hc
      rw [String.toList_append] at hc
      rcases List.mem_append.mp hc with hc | hc
      · exact hscheme c hc
      · have hvisible := h.2 c hc
        omega
    have hascii : ∀ c ∈ (scheme ++ secret).toList, c.toNat < 0x80 := by
      intro c hc
      have hvisible := hchars c hc
      omega
    have hok := (hfrom _ hascii).mpr fun c hc => .inr (hchars c hc)
    exact Bool.false_ne_true (hvalue.symm.trans hok)

/-- A secret that Rust and Python take is visible. -/
theorem visible_of_not_refuses (hrust : ¬ RustRefuses isHeaderValue scheme secret)
    (hpython : ¬ PythonRefuses secret) (hscheme : ∀ c ∈ scheme.toList, c.toNat < 0x80) :
    Visible secret := by
  have hempty : secret.toList ≠ [] := fun h => hrust (.inl h)
  have hsecret : ∀ c ∈ secret.toList, c.toNat < 0x80 := by
    intro c hc
    by_contra hhigh
    exact hpython (.inr ⟨c, hc, .inr (by omega)⟩)
  have hascii : ∀ c ∈ (scheme ++ secret).toList, c.toNat < 0x80 := by
    intro c hc
    rw [String.toList_append] at hc
    rcases List.mem_append.mp hc with hc | hc
    · exact hscheme c hc
    · exact hsecret c hc
  have hvalue : isHeaderValue (scheme ++ secret) = true := by
    refine Bool.eq_true_of_not_eq_false fun hfalse => ?_
    exact hrust (.inr (.inr hfalse))
  refine ⟨hempty, fun c hc => ?_⟩
  have hspace : ¬ Text.isPySpace c = true := fun h => hpython (.inr ⟨c, hc, .inl h⟩)
  have hmem : c ∈ (scheme ++ secret).toList := by
    rw [String.toList_append]
    exact List.mem_append_right _ hc
  have hcase := (hfrom _ hascii).mp hvalue c hmem
  obtain rfl | hvisible := hcase
  · exact absurd (by decide) hspace
  · have hne : c.toNat ≠ 0x20 := by
      intro h
      refine hspace ?_
      simp [Text.isPySpace, Text.isWhitespace, Text.isSpaceSeparator, h]
    omega

end

/-! ## What each client makes of a secret -/

/-- The outcome of a client that refuses or sends a secret. -/
def Sends (refuses : Prop) (outcome : Outcome) (header value : String) : Prop :=
  (refuses → outcome = .rejected) ∧ (¬ refuses → outcome = .authenticates header value)

theorem Rust.credential_sends
    (hvalue : (if header = "Authorization" then "Bearer " ++ secret else secret) =
      scheme ++ secret) :
    Sends (RustRefuses isHeaderValue scheme secret)
      (.ofExcept (credential isHeaderValue header secret origin)) header (scheme ++ secret) := by
  unfold credential validateCredential
  simp only [hvalue]
  by_cases hempty : secret.toList = []
  · rw [if_pos (List.isEmpty_iff.mpr hempty)]
    exact ⟨fun _ => rfl, fun h => absurd (.inl hempty) h⟩
  rw [if_neg (List.isEmpty_iff.not.mpr hempty)]
  by_cases hspace : secret.toList.any Text.isWhitespace = true
  · rw [if_pos hspace]
    exact ⟨fun _ => rfl, fun h => absurd (.inr (.inl (List.any_eq_true.mp hspace))) h⟩
  rw [if_neg hspace]
  cases hheader : isHeaderValue (scheme ++ secret) with
  | true =>
      refine ⟨?_, fun _ => ?_⟩
      · rintro (h | h | h)
        · exact absurd h hempty
        · exact absurd (List.any_eq_true.mpr h) hspace
        · exact absurd (hheader.symm.trans h) (by decide)
      · simp only [if_true]
        rfl
  | false =>
      refine ⟨fun _ => ?_, fun h => absurd (.inr (.inr hheader)) h⟩
      simp only [Bool.false_eq_true, if_false]
      rfl

theorem Python.validateCredential_of_refuses (kind : String)
    (h : secret.toList = [] ∨ ∃ c ∈ secret.toList, Text.isPySpace c = true) :
    ∃ e, validateCredential kind secret = .error e := by
  rw [validateCredential, if_pos]
  · exact ⟨_, rfl⟩
  · rw [Bool.or_eq_true, List.isEmpty_iff, List.any_eq_true]
    exact h

theorem Python.validateCredential_of_not_refuses
    (h : ¬ (secret.toList = [] ∨ ∃ c ∈ secret.toList, Text.isPySpace c = true)) :
    validateCredential kind secret = .ok secret := by
  rw [validateCredential, if_neg]
  rw [Bool.or_eq_true, List.isEmpty_iff, List.any_eq_true]
  exact h

/-- A secret that is validated, given its scheme and encoded. -/
theorem Python.credential_sends
    (hencode : ∀ s : String, encodes s = true ↔ ∀ c ∈ s.toList, c.toNat < 0x80)
    (hscheme : ∀ c ∈ scheme.toList, c.toNat < 0x80) :
    Sends (PythonRefuses secret)
      (.ofExcept (((validateCredential kind secret).map fun value =>
        (header, scheme ++ value)).bind (install encodes)))
      header (scheme ++ secret) := by
  by_cases hspace : secret.toList = [] ∨ ∃ c ∈ secret.toList, Text.isPySpace c = true
  · obtain ⟨e, he⟩ := validateCredential_of_refuses kind hspace
    rw [he]
    refine ⟨fun _ => rfl, fun h => absurd ?_ h⟩
    exact hspace.imp_right fun ⟨c, hc, hspace⟩ => ⟨c, hc, .inl hspace⟩
  rw [validateCredential_of_not_refuses hspace]
  cases hvalue : encodes (scheme ++ secret) with
  | true =>
      have hascii := (hencode _).mp hvalue
      refine ⟨?_, fun _ => ?_⟩
      · rintro (h | ⟨c, hc, h | h⟩)
        · exact absurd (.inl h) hspace
        · exact absurd (.inr ⟨c, hc, h⟩) hspace
        · have hlow := hascii c (by rw [String.toList_append]; exact List.mem_append_right _ hc)
          omega
      · show Outcome.ofExcept (install encodes (header, scheme ++ secret)) = _
        rw [install, if_pos hvalue]
        rfl
  | false =>
      refine ⟨fun _ => ?_, fun h => absurd ?_ h⟩
      · show Outcome.ofExcept (install encodes (header, scheme ++ secret)) = _
        rw [install, hvalue, if_neg Bool.false_ne_true]
        rfl
      by_contra hnot
      refine Bool.false_ne_true (hvalue.symm.trans ((hencode _).mpr fun c hc => ?_))
      rw [String.toList_append] at hc
      rcases List.mem_append.mp hc with hc | hc
      · exact hscheme c hc
      · by_contra hhigh
        exact hnot (.inr ⟨c, hc, .inr (by omega)⟩)

theorem TypeScript.checkCredential_of_refuses (h : TypeScriptRefuses secret) :
    ∃ e, checkCredential secret option = .error e := by
  rw [checkCredential, if_neg]
  · exact ⟨_, rfl⟩
  · rintro ⟨hempty, hspace⟩
    obtain h | h := h
    · exact absurd (List.isEmpty_iff.mpr h) (by rw [hempty]; decide)
    · exact absurd (List.any_eq_true.mpr h) (by rw [hspace]; decide)

theorem TypeScript.checkCredential_of_not_refuses (h : ¬ TypeScriptRefuses secret) :
    checkCredential secret option = .ok () := by
  rw [checkCredential, if_pos]
  refine ⟨?_, ?_⟩
  · exact eq_false_of_ne_true fun hempty => h (.inl (List.isEmpty_iff.mp hempty))
  · exact eq_false_of_ne_true fun hspace => h (.inr (List.any_eq_true.mp hspace))

/-- The absent credential is not refused. -/
def TypeScriptRefusesOption (value : Option String) : Prop :=
  ∃ secret ∈ value, TypeScriptRefuses secret

theorem TypeScript.checkOption_cases (value : Option String) (option : String) :
    (TypeScriptRefusesOption value ∧ ∃ e, checkOption value option = .error e) ∨
      (¬ TypeScriptRefusesOption value ∧ checkOption value option = .ok ()) := by
  cases value with
  | none => exact .inr ⟨nofun, rfl⟩
  | some secret =>
      by_cases h : TypeScriptRefuses secret
      · exact .inl ⟨⟨secret, rfl, h⟩, checkCredential_of_refuses h⟩
      · refine .inr ⟨?_, checkCredential_of_not_refuses h⟩
        rintro ⟨_, heq, hrefuses⟩
        obtain rfl := Option.some.inj heq
        exact h hrefuses

/-- The constructor throws exactly when it is given a credential that it refuses. -/
theorem TypeScript.new_cases (config : Config) :
    ((TypeScriptRefusesOption (config.apiKey <|> config.env) ∨
        TypeScriptRefusesOption config.accessToken) ∧ ∃ e, new config = .error e) ∨
      (¬ (TypeScriptRefusesOption (config.apiKey <|> config.env) ∨
        TypeScriptRefusesOption config.accessToken) ∧
        new config = .ok (createApiClient (config.apiKey <|> config.env) config.accessToken)) := by
  unfold new
  obtain ⟨hkey, e, he⟩ | ⟨hkey, hk⟩ := checkOption_cases (config.apiKey <|> config.env) "apiKey"
  · left
    simp only [he]
    exact ⟨.inl hkey, _, rfl⟩
  · obtain ⟨htoken, e, he⟩ | ⟨htoken, ht⟩ := checkOption_cases config.accessToken "accessToken"
    · left
      simp only [hk, he]
      exact ⟨.inr htoken, _, rfl⟩
    · right
      simp only [hk, ht]
      exact ⟨not_or.mpr ⟨hkey, htoken⟩, trivial⟩

theorem TypeScript.outcome_ne_rejected {found : Option (String × String)} {config : Config}
    (h : new config = .ok found) : outcome config ≠ .rejected := by
  unfold outcome
  rw [h]
  cases found with
  | none => nofun
  | some credential =>
      simp only
      split <;> nofun

theorem TypeScript.outcome_rejected_iff (config : Config) : outcome config = .rejected ↔
    TypeScriptRefusesOption (config.apiKey <|> config.env) ∨
      TypeScriptRefusesOption config.accessToken := by
  obtain ⟨hrefuses, e, he⟩ | ⟨hnot, hok⟩ := new_cases config
  · refine iff_of_true ?_ hrefuses
    rw [outcome, he]
  · exact iff_of_false (outcome_ne_rejected hok) hnot

/-- A visible secret, after its scheme, is what the requests carry. -/
theorem TypeScript.get_of_visible (header scheme : String) (hheader : isHeaderName header = true)
    (hscheme : scheme.toList.head?.any isHttpWhitespace = false)
    (hvalid : FetchHeaders.isHeaderValue scheme = true) (h : Visible secret) :
    (Headers.empty.set header (scheme ++ secret)).bind (Headers.get · header) =
      some (scheme ++ secret) := by
  have hchar : ∀ c ∈ secret.toList, isHttpWhitespace c = false ∧ isValueChar c = true := by
    intro c hc
    obtain ⟨hlow, hhigh⟩ := h.2 c hc
    have hne : ∀ d : Char, d.toNat < 0x21 → (c == d) = false := by
      intro d hd
      refine beq_eq_false_iff_ne.mpr fun heq => ?_
      rw [heq] at hlow
      omega
    constructor
    · simp only [isHttpWhitespace, hne '\t' (by decide), hne '\n' (by decide),
        hne '\x0d' (by decide), hne ' ' (by decide), Bool.or_false]
    · simp only [isValueChar, bne, hne '\x00' (by decide), hne '\n' (by decide),
        hne '\x0d' (by decide), Bool.not_false, Bool.and_true, decide_eq_true_eq]
      omega
  have hlast : ∀ c ∈ (scheme ++ secret).toList.getLast?, isHttpWhitespace c = false := by
    intro c hc
    rw [String.toList_append, List.getLast?_append_of_ne_nil _ h.1] at hc
    exact (hchar c (List.mem_of_getLast? hc)).1
  have hhead : ∀ c ∈ (scheme ++ secret).toList.head?, isHttpWhitespace c = false := by
    intro c hc
    rw [String.toList_append, List.head?_append] at hc
    cases hs : scheme.toList.head? with
    | none =>
        rw [hs] at hc
        exact (hchar c (List.mem_of_head? hc)).1
    | some d =>
        rw [hs] at hc hscheme
        obtain rfl := Option.some.inj hc
        exact hscheme
  have hnormal : FetchHeaders.normalize (scheme ++ secret) = scheme ++ secret := by
    rw [FetchHeaders.normalize, strip_eq_self hhead hlast, String.ofList_toList]
  have hsecret : FetchHeaders.isHeaderValue secret = true :=
    List.all_eq_true.mpr fun c hc => (hchar c hc).2
  rw [Headers.set, hnormal, hheader, isHeaderValue_append hvalid hsecret]
  show Headers.get (Headers.empty.put header [scheme ++ secret]) header = _
  rw [Headers.get, Headers.put_values_self]
  rfl

/-! ## Agreement -/

/-- The three clients are rejected, or they authenticate with the same header. -/
def Agreement (rust typeScript python : Outcome) : Prop :=
  (rust = .rejected ∧ typeScript = .rejected ∧ python = .rejected) ∨
    ∃ header value, rust = .authenticates header value ∧
      typeScript = .authenticates header value ∧ python = .authenticates header value

/-- Two clients that would send the same secret under the same header, and a third that does so
where it is visible. -/
theorem agreement_iff {r p t : Prop} (v : Prop) {rust typeScript python : Outcome}
    (header value : String) (hrust : Sends r rust header value)
    (hpython : Sends p python header value)
    (hthrows : t → typeScript = .rejected) (hbuilt : ¬ t → typeScript ≠ .rejected)
    (hsent : ¬ t → v → typeScript = .authenticates header value) (hvisible : ¬ r → ¬ p → v) :
    Agreement rust typeScript python ↔ (r ∧ p ∧ t) ∨ (¬ r ∧ ¬ p ∧ ¬ t) := by
  constructor
  · rintro (⟨hr, ht, hp⟩ | ⟨header', value', hr, ht, hp⟩)
    · refine .inl ⟨?_, ?_, ?_⟩
      · by_contra hnot
        cases hr.symm.trans (hrust.2 hnot)
      · by_contra hnot
        cases hp.symm.trans (hpython.2 hnot)
      · by_contra hnot
        exact hbuilt hnot ht
    · refine .inr ⟨fun hr' => ?_, fun hp' => ?_, fun ht' => ?_⟩
      · cases hr.symm.trans (hrust.1 hr')
      · cases hp.symm.trans (hpython.1 hp')
      · cases ht.symm.trans (hthrows ht')
  · rintro (⟨hr, hp, ht⟩ | ⟨hr, hp, ht⟩)
    · exact .inl ⟨hrust.1 hr, hthrows ht, hpython.1 hp⟩
    · exact .inr ⟨header, value, hrust.2 hr, hsent ht (hvisible hr hp), hpython.2 hp⟩

theorem scheme_visible (hscheme : scheme = "" ∨ scheme = "Bearer ") :
    ∀ c ∈ scheme.toList, 0x20 ≤ c.toNat ∧ c.toNat ≤ 0x7E := by
  have hall : (scheme.toList.all fun c =>
      decide (0x20 ≤ c.toNat) && decide (c.toNat ≤ 0x7E)) = true := by
    rcases hscheme with rfl | rfl <;> decide +kernel
  intro c hc
  simpa using List.all_eq_true.mp hall c hc

/-- The three clients of a configuration agree. -/
def Agree (isHeaderValue encodes : String → Bool) (config : Config) : Prop :=
  Agreement (Rust.outcome isHeaderValue config) (TypeScript.outcome config)
    (Python.outcome encodes config)

/-- When they do. A secret has to be visible ASCII or refused by all three, and so has the choice of
the secret: Rust prefers a token to the environment, TypeScript checks a token it does not use and
builds a client without any credential. -/
def Consistent (isHeaderValue : String → Bool) (config : Config) : Prop :=
  match config.apiKey, config.accessToken, config.env with
  | some key, token, _ =>
      (Visible key ∧ ¬ TypeScriptRefusesOption token) ∨
        (RustRefuses isHeaderValue "" key ∧ PythonRefuses key ∧
          (TypeScriptRefuses key ∨ TypeScriptRefusesOption token))
  | none, some token, some key =>
      RustRefuses isHeaderValue "Bearer " token ∧ PythonRefuses key ∧
        (TypeScriptRefuses key ∨ TypeScriptRefuses token)
  | none, some token, none =>
      Visible token ∨ (RustRefuses isHeaderValue "Bearer " token ∧ TypeScriptRefuses token)
  | none, none, some key =>
      Visible key ∨ (RustRefuses isHeaderValue "" key ∧ TypeScriptRefuses key)
  | none, none, none => False

@[simp]
theorem typeScriptRefusesOption_some :
    TypeScriptRefusesOption (some secret) ↔ TypeScriptRefuses secret := by
  constructor
  · rintro ⟨_, heq, h⟩
    obtain rfl := Option.some.inj heq
    exact h
  · exact fun h => ⟨secret, rfl, h⟩

@[simp]
theorem typeScriptRefusesOption_none : ¬ TypeScriptRefusesOption none := nofun

section

variable (hfrom : ∀ s : String, (∀ c ∈ s.toList, c.toNat < 0x80) → (isHeaderValue s = true ↔
    ∀ c ∈ s.toList, c = '\t' ∨ (0x20 ≤ c.toNat ∧ c.toNat ≤ 0x7E)))
  (hencode : ∀ s : String, encodes s = true ↔ ∀ c ∈ s.toList, c.toNat < 0x80)

include hfrom hencode

/-- One secret under one header in all three clients. TypeScript throws for an unused one too. -/
theorem agree_secret (config : Config) (header scheme secret : String)
    (hscheme : scheme = "" ∨ scheme = "Bearer ")
    (hheader : isHeaderName header = true)
    (hrust : ∃ origin, Rust.new isHeaderValue config =
      Rust.credential isHeaderValue header secret origin)
    (hvalue : (if header = "Authorization" then "Bearer " ++ secret else secret) =
      scheme ++ secret)
    (hpython : ∃ kind, Python.resolveCredential config =
      (Python.validateCredential kind secret).map fun value => (header, scheme ++ value))
    (htypeScript : TypeScript.createApiClient (config.apiKey <|> config.env) config.accessToken =
      some (header, scheme ++ secret)) :
    Agree isHeaderValue encodes config ↔
      (RustRefuses isHeaderValue scheme secret ∧ PythonRefuses secret ∧
        (TypeScriptRefusesOption (config.apiKey <|> config.env) ∨
          TypeScriptRefusesOption config.accessToken)) ∨
      (¬ RustRefuses isHeaderValue scheme secret ∧ ¬ PythonRefuses secret ∧
        ¬ (TypeScriptRefusesOption (config.apiKey <|> config.env) ∨
          TypeScriptRefusesOption config.accessToken)) := by
  obtain ⟨origin, hrust⟩ := hrust
  obtain ⟨kind, hpython⟩ := hpython
  have hascii : ∀ c ∈ scheme.toList, c.toNat < 0x80 := by
    intro c hc
    have hvisible := scheme_visible hscheme c hc
    omega
  have hstart : scheme.toList.head?.any isHttpWhitespace = false := by
    rcases hscheme with rfl | rfl <;> decide +kernel
  have hvalid : FetchHeaders.isHeaderValue scheme = true := by
    rcases hscheme with rfl | rfl <;> decide +kernel
  have hrejected := TypeScript.outcome_rejected_iff config
  refine agreement_iff (Visible secret) header (scheme ++ secret) ?_ ?_ ?_ ?_ ?_ ?_
  · rw [Rust.outcome, hrust]
    exact Rust.credential_sends hvalue
  · rw [Python.outcome, Python.buildApiClient, hpython]
    exact Python.credential_sends hencode hascii
  · exact hrejected.mpr
  · exact mt hrejected.mp
  · intro hnot hvisible
    obtain ⟨hrefuses, -⟩ | ⟨-, hok⟩ := TypeScript.new_cases config
    · exact absurd hrefuses hnot
    · have hget := TypeScript.get_of_visible header scheme hheader hstart hvalid hvisible
      rw [TypeScript.outcome, hok, htypeScript]
      simp only [hget]
  · exact fun hr hp => visible_of_not_refuses hfrom hr hp hascii

omit hfrom in
/-- Rust sends the token, Python the key from the environment. -/
theorem agree_token_env {token key : String} :
    Agree isHeaderValue encodes ⟨none, some token, some key⟩ ↔
      RustRefuses isHeaderValue "Bearer " token ∧ PythonRefuses key ∧
        (TypeScriptRefuses key ∨ TypeScriptRefuses token) := by
  have hrust : Sends (RustRefuses isHeaderValue "Bearer " token)
      (Rust.outcome isHeaderValue ⟨none, some token, some key⟩) "Authorization"
      ("Bearer " ++ token) := Rust.credential_sends (if_pos rfl)
  have hpython : Sends (PythonRefuses key) (Python.outcome encodes ⟨none, some token, some key⟩)
      "X-API-Key" ("" ++ key) := by
    have hname : Python.resolveCredential ⟨none, some token, some key⟩ =
        (Python.validateCredential "api_key" key).map fun value => ("X-API-Key", "" ++ value) := by
      simp only [String.empty_append]
      rfl
    rw [Python.outcome, Python.buildApiClient, hname]
    exact Python.credential_sends hencode nofun
  have hrejected : TypeScript.outcome ⟨none, some token, some key⟩ = .rejected ↔
      TypeScriptRefuses key ∨ TypeScriptRefuses token :=
    (TypeScript.outcome_rejected_iff _).trans
      (or_congr typeScriptRefusesOption_some typeScriptRefusesOption_some)
  constructor
  · rintro (⟨hr, ht, hp⟩ | ⟨header, value, hr, -, hp⟩)
    · refine ⟨?_, ?_, ?_⟩
      · by_contra hnot
        cases hr.symm.trans (hrust.2 hnot)
      · by_contra hnot
        cases hp.symm.trans (hpython.2 hnot)
      · exact hrejected.mp ht
    · -- two headers
      by_cases hrefuses : RustRefuses isHeaderValue "Bearer " token
      · cases hr.symm.trans (hrust.1 hrefuses)
      · by_cases hrefuses' : PythonRefuses key
        · cases hp.symm.trans (hpython.1 hrefuses')
        · have hr' := (Outcome.authenticates.inj (hr.symm.trans (hrust.2 hrefuses))).1
          have hp' := (Outcome.authenticates.inj (hp.symm.trans (hpython.2 hrefuses'))).1
          exact absurd (hr'.symm.trans hp') (by decide)
  · rintro ⟨hr, hp, ht⟩
    exact .inl ⟨hrust.1 hr, hrejected.mpr ht, hpython.1 hp⟩

omit hencode in
/-- A secret that none of the three refuses is visible, and the other way round. -/
theorem secret_iff (secret : String) (hscheme : scheme = "" ∨ scheme = "Bearer ") (t : Prop) :
    (RustRefuses isHeaderValue scheme secret ∧ PythonRefuses secret ∧
        (TypeScriptRefuses secret ∨ t)) ∨
      (¬ RustRefuses isHeaderValue scheme secret ∧ ¬ PythonRefuses secret ∧
        ¬ (TypeScriptRefuses secret ∨ t)) ↔
    (Visible secret ∧ ¬ t) ∨ (RustRefuses isHeaderValue scheme secret ∧ PythonRefuses secret ∧
        (TypeScriptRefuses secret ∨ t)) := by
  have hascii := scheme_visible hscheme
  constructor
  · rintro (hall | ⟨hr, hp, ht⟩)
    · exact .inr hall
    · have hlow : ∀ c ∈ scheme.toList, c.toNat < 0x80 := by
        intro c hc
        have hvisible := hascii c hc
        omega
      exact .inl ⟨visible_of_not_refuses hfrom hr hp hlow, (not_or.mp ht).2⟩
  · rintro (⟨hvisible, ht⟩ | hall)
    · exact .inr ⟨hvisible.not_rustRefuses hfrom hascii, hvisible.not_pythonRefuses,
        not_or.mpr ⟨hvisible.not_typeScriptRefuses, ht⟩⟩
    · exact .inl hall

/-- **Which configurations the three clients agree on.** Given what the header types of the two
HTTP libraries take, the clients reject a configuration or authenticate with one header, all
three, exactly when it is consistent. -/
theorem agree_iff_consistent (config : Config) :
    Agree isHeaderValue encodes config ↔ Consistent isHeaderValue config := by
  obtain ⟨apiKey, accessToken, env⟩ := config
  match apiKey, accessToken, env with
  | some key, token, env =>
      have hagree := agree_secret hfrom hencode ⟨some key, token, env⟩ "X-API-Key" "" key
        (.inl rfl) (by decide +kernel) ⟨_, rfl⟩ (by simp)
        ⟨"api_key", by simp only [String.empty_append]; rfl⟩
        (by simp only [String.empty_append]; rfl)
      simp only [show (some key <|> env) = some key from rfl, typeScriptRefusesOption_some]
        at hagree
      exact hagree.trans (secret_iff hfrom key (.inl rfl) _)
  | none, some token, some key => exact agree_token_env hencode
  | none, some token, none =>
      have hagree := agree_secret hfrom hencode ⟨none, some token, none⟩ "Authorization" "Bearer "
        token (.inr rfl) (by decide +kernel) ⟨_, rfl⟩ (if_pos rfl) ⟨"access_token", rfl⟩ rfl
      simp only [show (none <|> none : Option String) = none from rfl,
        typeScriptRefusesOption_some, typeScriptRefusesOption_none, false_or] at hagree
      have hsecret := secret_iff hfrom token (.inr rfl) False
      simp only [or_false, not_false_eq_true, and_true] at hsecret
      refine hagree.trans (hsecret.trans (or_congr_right (and_congr_right fun _ => ?_)))
      exact and_iff_right_of_imp pythonRefuses_of_typeScriptRefuses
  | none, none, some key =>
      have hagree := agree_secret hfrom hencode ⟨none, none, some key⟩ "X-API-Key" "" key
        (.inl rfl) (by decide +kernel) ⟨_, rfl⟩ (by simp)
        ⟨"api_key", by simp only [String.empty_append]; rfl⟩
        (by simp only [String.empty_append]; rfl)
      simp only [show (none <|> some key) = some key from rfl, typeScriptRefusesOption_some,
        typeScriptRefusesOption_none, or_false] at hagree
      have hsecret := secret_iff hfrom key (.inl rfl) False
      simp only [or_false, not_false_eq_true, and_true] at hsecret
      refine hagree.trans (hsecret.trans (or_congr_right (and_congr_right fun _ => ?_)))
      exact and_iff_right_of_imp pythonRefuses_of_typeScriptRefuses
  | none, none, none =>
      -- no credential: only TypeScript builds a client
      refine ⟨?_, False.elim⟩
      rintro (⟨-, ht, -⟩ | ⟨header, value, hr, -, -⟩)
      · cases ht
      · cases hr

end

/-! ## A library's header values -/

/-- Bytes of visible ASCII or above, and tabs. -/
def fromStr (s : String) : Bool :=
  s.toList.all fun c => c == '\t' || (decide (0x20 ≤ c.toNat) && c.toNat != 0x7F)

def encodeAscii (s : String) : Bool := s.toList.all fun c => decide (c.toNat < 0x80)

theorem fromStr_eq_true_iff (s : String) (hs : ∀ c ∈ s.toList, c.toNat < 0x80) :
    fromStr s = true ↔ ∀ c ∈ s.toList, c = '\t' ∨ (0x20 ≤ c.toNat ∧ c.toNat ≤ 0x7E) := by
  rw [fromStr, List.all_eq_true]
  refine forall₂_congr fun c hc => ?_
  have hlow := hs c hc
  simp only [Bool.or_eq_true, beq_iff_eq, Bool.and_eq_true, decide_eq_true_eq, bne_iff_ne]
  refine or_congr_right ⟨fun h => ⟨h.1, ?_⟩, fun h => ⟨h.1, ?_⟩⟩
  · have hne := h.2
    omega
  · have hle := h.2
    omega

theorem encodeAscii_eq_true_iff (s : String) :
    encodeAscii s = true ↔ ∀ c ∈ s.toList, c.toNat < 0x80 := by
  rw [encodeAscii, List.all_eq_true]
  exact forall₂_congr fun c _ => decide_eq_true_iff

/-- An API key alone. -/
theorem agree_key : Agree fromStr encodeAscii ⟨some "sk-1", none, none⟩ := by
  refine (agree_iff_consistent fromStr_eq_true_iff encodeAscii_eq_true_iff _).mpr
    (.inl ⟨⟨?_, ?_⟩, typeScriptRefusesOption_none⟩)
  · decide
  · have hall : ("sk-1".toList.all fun c =>
        decide (0x21 ≤ c.toNat) && decide (c.toNat ≤ 0x7E)) = true := by decide +kernel
    intro c hc
    simpa using List.all_eq_true.mp hall c hc

/-- A token given, and a key in the environment: two identities. -/
theorem not_agree_token_env :
    let config : Config := ⟨none, some "token", some "key"⟩
    Rust.outcome fromStr config = .authenticates "Authorization" "Bearer token" ∧
      TypeScript.outcome config = .authenticates "X-API-Key" "key" ∧
      Python.outcome encodeAscii config = .authenticates "X-API-Key" "key" ∧
      ¬ Agree fromStr encodeAscii config := by
  have hrust : Rust.outcome fromStr ⟨none, some "token", some "key"⟩ =
      .authenticates "Authorization" "Bearer token" := by decide +kernel
  have htypeScript : TypeScript.outcome ⟨none, some "token", some "key"⟩ =
      .authenticates "X-API-Key" "key" := by decide +kernel
  have hpython : Python.outcome encodeAscii ⟨none, some "token", some "key"⟩ =
      .authenticates "X-API-Key" "key" := by decide +kernel
  refine ⟨hrust, htypeScript, hpython, ?_⟩
  rintro (⟨hr, -, -⟩ | ⟨header, value, hr, ht, -⟩)
  · cases hrust.symm.trans hr
  · have hheader := (Outcome.authenticates.inj (hrust.symm.trans hr)).1.trans
      (Outcome.authenticates.inj (htypeScript.symm.trans ht)).1.symm
    exact absurd hheader (by decide)

end FissionPlane.Sdk.Credentials
