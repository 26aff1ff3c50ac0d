/-
# FissionPlane.Sdk.StreamUrl -- two ways to a data-plane URL

The Rust SDK reaches an agent over HTTP and over WebSockets, from one base URL. A request goes to
the text of the base with the operation's path behind it. A stream goes to the operation's path
resolved as a reference against the base, with the scheme switched: and since that path starts with
a slash, it takes the place of the base's own.

The two agree on the host and the port whatever the base; on the path they agree only when the base
has none of its own to lose.
-/
import FissionPlane.Sdk.RequestUrl

namespace FissionPlane.Sdk.StreamUrl

open FissionPlane.Lib FissionPlane.Lib.UrlParser
open FissionPlane.Sdk.RequestUrl

variable {H : Hosts}

/-! ## The base -/

/-- `AgentTarget` -/
structure AgentTarget (H : Hosts) where
  port : UInt16
  baseOverride : Option (Url H)

/-- The fields of a sandbox record that name its agent. -/
structure SandboxInfo where
  sandboxId : String
  domain : String

/-- `Error::Config`, by what the message names. -/
inductive Error where
  | dataPlaneUrl (url : String)
  | streamUrl (path : String)
  | unsupportedScheme (scheme : Scheme)
  deriving DecidableEq

/-- The URL of a record's agent. -/
def recordUrl (port : UInt16) (info : SandboxInfo) : String :=
  "https://" ++ toString port.toNat ++ "-" ++ info.sandboxId ++ "." ++ info.domain

/-- The agent's base URL: the override when configured, otherwise the agent port's own hostname. -/
def agentBaseUrl (agent : AgentTarget H) (info : SandboxInfo) : Except Error (Url H) :=
  match agent.baseOverride with
  | some base => .ok base
  | none =>
      match parse H (recordUrl agent.port info).toList with
      | some base => .ok base
      | none => .error (.dataPlaneUrl (recordUrl agent.port info))

/-- The agent's base URL for one sandbox, held by the HTTP client and for streams. -/
structure DataPlane (H : Hosts) where
  http : Http H
  base : Url H
  http_base : http.base = base

def DataPlane.new (agent : AgentTarget H) (info : SandboxInfo) : Except Error (DataPlane H) :=
  (agentBaseUrl agent info).map fun base => ⟨⟨base⟩, base, rfl⟩

/-- Every URL is a base that a data plane can hold. -/
theorem DataPlane.exists_new (data : DataPlane H) (port : UInt16) (info : SandboxInfo) :
    DataPlane.new ⟨port, some data.base⟩ info = .ok data := by
  obtain ⟨⟨_⟩, base, rfl⟩ := data
  rfl

/-- A base derived from a record whose identifier and domain hold no delimiter has the path of a
slash. -/
theorem agentBaseUrl_of_record {agent : AgentTarget H} {info : SandboxInfo} {base : Url H}
    (hagent : agent.baseOverride = none)
    (hinfo : ∀ c ∈ info.sandboxId.toList ++ info.domain.toList,
      0x20 < c.toNat ∧ isAuthorityEnd c = false)
    (h : agentBaseUrl agent info = .ok base) :
    base.scheme = .https ∧ base.path = [Segment.empty] ∧ base.query = none ∧
      base.fragment = none := by
  have htext : (recordUrl agent.port info).toList = Scheme.https.name ++ ':' :: '/' :: '/' ::
      (Nat.toDigits 10 agent.port.toNat ++
        '-' :: (info.sandboxId.toList ++ '.' :: info.domain.toList)) := by
    rw [recordUrl, Nat.toString_eq_repr]
    simp only [String.toList_append, Nat.toList_repr, List.append_assoc]
    rfl
  have hparse : parse H (recordUrl agent.port info).toList = some base := by
    rw [agentBaseUrl, hagent] at h
    simp only at h
    split at h
    · rename_i hsome
      rw [hsome, Except.ok.inj h]
    · cases h
  rw [htext] at hparse
  refine parse_site (fun c hc => ?_) hparse
  simp only [List.mem_append, List.mem_cons] at hc hinfo
  rcases hc with hc | rfl | hc | rfl | hc
  · have hsite := isSiteChar_of_hexDigit
      (hexDigit?_of_isDigit (Nat.isDigit_of_mem_toDigits (by decide) (by decide) hc))
    exact ⟨hsite.visible, hsite.notEnd⟩
  · exact ⟨by decide, by decide⟩
  · exact hinfo c (Or.inl hc)
  · exact ⟨by decide, by decide⟩
  · exact hinfo c (Or.inr hc)

/-! ## Operations -/

/-- The data-plane operations, by their paths. -/
inductive Operation where
  | commands
  | processes
  | process (pid : UInt32)
  | processLogs (pid : UInt32)
  | processStream (pid : UInt32)
  | files
  | filesStat
  | filesDirectories
  | filesMove
  | filesContent
  | filesWatch

def Operation.path : Operation → String
  | commands => "/commands"
  | processes => "/processes"
  | process pid => "/processes/" ++ toString pid.toNat
  | processLogs pid => "/processes/" ++ toString pid.toNat ++ "/logs"
  | processStream pid => "/processes/" ++ toString pid.toNat ++ "/stream"
  | files => "/files"
  | filesStat => "/files/stat"
  | filesDirectories => "/files/directories"
  | filesMove => "/files/move"
  | filesContent => "/files/content"
  | filesWatch => "/files/watch"

/-- The URL of an HTTP request, before the operation's own query. -/
def DataPlane.requestUrl (data : DataPlane H) (op : Operation) : Option (Url H) :=
  parse H (data.http.urlText op.path)

/-- The scheme of a stream to a URL of this scheme. -/
def streamScheme : Scheme → Except Error Scheme
  | .http => .ok .ws
  | .https => .ok .wss
  | .ws => .ok .ws
  | .wss => .ok .wss
  | other => .error (.unsupportedScheme other)

/-- The URL of a stream, before the operation's own query: `Url::join` at the caller, and the scheme
that `streaming::connect` sets. -/
def DataPlane.streamUrl (data : DataPlane H) (op : Operation) : Except Error (Url H) :=
  match data.base.join op.path.toList with
  | none => .error (.streamUrl op.path)
  | some url => (streamScheme url.scheme).map url.setScheme

/-! ## Paths of operations -/

theorem toDigits_hexDigit (n : Nat) : ∀ c ∈ Nat.toDigits 10 n, (Json.hexDigit? c).isSome :=
  fun _ hc => hexDigit?_of_isDigit (Nat.isDigit_of_mem_toDigits (by decide) (by decide) hc)

theorem toDigits_not_isDot (n : Nat) :
    isSingleDot (Nat.toDigits 10 n) = false ∧ isDoubleDot (Nat.toDigits 10 n) = false := by
  obtain ⟨c, s, hs⟩ := List.exists_cons_of_ne_nil (Nat.toDigits_ne_nil (n := n) (b := 10))
  apply not_isDot_of_head
  rw [hs]
  exact toDigits_hexDigit n c (by rw [hs]; exact List.mem_cons_self)

/-- A decimal number as a segment. -/
def decimal (n : Nat) : Segment where
  text := Nat.toDigits 10 n
  piece := by
    refine ⟨fun c hc => pathSet.keeps c (Or.inr (toDigits_hexDigit n c hc)), fun c hc => ?_⟩
    exact not_isSeparator_of_notEnd (isSiteChar_of_hexDigit (toDigits_hexDigit n c hc)).notEnd
  notSingle := (toDigits_not_isDot n).1
  notDouble := (toDigits_not_isDot n).2

namespace Operation

/-- The first segment of an operation's path. -/
def head : Operation → Segment
  | commands => .ofText "commands".toList (by decide) rfl rfl
  | processes | process _ | processLogs _ | processStream _ =>
      .ofText "processes".toList (by decide) rfl rfl
  | files | filesStat | filesDirectories | filesMove | filesContent | filesWatch =>
      .ofText "files".toList (by decide) rfl rfl

/-- The segments behind the first. -/
def tail : Operation → List Segment
  | commands | processes | files => []
  | process pid => [decimal pid.toNat]
  | processLogs pid => [decimal pid.toNat, .ofText "logs".toList (by decide) rfl rfl]
  | processStream pid => [decimal pid.toNat, .ofText "stream".toList (by decide) rfl rfl]
  | filesStat => [.ofText "stat".toList (by decide) rfl rfl]
  | filesDirectories => [.ofText "directories".toList (by decide) rfl rfl]
  | filesMove => [.ofText "move".toList (by decide) rfl rfl]
  | filesContent => [.ofText "content".toList (by decide) rfl rfl]
  | filesWatch => [.ofText "watch".toList (by decide) rfl rfl]

def segments (op : Operation) : List Segment := op.head :: op.tail

theorem head_ne_nil (op : Operation) : op.head.text ≠ [] := by
  cases op <;> exact List.cons_ne_nil _ _

/-- A path is its segments, each behind a slash. -/
theorem path_toList (op : Operation) : op.path.toList = pathText op.segments := by
  cases op
  case process pid =>
    rw [path, String.toList_append, Nat.toString_eq_repr, Nat.toList_repr]
    show _ = "/processes/".toList ++ (Nat.toDigits 10 pid.toNat ++ [])
    rw [List.append_nil]
  case processLogs pid =>
    rw [path, String.toList_append, String.toList_append, Nat.toString_eq_repr, Nat.toList_repr,
      List.append_assoc]
    rfl
  case processStream pid =>
    rw [path, String.toList_append, String.toList_append, Nat.toString_eq_repr, Nat.toList_repr,
      List.append_assoc]
    rfl
  all_goals rfl

end Operation

/-! ## The two URLs -/

/-- The URLs of a request and of a stream, as they should be: one site and one path, which is the
base's with the operation's behind it, and a scheme that differs as it should. -/
def Agree (data : DataPlane H) (op : Operation) : Prop :=
  ∃ request stream, data.requestUrl op = some request ∧ data.streamUrl op = .ok stream ∧
    stream.host = request.host ∧ stream.port = request.port ∧
    stream.username = request.username ∧ stream.password = request.password ∧
    stream.path = request.path ∧ request.path = basePath data.base ++ op.segments ∧
    stream.query = request.query ∧ stream.fragment = request.fragment ∧
    streamScheme request.scheme = .ok stream.scheme

/-- A base that is an origin: its path is made of slashes alone. -/
structure IsOrigin (base : Url H) : Prop where
  path : ∀ segment ∈ base.path, segment.text = []
  query : base.query = none
  fragment : base.fragment = none

theorem basePath_eq_nil_iff {base : Url H} :
    basePath base = [] ↔ ∀ segment ∈ base.path, segment.text = [] := by
  rw [basePath, List.rdropWhile_eq_nil_iff]
  exact forall₂_congr fun _ _ => decide_eq_true_iff

/-- A request behind a base without query and fragment. -/
theorem requestUrl_bare {data : DataPlane H} (hquery : data.base.query = none)
    (hfragment : data.base.fragment = none) (op : Operation) :
    data.requestUrl op = some (data.base.toAuthority.at (basePath data.base ++ op.segments)
      (List.append_ne_nil_of_right_ne_nil _ (List.cons_ne_nil _ _))) := by
  have hpath : pathText (basePath data.base) ++ pathText op.segments =
      pathText (basePath data.base ++ op.segments) := List.flatMap_append.symm
  rw [DataPlane.requestUrl, Http.urlText, data.http_base, trimEndMatches_text hquery hfragment,
    op.path_toList, List.append_assoc, hpath, parse_pathText]

/-- A stream, whatever the base: the path of the operation at the base's site. -/
theorem streamUrl_eq (data : DataPlane H) (op : Operation) :
    data.streamUrl op = (streamScheme data.base.scheme).map
      (data.base.toAuthority.at op.segments (List.cons_ne_nil _ _)).setScheme := by
  have hjoin : data.base.join (pathText op.segments) =
      some (data.base.toAuthority.at op.segments (List.cons_ne_nil _ _)) :=
    join_pathText data.base op.tail op.head_ne_nil
  rw [DataPlane.streamUrl, op.path_toList, hjoin]
  rfl

/-- Switching to a stream keeps the port, since the two schemes have the same default. -/
theorem setScheme_port (url : Url H) {scheme : Scheme}
    (h : streamScheme url.scheme = .ok scheme) : (url.setScheme scheme).port = url.port := by
  have hdefault : scheme.defaultPort = url.scheme.defaultPort := by
    revert h
    cases url.scheme <;> rintro ⟨⟩ <;> rfl
  show (if url.port = some scheme.defaultPort then none else url.port) = url.port
  rw [hdefault, if_neg url.port_ne]

theorem agree_of_isOrigin {data : DataPlane H} (h : IsOrigin data.base)
    (hscheme : data.base.scheme ≠ .ftp) (op : Operation) : Agree data op := by
  have hpath : basePath data.base = [] := basePath_eq_nil_iff.mpr h.path
  obtain ⟨scheme, hstream⟩ : ∃ scheme, streamScheme data.base.scheme = .ok scheme := by
    cases hs : data.base.scheme with
    | ftp => exact absurd hs hscheme
    | http => exact ⟨_, rfl⟩
    | https => exact ⟨_, rfl⟩
    | ws => exact ⟨_, rfl⟩
    | wss => exact ⟨_, rfl⟩
  refine ⟨_, (data.base.toAuthority.at op.segments (List.cons_ne_nil _ _)).setScheme scheme,
    requestUrl_bare h.query h.fragment op, ?_, rfl, ?_, rfl, rfl, ?_, rfl, rfl, rfl, ?_⟩
  · rw [streamUrl_eq, hstream]
    rfl
  · exact setScheme_port (data.base.toAuthority.at op.segments _) hstream
  · show op.segments = basePath data.base ++ op.segments
    rw [hpath, List.nil_append]
  · exact hstream

theorem Agree.isOrigin {data : DataPlane H} {op : Operation} (h : Agree data op) :
    IsOrigin data.base ∧ data.base.scheme ≠ .ftp := by
  obtain ⟨request, stream, hrequest, hstream, _, _, _, _, hsame, hpath, _⟩ := h
  rw [streamUrl_eq] at hstream
  have hscheme : data.base.scheme ≠ .ftp := by
    intro hftp
    rw [hftp] at hstream
    cases hstream
  have hsegments : stream.path = op.segments := by
    cases hs : streamScheme data.base.scheme with
    | error e => rw [hs] at hstream; cases hstream
    | ok scheme =>
        rw [hs] at hstream
        rw [← Except.ok.inj hstream]
        rfl
  -- the stream has lost the base's path, so the base had none to lose
  have hnil : basePath data.base = [] := by
    rw [← hsame, hsegments] at hpath
    exact List.self_eq_append_left.mp hpath
  have hempty := basePath_eq_nil_iff.mp hnil
  refine ⟨?_, hscheme⟩
  by_cases hbase : data.base.query = none ∧ data.base.fragment = none
  · exact ⟨hempty, hbase.1, hbase.2⟩
  · rw [not_and_or] at hbase
    obtain ⟨url, hparse, hurl, _⟩ := parse_ended hbase op.path.toList
    rw [DataPlane.requestUrl, Http.urlText, data.http_base, hparse] at hrequest
    have hpath' : data.base.path = op.segments := by
      rw [← hurl, Option.some.inj hrequest, ← hsame, hsegments]
    have hhead := hempty op.head (by rw [hpath']; exact List.mem_cons_self)
    exact absurd hhead op.head_ne_nil

/-- **The URLs of a request and of a stream agree exactly when the base is an origin** (of a scheme
that has streams). -/
theorem agree_iff_isOrigin (data : DataPlane H) (op : Operation) :
    Agree data op ↔ IsOrigin data.base ∧ data.base.scheme ≠ .ftp :=
  ⟨fun h => h.isOrigin, fun h => agree_of_isOrigin h.1 h.2 op⟩

/-- So they agree for a sandbox that is reached by its record. -/
theorem agree_of_record {agent : AgentTarget H} {info : SandboxInfo} {data : DataPlane H}
    (hagent : agent.baseOverride = none)
    (hinfo : ∀ c ∈ info.sandboxId.toList ++ info.domain.toList,
      0x20 < c.toNat ∧ isAuthorityEnd c = false)
    (h : DataPlane.new agent info = .ok data) (op : Operation) : Agree data op := by
  have hbase : agentBaseUrl agent info = .ok data.base := by
    rw [DataPlane.new] at h
    cases hbase : agentBaseUrl agent info with
    | error e => rw [hbase] at h; cases h
    | ok base =>
        rw [hbase] at h
        rw [← Except.ok.inj h]
  obtain ⟨hscheme, hpath, hquery, hfragment⟩ := agentBaseUrl_of_record hagent hinfo hbase
  refine agree_of_isOrigin ⟨?_, hquery, hfragment⟩ (by rw [hscheme]; decide) op
  intro segment hseg
  rw [hpath] at hseg
  rw [List.mem_singleton.mp hseg]
  rfl

/-- A base with a prefix, as a proxy for one sandbox may have. -/
def prefixedBase : Url letterHosts :=
  (parse letterHosts "https://agent.example/sbx/".toList).get (by decide +kernel)

/-- Under a prefix, requests keep it and streams lose it. -/
theorem not_agree_prefixed :
    ¬ Agree ⟨⟨prefixedBase⟩, prefixedBase, rfl⟩ .filesWatch ∧
      ((DataPlane.mk ⟨prefixedBase⟩ prefixedBase rfl).requestUrl .filesWatch).map
        (fun url => pathText url.path) = some "/sbx/files/watch".toList ∧
      ((DataPlane.mk ⟨prefixedBase⟩ prefixedBase rfl).streamUrl .filesWatch).toOption.map
        (fun url => pathText url.path) = some "/files/watch".toList := by
  refine ⟨fun h => ?_, by decide +kernel, by decide +kernel⟩
  have hempty := basePath_eq_nil_iff.mpr h.isOrigin.1.path
  exact absurd hempty (by decide +kernel)

end FissionPlane.Sdk.StreamUrl
