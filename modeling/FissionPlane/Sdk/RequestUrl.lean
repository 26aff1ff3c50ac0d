/-
# FissionPlane.Sdk.RequestUrl -- where the Rust SDK's requests go

`Http::request` writes the base URL, less the slashes at its end, in front of a path, and reqwest
parses the result. The lookups of the control plane format the caller's string into that path as it
is, so the string is parsed as a piece of URL text: it can hold separators and dot segments, start a
query or a fragment, lose white space, and bring triplets of its own.

`confined_iff` says for which strings none of this happens.
-/
import FissionPlane.Lib.UrlReading

namespace FissionPlane.Sdk.RequestUrl

open FissionPlane.Lib FissionPlane.Lib.UrlParser
open FissionPlane.Lib.PercentEncoding (decode encode hasTriplet decode_encode_iff bytes_injective
  eq_of_sublist decode_length_le decode_encode)
open FissionPlane.Lib.Text (bytes)

variable {H : Hosts}

/-! ## Requests -/

inductive Method where
  | get
  | delete
  deriving DecidableEq

structure Request (H : Hosts) where
  method : Method
  url : Url H
  deriving DecidableEq

/-- `Http`, as far as it decides where a request goes. -/
structure Http (H : Hosts) where
  base : Url H

/-- The base that `FissionPlane::new` settles on: the option, the environment, the default. -/
def Http.new (H : Hosts) (baseUrl env : Option String) : Option (Http H) :=
  (parse H ((baseUrl.or env).getD "https://api.example.com").toList).map Http.mk

/-- Every URL is a base that a client can be given. -/
theorem Http.exists_new (http : Http H) (env : Option String) :
    Http.new H (some (String.ofList http.base.text)) env = some http := by
  rw [Http.new, Option.some_or, Option.getD_some, String.toList_ofList, parse_text]
  rfl

/-- `str::trim_end_matches` -/
def trimEndMatches (c : Char) (s : List Char) : List Char := s.rdropWhile (· == c)

/-- The text that `Http::request` formats: the base without the slashes at its end, and the
path. -/
def Http.urlText (http : Http H) (path : String) : List Char :=
  trimEndMatches '/' http.base.text ++ path.toList

/-- `Http::request`. A text that is no URL is an error of the request. -/
def Http.request (http : Http H) (method : Method) (path : String) : Option (Request H) :=
  (parse H (http.urlText path)).map fun url => ⟨method, url⟩

/-- `Sandboxes::get` -/
def Sandboxes.get (http : Http H) (sandboxId : String) : Option (Request H) :=
  http.request .get ("/v1/sandboxes/" ++ sandboxId)

/-- `Templates::get` -/
def Templates.get (http : Http H) (template : String) : Option (Request H) :=
  http.request .get ("/v1/templates/" ++ template)

/-- `Templates::delete` -/
def Templates.delete (http : Http H) (template : String) : Option (Request H) :=
  http.request .delete ("/v1/templates/" ++ template)

/-- `Templates::get_build` -/
def Templates.getBuild (http : Http H) (buildId : String) : Option (Request H) :=
  http.request .get ("/v1/templates/builds/" ++ buildId)

/-! ## The text of a request -/

/-- The path of a base less its empty segments at the end: what requests are put behind. -/
def basePath (base : Url H) : List Segment := base.path.rdropWhile fun segment => segment.text = []

/-- Trimming slashes trims empty segments. -/
theorem trimEndMatches_pathText {s : List Char} (hs : s ≠ []) (hlast : s.getLast hs ≠ '/')
    (path : List Segment) :
    trimEndMatches '/' (s ++ pathText path) =
      s ++ pathText (path.rdropWhile fun segment => segment.text = []) := by
  induction path using List.reverseRecOn with
  | nil =>
      show trimEndMatches '/' (s ++ []) = s ++ []
      rw [List.append_nil, trimEndMatches, List.rdropWhile_eq_self_iff]
      intro _ heq
      exact hlast (beq_iff_eq.mp heq)
  | append_singleton path segment ih =>
      rw [List.rdropWhile_concat, pathText_concat]
      split
      · rename_i hempty
        have hempty' : segment.text = [] := of_decide_eq_true hempty
        rw [hempty', ← List.append_assoc, trimEndMatches, List.rdropWhile_concat_pos _ _ _ rfl]
        exact ih
      · rename_i hfull
        have hfull' : segment.text ≠ [] := fun h => hfull (decide_eq_true h)
        obtain ⟨t, c, ht⟩ := (List.eq_nil_or_concat' segment.text).resolve_left hfull'
        have hc : ¬(c == '/') = true := fun heq => by
          have hsep := segment.piece.2 c (by rw [ht]; exact List.mem_concat_self)
          rw [beq_iff_eq.mp heq] at hsep
          exact absurd hsep (by decide)
        have hlast : s ++ (pathText path ++ '/' :: segment.text) =
            (s ++ (pathText path ++ '/' :: t)) ++ [c] := by
          rw [ht]
          simp only [List.append_assoc, List.cons_append]
        rw [pathText_concat, hlast, trimEndMatches,
          List.rdropWhile_concat_neg (fun d => d == '/') _ c hc]

theorem authorityText_getLast (a : Authority H) :
    ∃ h : a.text ≠ [], a.text.getLast h ≠ '/' := by
  have hne := siteText_ne_nil a
  have htext : a.text = (a.scheme.name ++ [':', '/', '/']) ++ a.siteText := by
    rw [List.append_assoc]
    rfl
  refine ⟨by rw [htext]; exact List.append_ne_nil_of_right_ne_nil _ hne, fun heq => ?_⟩
  have hlast : a.text.getLast (by rw [htext]; exact List.append_ne_nil_of_right_ne_nil _ hne) =
      a.siteText.getLast hne := by
    simp only [htext]
    exact List.getLast_append_of_right_ne_nil _ _ hne
  have hend := (siteText_chars a _ (List.getLast_mem hne)).2
  rw [← hlast, heq] at hend
  exact absurd hend (by decide)

/-- The base that requests are put behind, when it has no query and no fragment. -/
theorem trimEndMatches_text {base : Url H} (hquery : base.query = none)
    (hfragment : base.fragment = none) :
    trimEndMatches '/' base.text = base.toAuthority.text ++ pathText (basePath base) := by
  obtain ⟨hne, hlast⟩ := authorityText_getLast base.toAuthority
  rw [Url.text, hquery, hfragment]
  show trimEndMatches '/' (base.toAuthority.text ++ (pathText base.path ++ [])) = _
  rw [List.append_nil]
  exact trimEndMatches_pathText hne hlast base.path

/-- Otherwise a query or a fragment is what requests are put behind. -/
theorem trimEndMatches_text_of_end {base : Url H}
    (h : base.query ≠ none ∨ base.fragment ≠ none) :
    ∃ c rest, (c = '?' ∨ c = '#') ∧ trimEndMatches '/' base.text =
      base.toAuthority.text ++ (pathText base.path ++ c :: rest) := by
  have htail : ∃ c rest, (c = '?' ∨ c = '#') ∧
      queryText base.query ++ fragmentText base.fragment = c :: rest := by
    cases hq : base.query with
    | some query => exact ⟨'?', _, Or.inl rfl, rfl⟩
    | none =>
        cases hf : base.fragment with
        | some fragment => exact ⟨'#', _, Or.inr rfl, rfl⟩
        | none => exact absurd h (by rw [hq, hf]; simp)
  obtain ⟨c, rest, hc, htail⟩ := htail
  refine ⟨c, rest.rdropWhile (· == '/'), hc, ?_⟩
  rw [trimEndMatches, Url.text, htail, ← List.append_assoc,
    rdropWhile_append_cons _ (by rcases hc with rfl | rfl <;> decide), List.append_assoc]

/-- What follows segments behind a base without query and fragment. -/
theorem parse_bare {base : Url H} (hquery : base.query = none) (hfragment : base.fragment = none)
    (segments : List Segment) (s : List Char) :
    parse H (trimEndMatches '/' base.text ++ (pathText segments ++ '/' :: s)) =
      some (base.toAuthority.locate (basePath base ++ segments) (tidy s)) := by
  have hpath : pathText (basePath base) ++ (pathText segments ++ '/' :: s) =
      pathText (basePath base ++ segments) ++ '/' :: s := by
    rw [pathText, pathText, pathText, List.flatMap_append, List.append_assoc]
  rw [trimEndMatches_text hquery hfragment, List.append_assoc, hpath, parse_segments]

/-- Whatever is put behind a query or a fragment, the path is that of the base. -/
theorem parse_ended {base : Url H} (h : base.query ≠ none ∨ base.fragment ≠ none)
    (s : List Char) :
    ∃ url, parse H (trimEndMatches '/' base.text ++ s) = some url ∧ url.path = base.path ∧
      (url.query ≠ none ∨ url.fragment ≠ none) := by
  obtain ⟨c, rest, hc, htext⟩ := trimEndMatches_text_of_end h
  obtain ⟨url, hparse, _, hpath, hquery, hfragment⟩ := parse_pathEnd base.toAuthority base.path_ne
    (by rcases hc with rfl | rfl <;> rfl : isPathEnd c = true) (rest ++ s)
  refine ⟨url, ?_, hpath, ?_⟩
  · rw [htext, List.append_assoc, List.append_assoc, List.cons_append, hparse]
  · rcases hc with rfl | rfl
    · exact Or.inl (by rw [hquery]; exact Option.some_ne_none _)
    · exact Or.inr (by rw [hfragment]; exact Option.some_ne_none _)

/-! ## Lookups -/

/-- The operations that take a caller's string into their path. -/
inductive Lookup where
  | sandboxesGet
  | templatesGet
  | templatesDelete
  | templatesGetBuild
  deriving DecidableEq

namespace Lookup

def request (http : Http H) : Lookup → String → Option (Request H)
  | sandboxesGet => Sandboxes.get http
  | templatesGet => Templates.get http
  | templatesDelete => Templates.delete http
  | templatesGetBuild => Templates.getBuild http

def method : Lookup → Method
  | templatesDelete => .delete
  | _ => .get

/-- The segments that an operation's path starts with. -/
def fixed : Lookup → List Segment
  | sandboxesGet =>
      [.ofText "v1".toList (by decide) rfl rfl, .ofText "sandboxes".toList (by decide) rfl rfl]
  | templatesGet | templatesDelete =>
      [.ofText "v1".toList (by decide) rfl rfl, .ofText "templates".toList (by decide) rfl rfl]
  | templatesGetBuild =>
      [.ofText "v1".toList (by decide) rfl rfl, .ofText "templates".toList (by decide) rfl rfl,
        .ofText "builds".toList (by decide) rfl rfl]

/-- The text that an operation puts before the caller's string. -/
def before : Lookup → String
  | sandboxesGet => "/v1/sandboxes/"
  | templatesGet | templatesDelete => "/v1/templates/"
  | templatesGetBuild => "/v1/templates/builds/"

theorem before_toList (op : Lookup) : op.before.toList = pathText op.fixed ++ ['/'] := by
  cases op <;> decide

theorem request_eq (http : Http H) (op : Lookup) (s : String) :
    op.request http s = (parse H (trimEndMatches '/' http.base.text ++
      (pathText op.fixed ++ '/' :: s.toList))).map fun url => ⟨op.method, url⟩ := by
  have hrequest : op.request http s = http.request op.method (op.before ++ s) := by
    cases op <;> rfl
  rw [hrequest, Http.request, Http.urlText, String.toList_append, before_toList, List.append_assoc,
    List.singleton_append]

/-- The operations differ in their segments or in their method. -/
theorem eq_of_fixed {op op' : Lookup} (hfixed : op.fixed = op'.fixed)
    (hmethod : op.method = op'.method) : op = op' := by
  revert hfixed hmethod
  cases op <;> cases op' <;> decide

end Lookup

/-! ## Confinement -/

/-- A request whose path is the operation's and one segment that decodes to the caller's string,
with the site of the base and without a query or a fragment. -/
def Confined (http : Http H) (op : Lookup) (s : String) : Prop :=
  ∃ request segment, op.request http s = some request ∧ request.method = op.method ∧
    request.url.toAuthority = http.base.toAuthority ∧
    request.url.path = basePath http.base ++ op.fixed ++ [segment] ∧
    decode segment.text = bytes s.toList ∧
    request.url.query = none ∧ request.url.fragment = none

/-- A text that the URL parser takes as one piece and as it is: it holds no delimiter of a path and
nothing that is removed, brings no triplet, and is no dot segment. -/
structure IsPlain (s : List Char) : Prop where
  noDelimiter : ∀ c ∈ s, isSeparator c = false ∧ isPathEnd c = false ∧ isTabOrNewline c = false
  noSpaceAtEnd : ∀ h : s ≠ [], isC0ControlOrSpace (s.getLast h) = false
  noTriplet : hasTriplet s = false
  notDot : s ≠ ['.'] ∧ s ≠ ['.', '.']

/-- A plain text is left alone. -/
theorem IsPlain.tidy {s : List Char} (h : IsPlain s) : tidy s = s := by
  have hstrip : s.rdropWhile isC0ControlOrSpace = s :=
    List.rdropWhile_eq_self_iff.mpr fun hne => by rw [h.noSpaceAtEnd hne]; decide
  rw [UrlParser.tidy, hstrip, List.filter_eq_self]
  intro c hc
  rw [(h.noDelimiter c hc).2.2]
  rfl

theorem IsPlain.not_dots {s : List Char} (h : IsPlain s) :
    isSingleDot (encode pathSet s) = false ∧ isDoubleDot (encode pathSet s) = false := by
  have hdecode : decode (encode pathSet s) = bytes s := (decode_encode_iff s).mpr h.noTriplet
  constructor
  · refine eq_false_of_ne_true fun hdot => h.notDot.1 (bytes_injective ?_)
    rw [← hdecode, decode_of_isSingleDot hdot]
  · refine eq_false_of_ne_true fun hdot => h.notDot.2 (bytes_injective ?_)
    rw [← hdecode, decode_of_isDoubleDot hdot]

/-- What the states make of a plain text. -/
theorem IsPlain.locate {s : List Char} (h : IsPlain s) (a : Authority H) (path : List Segment) :
    ∃ segment : Segment, segment.text = encode pathSet s ∧
      (a.locate path s).path = path ++ [segment] ∧
      (a.locate path s).query = none ∧ (a.locate path s).fragment = none := by
  obtain ⟨segment, htext, hpath⟩ := pathState_one path (fun c hc => (h.noDelimiter c hc).1)
    h.not_dots.1 h.not_dots.2
  obtain ⟨htake, hquery, hfragment⟩ :=
    locate_append (fun c hc => (h.noDelimiter c hc).2.1) []
  rw [List.append_nil] at htake hquery hfragment
  refine ⟨segment, htext, ?_, hquery, hfragment⟩
  show pathState path Buffer.empty _ = _
  rw [htake, List.takeWhile_nil, List.append_nil, hpath]

/-- A piece of what the path state reads that has lost nothing is the whole text, and the text is
plain. -/
theorem isPlain_of_piece {s piece : List Char}
    (hpiece : piece.Sublist ((UrlParser.tidy s).takeWhile (!isPathEnd ·)))
    (hsep : ∀ c ∈ piece, isSeparator c = false)
    (hdots : isSingleDot (encode pathSet piece) = false ∧
      isDoubleDot (encode pathSet piece) = false)
    (hdecode : decode (encode pathSet piece) = bytes s) : IsPlain s := by
  -- each stage drops characters of the one before
  have hcut := (List.takeWhile_prefix (!isPathEnd ·) (l := UrlParser.tidy s)).sublist
  have htidy : (UrlParser.tidy s).Sublist (s.rdropWhile isC0ControlOrSpace) := List.filter_sublist
  have hstrip := (List.rdropWhile_prefix isC0ControlOrSpace s).sublist
  have hwhole : piece = s := by
    refine eq_of_sublist (((hpiece.trans hcut).trans htidy).trans hstrip) ?_
    rw [← hdecode, decode_encode]
    exact decode_length_le piece
  subst hwhole
  have hstrip' : piece.rdropWhile isC0ControlOrSpace = piece :=
    hstrip.antisymm ((hpiece.trans hcut).trans htidy)
  have hmem : ∀ c ∈ piece, c ∈ (UrlParser.tidy piece).takeWhile (!isPathEnd ·) :=
    fun c hc => hpiece.subset hc
  refine ⟨fun c hc => ⟨hsep c hc, ?_, ?_⟩, fun hne => ?_, (decode_encode_iff piece).mp hdecode,
    ?_, ?_⟩
  · simpa using List.mem_takeWhile_imp (hmem c hc)
  · simpa using (List.mem_filter.mp (hcut.subset (hmem c hc))).2
  · exact Bool.eq_false_iff.mpr (List.rdropWhile_eq_self_iff.mp hstrip' hne)
  · rintro rfl
    exact absurd hdots.1 (by decide)
  · rintro rfl
    exact absurd hdots.2 (by decide)

/-- The empty text is plain. -/
theorem isPlain_nil : IsPlain [] where
  noDelimiter _ hc := absurd hc List.not_mem_nil
  noSpaceAtEnd h := absurd rfl h
  noTriplet := rfl
  notDot := ⟨List.cons_ne_nil _ _ ∘ Eq.symm, List.cons_ne_nil _ _ ∘ Eq.symm⟩

theorem confined_of_plain {http : Http H} {op : Lookup} {s : String}
    (hquery : http.base.query = none) (hfragment : http.base.fragment = none)
    (h : IsPlain s.toList) : Confined http op s := by
  obtain ⟨segment, htext, hpath, hquery', hfragment'⟩ :=
    h.locate http.base.toAuthority (basePath http.base ++ op.fixed)
  refine ⟨⟨op.method, http.base.toAuthority.locate (basePath http.base ++ op.fixed) s.toList⟩,
    segment, ?_, rfl, rfl, hpath, ?_, hquery', hfragment'⟩
  · rw [Lookup.request_eq, parse_bare hquery hfragment, h.tidy]
    rfl
  · rw [htext, decode_encode_iff]
    exact h.noTriplet

theorem Confined.base {http : Http H} {op : Lookup} {s : String} (h : Confined http op s) :
    http.base.query = none ∧ http.base.fragment = none := by
  obtain ⟨request, _, hrequest, _, _, _, _, hquery, hfragment⟩ := h
  by_contra hbase
  rw [not_and_or] at hbase
  obtain ⟨url, hparse, _, hended⟩ := parse_ended hbase (pathText op.fixed ++ '/' :: s.toList)
  rw [Lookup.request_eq, hparse] at hrequest
  have hurl : request.url = url := by rw [← Option.some.inj hrequest]
  rw [hurl] at hquery hfragment
  rcases hended with hne | hne
  · exact hne hquery
  · exact hne hfragment

theorem Confined.isPlain {http : Http H} {op : Lookup} {s : String} (h : Confined http op s) :
    IsPlain s.toList := by
  obtain ⟨hquery, hfragment⟩ := h.base
  obtain ⟨request, segment, hrequest, _, _, hpath, hdecode, _, _⟩ := h
  rw [Lookup.request_eq, parse_bare hquery hfragment] at hrequest
  have hurl : request.url = http.base.toAuthority.locate (basePath http.base ++ op.fixed)
      (tidy s.toList) := by
    rw [← Option.some.inj hrequest]
  have hmem : segment ∈ request.url.path.drop (basePath http.base ++ op.fixed).length := by
    rw [hpath, List.drop_left]
    exact List.mem_singleton_self segment
  rw [hurl] at hmem
  rcases locate_fromText http.base.toAuthority _ _ segment hmem with
    hempty | ⟨piece, hpiece, hsep, htext⟩
  · rw [hempty] at hdecode
    have hnil : [] = s.toList := bytes_injective hdecode
    rw [← hnil]
    exact isPlain_nil
  · rw [htext] at hdecode
    have hsingle := segment.notSingle
    have hdouble := segment.notDouble
    rw [htext] at hsingle hdouble
    exact isPlain_of_piece hpiece hsep ⟨hsingle, hdouble⟩ hdecode

/-- Confined lookups with one URL and one method are the same operation on the same string. -/
theorem Confined.injective {http : Http H} {op op' : Lookup} {s s' : String}
    (h : Confined http op s) (h' : Confined http op' s')
    (heq : op.request http s = op'.request http s') : op = op' ∧ s = s' := by
  obtain ⟨request, segment, hrequest, hmethod, _, hpath, hdecode, _, _⟩ := h
  obtain ⟨request', segment', hrequest', hmethod', _, hpath', hdecode', _, _⟩ := h'
  have hsame : request = request' := Option.some.inj (hrequest.symm.trans (heq.trans hrequest'))
  subst hsame
  rw [hpath, List.append_assoc, List.append_assoc, List.append_cancel_left_eq] at hpath'
  obtain ⟨hfixed, hsegment⟩ := List.append_inj' hpath' rfl
  refine ⟨Lookup.eq_of_fixed hfixed (hmethod.symm.trans hmethod'), ?_⟩
  rw [List.cons.inj hsegment |>.1] at hdecode
  exact String.toList_inj.mp (bytes_injective (hdecode.symm.trans hdecode'))

/-- **A lookup is confined exactly when the base has no query and no fragment and the string is
plain, and confined lookups with one request are the same operation on the same string.** -/
theorem confined_iff (http : Http H) (op : Lookup) (s : String) :
    (Confined http op s ↔
      http.base.query = none ∧ http.base.fragment = none ∧ IsPlain s.toList) ∧
    ∀ op' s', Confined http op s → Confined http op' s' →
      op.request http s = op'.request http s' → op = op' ∧ s = s' := by
  refine ⟨⟨fun h => ⟨h.base.1, h.base.2, h.isPlain⟩, ?_⟩, fun op' s' h h' => h.injective h'⟩
  rintro ⟨hquery, hfragment, hplain⟩
  exact confined_of_plain hquery hfragment hplain

/-- The client without options. -/
def defaultHttp : Http letterHosts := (Http.new letterHosts none none).get (by decide +kernel)

/-- Deleting the template `../sandboxes/sbx` kills a sandbox. -/
theorem not_confined_delete :
    ¬ Confined defaultHttp .templatesDelete "../sandboxes/sbx" ∧
      (Templates.delete defaultHttp "../sandboxes/sbx").map
        (fun request => (request.method, pathText request.url.path)) =
      some (.delete, "/v1/sandboxes/sbx".toList) := by
  refine ⟨fun h => ?_, by decide +kernel⟩
  have hslash := (h.isPlain.noDelimiter '/' (by decide)).1
  exact absurd hslash (by decide)

end FissionPlane.Sdk.RequestUrl
