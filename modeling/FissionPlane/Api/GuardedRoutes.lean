/-
# FissionPlane.Api.GuardedRoutes -- which requests a middleware of the contract guards

The host resolves the caller before the API runs, so it has to know which routes need one. It reads
that off the contract, as the platform reports its endpoints: every one the middleware is on becomes
a method and a regular expression, written from the path template and compiled from its text.

`Covers` is what a template means, without a pattern: the pathname is the template with every
parameter filled in by a segment of its own. The matcher accepts exactly the requests that a
guarded endpoint covers, whatever characters its path is written in.
-/
import FissionPlane.Api.Gate
import FissionPlane.Lib.RegexSource

namespace FissionPlane.Api

open FissionPlane.Lib FissionPlane.Lib.RegexSource

/-! ## Path templates as patterns -/

/-- The class `[.*+?^${}()|[\]\\]`. -/
def metacharacters : List Char :=
  ['.', '*', '+', '?', '^', '$', '\x7b', '\x7d', '(', ')', '|', '[', ']', '\\']

/-- Escapes every RegExp metacharacter so a literal path segment matches itself. -/
def escapeSegment (segment : List Char) : List Char :=
  segment.flatMap fun c => if metacharacters.contains c then ['\\', c] else [c]

def segmentSource (segment : List Char) : List Char :=
  if segment.head? = some ':' then "[^/]+".toList
  else if segment = ['*'] then ".*".toList
  else escapeSegment segment

/-- Turns a path such as `/api/sandboxes/:id` into a matcher; `none` when the constructor of the
regular expression throws. -/
def toPathPattern (path : String) : Option (Regex Char) :=
  let source := ['/'].intercalate ((path.toList.splitOn '/').map segmentSource)
  compile ("^".toList ++ (source ++ "/?$".toList))

/-! ## The contract -/

/-- An endpoint as `HttpApi.reflect` reports it to `onEndpoint`: its method, its path, and the keys
of the middleware that is on it. -/
structure ReflectedEndpoint where
  method : String
  path : String
  middleware : List String

/-! ## The matcher -/

structure GuardedRoute where
  method : String
  path : Regex Char

/-- The routes an endpoint adds: one for each tag of it that is the middleware. -/
def endpointRoutes (middleware : String) (endpoint : ReflectedEndpoint) :
    Option (List GuardedRoute) :=
  (endpoint.middleware.filter (· = middleware)).mapM fun _ =>
    (toPathPattern endpoint.path).map fun path => ⟨endpoint.method, path⟩

def guardedRoutes (reflected : List ReflectedEndpoint) (middleware : String) :
    Option (List GuardedRoute) :=
  (reflected.mapM (endpointRoutes middleware)).map List.flatten

/-- Derives from the contract which requests a middleware guards. The outer `none` is a pattern
that cannot be made, the inner one a URL that does not parse. -/
def createGuardedRouteMatcher (parseUrl : String → Option Url)
    (reflected : List ReflectedEndpoint) (middleware : String) :
    Option (WebRequest → Option Bool) :=
  (guardedRoutes reflected middleware).map fun routes request =>
    (parseUrl request.url).map fun url =>
      routes.any fun route => route.method == request.method && route.path.test url.pathname.toList

/-! ## What a template covers -/

/-- What a segment of a template stands for: a parameter for a nonempty segment, `*` for anything
on one line, and every other segment for itself. -/
def Fits (segment piece : List Char) : Prop :=
  if segment.head? = some ':' then piece ≠ [] ∧ '/' ∉ piece
  else if segment = ['*'] then ∀ c ∈ piece, Text.isLineTerminator c = false
  else piece = segment

/-- The pathname is the template with its segments filled in, up to one slash at the end. -/
def Covers (path pathname : String) : Prop :=
  ∃ pieces, List.Forall₂ Fits (path.toList.splitOn '/') pieces ∧
    (pathname.toList = ['/'].intercalate pieces ∨
      pathname.toList = ['/'].intercalate pieces ++ ['/'])

def segmentLanguage (segment : List Char) : Language Char := {u | Fits segment u}

/-- The words a list of segments stands for, a slash between them. -/
def segmentsLanguage (segments : List (List Char)) : Language Char :=
  {u | ∃ pieces, List.Forall₂ Fits segments pieces ∧ u = ['/'].intercalate pieces}

/-! ## The pattern of a template -/

/-- The metacharacters are the characters that have a meaning in a pattern. -/
theorem metacharacters_contains (c : Char) :
    metacharacters.contains c = isSyntaxCharacter c := by
  simp only [metacharacters, isSyntaxCharacter, syntaxCharacters, List.contains_cons,
    List.contains_nil]
  ac_rfl

theorem escapeSegment_eq (segment : List Char) : escapeSegment segment = escape segment := by
  simp only [escapeSegment, escape, metacharacters_contains]

theorem segmentSource_noQuantifier (segment : List Char) :
    NoQuantifier (segmentSource segment) := by
  rw [segmentSource]
  split_ifs
  · intro c hc
    obtain rfl := Option.some.inj hc
    decide
  · intro c hc
    obtain rfl := Option.some.inj hc
    decide
  · rw [escapeSegment_eq]
    exact escape_noQuantifier segment

/-- The pattern of a segment accepts what the segment stands for. -/
theorem denotes_segmentSource (segment : List Char) :
    Denotes (segmentSource segment) (segmentLanguage segment) := by
  unfold segmentLanguage Fits segmentSource
  split_ifs
  · have hclass : ∀ c ∈ ['/'], c ≠ ']' ∧ c ≠ '\\' ∧ c ≠ '-' := by
      intro c hc
      rw [List.mem_singleton.mp hc]
      decide
    have hword : ({u | u ≠ [] ∧ '/' ∉ u} : Set (List Char)) =
        {u | u ≠ [] ∧ ∀ c ∈ u, c ∉ ['/']} := by
      apply Set.ext
      intro u
      refine and_congr_right fun _ => ⟨fun hu c hc hmem => ?_, fun hu hmem => ?_⟩
      · exact hu (List.mem_singleton.mp hmem ▸ hc)
      · exact hu '/' hmem (List.mem_singleton_self _)
    rw [hword]
    exact denotes_complement_plus hclass
  · exact denotes_dotStar
  · rw [escapeSegment_eq]
    exact denotes_escape segment

theorem intercalate_cons_cons {sep s t : List Char} {rest : List (List Char)} :
    sep.intercalate (s :: t :: rest) = s ++ (sep ++ sep.intercalate (t :: rest)) := by
  rw [List.intercalate_cons_cons, List.append_assoc]

/-- A word of a longer list of segments is a word of its first, a slash, and one of the rest. -/
theorem segmentsLanguage_cons (s t : List Char) (rest : List (List Char)) :
    segmentsLanguage (s :: t :: rest) =
      segmentLanguage s * ({['/']} * segmentsLanguage (t :: rest)) := by
  apply Set.ext
  intro w
  show w ∈ segmentsLanguage (s :: t :: rest) ↔ w ∈ segmentLanguage s * _
  rw [Language.mem_mul]
  constructor
  · rintro ⟨pieces, hpieces, rfl⟩
    cases hpieces with
    | cons hs hrest =>
        rename_i p ps
        cases hrest with
        | cons ht htail =>
            rename_i q qs
            refine ⟨p, hs, ['/'] ++ ['/'].intercalate (q :: qs), ?_,
              intercalate_cons_cons.symm⟩
            exact Language.append_mem_mul rfl ⟨q :: qs, .cons ht htail, rfl⟩
  · rintro ⟨p, hp, v, hv, rfl⟩
    obtain ⟨slash, rfl, u, ⟨pieces, hpieces, rfl⟩, rfl⟩ := Language.mem_mul.mp hv
    cases hpieces with
    | cons ht htail =>
        exact ⟨_, .cons hp (.cons ht htail), intercalate_cons_cons.symm⟩

theorem denotes_segments (s : List Char) (rest : List (List Char)) :
    Denotes (['/'].intercalate ((s :: rest).map segmentSource)) (segmentsLanguage (s :: rest)) ∧
      NoQuantifier (['/'].intercalate ((s :: rest).map segmentSource)) := by
  induction rest generalizing s with
  | nil =>
      have hword : segmentsLanguage [s] = segmentLanguage s := by
        apply Set.ext
        intro w
        constructor
        · rintro ⟨pieces, hpieces, rfl⟩
          cases hpieces with
          | cons hs hnil =>
              cases hnil
              rw [List.intercalate_singleton]
              exact hs
        · intro hw
          exact ⟨[w], .cons hw .nil, List.intercalate_singleton.symm⟩
      rw [hword, List.map_cons, List.map_nil, List.intercalate_singleton]
      exact ⟨denotes_segmentSource s, segmentSource_noQuantifier s⟩
  | cons t rest ih =>
      obtain ⟨hdenotes, hquantifier⟩ := ih t
      have hslash : NoQuantifier ['/'] := by
        intro c hc
        obtain rfl := Option.some.inj hc
        decide
      rw [List.map_cons, List.map_cons, intercalate_cons_cons, segmentsLanguage_cons]
      rw [List.map_cons] at hdenotes hquantifier
      refine ⟨?_, (segmentSource_noQuantifier s).append (hslash.append hquantifier)⟩
      have hrest := (denotes_escape_singleton '/').append hdenotes hquantifier
      exact (denotes_segmentSource s).append hrest (hslash.append hquantifier)

/-- **A template compiles, and its pattern accepts exactly what it covers.** -/
theorem toPathPattern_test (path : String) :
    ∃ r, toPathPattern path = some r ∧
      ∀ pathname : String, r.test pathname.toList = true ↔ Covers path pathname := by
  obtain ⟨s, rest, hsplit⟩ := List.exists_cons_of_ne_nil (List.splitOn_ne_nil '/' path.toList)
  have hslash : NoQuantifier "/?".toList := by
    intro c hc
    obtain rfl := Option.some.inj hc
    decide
  have hwhole := ((denotes_segments s rest).1.append (denotes_escape_opt '/') hslash)
  obtain ⟨r, hcompile, htest⟩ := hwhole.compile_anchored
  refine ⟨r, ?_, fun pathname => ?_⟩
  · rw [← hcompile, toPathPattern, hsplit, List.append_assoc]
    rfl
  · rw [htest, Language.mem_mul, Covers, hsplit]
    constructor
    · rintro ⟨u, ⟨pieces, hpieces, rfl⟩, v, rfl | rfl, heq⟩
      · exact ⟨pieces, hpieces, .inl (by rw [← heq, List.append_nil])⟩
      · exact ⟨pieces, hpieces, .inr heq.symm⟩
    · rintro ⟨pieces, hpieces, heq | heq⟩
      · exact ⟨_, ⟨pieces, hpieces, rfl⟩, [], .inl rfl, by rw [heq, List.append_nil]⟩
      · exact ⟨_, ⟨pieces, hpieces, rfl⟩, ['/'], .inr rfl, heq.symm⟩

/-! ## The matcher accepts what a guarded endpoint covers -/

/-- The route of an endpoint. -/
def IsRouteOf (endpoint : ReflectedEndpoint) (route : GuardedRoute) : Prop :=
  route.method = endpoint.method ∧
    ∀ pathname : String, route.path.test pathname.toList = true ↔ Covers endpoint.path pathname

theorem endpointRoutes_eq (middleware : String) (endpoint : ReflectedEndpoint) :
    ∃ route, IsRouteOf endpoint route ∧ endpointRoutes middleware endpoint =
      some ((endpoint.middleware.filter (· = middleware)).map fun _ => route) := by
  obtain ⟨r, hr, htest⟩ := toPathPattern_test endpoint.path
  refine ⟨⟨endpoint.method, r⟩, ⟨rfl, htest⟩, ?_⟩
  rw [endpointRoutes, hr, Option.map_some]
  exact List.mapM_pure

/-- Every guarded endpoint has a route, and every route is one of a guarded endpoint. -/
theorem guardedRoutes_spec (reflected : List ReflectedEndpoint) (middleware : String) :
    ∃ routes, guardedRoutes reflected middleware = some routes ∧
      (∀ route ∈ routes, ∃ endpoint ∈ reflected, middleware ∈ endpoint.middleware ∧
        IsRouteOf endpoint route) ∧
      ∀ endpoint ∈ reflected, middleware ∈ endpoint.middleware →
        ∃ route ∈ routes, IsRouteOf endpoint route := by
  have hlist : ∀ endpoints : List ReflectedEndpoint,
      ∃ lists, endpoints.mapM (endpointRoutes middleware) = some lists ∧
        (∀ route ∈ lists.flatten, ∃ endpoint ∈ endpoints, middleware ∈ endpoint.middleware ∧
          IsRouteOf endpoint route) ∧
        ∀ endpoint ∈ endpoints, middleware ∈ endpoint.middleware →
          ∃ route ∈ lists.flatten, IsRouteOf endpoint route := by
    intro endpoints
    induction endpoints with
    | nil =>
        exact ⟨[], rfl, fun _ h => absurd h List.not_mem_nil, fun _ h => absurd h List.not_mem_nil⟩
    | cons e endpoints ih =>
        obtain ⟨lists, hlists, hsound, hcomplete⟩ := ih
        obtain ⟨route, hroute, heq⟩ := endpointRoutes_eq middleware e
        refine ⟨_ :: lists, by rw [List.mapM_cons, heq, hlists]; rfl, ?_, ?_⟩
        · intro route' hmem
          rcases List.mem_append.mp hmem with hmem | hmem
          · obtain ⟨tag, htag, rfl⟩ := List.mem_map.mp hmem
            have hkey := of_decide_eq_true (List.mem_filter.mp htag).2
            exact ⟨e, List.mem_cons_self, hkey ▸ (List.mem_filter.mp htag).1, hroute⟩
          · obtain ⟨endpoint, hin, hguarded, hof⟩ := hsound route' hmem
            exact ⟨endpoint, List.mem_cons_of_mem e hin, hguarded, hof⟩
        · intro endpoint hin hguarded
          rcases List.mem_cons.mp hin with rfl | hin
          · refine ⟨route, List.mem_append_left _ (List.mem_map.mpr ⟨middleware, ?_, rfl⟩), hroute⟩
            exact List.mem_filter.mpr ⟨hguarded, decide_eq_true rfl⟩
          · obtain ⟨route', hmem, hof⟩ := hcomplete endpoint hin hguarded
            exact ⟨route', List.mem_append_right _ hmem, hof⟩
  obtain ⟨lists, hlists, hspec⟩ := hlist reflected
  exact ⟨lists.flatten, by rw [guardedRoutes, hlists, Option.map_some], hspec⟩

/-- A request that one of the contract's endpoints with this middleware covers. -/
def Guarded (reflected : List ReflectedEndpoint) (middleware method pathname : String) : Prop :=
  ∃ endpoint ∈ reflected, middleware ∈ endpoint.middleware ∧ endpoint.method = method ∧
    Covers endpoint.path pathname

theorem createGuardedRouteMatcher_eq (parseUrl : String → Option Url)
    (reflected : List ReflectedEndpoint) (middleware : String) :
    ∃ matcher, createGuardedRouteMatcher parseUrl reflected middleware = some matcher ∧
      ∀ request, (parseUrl request.url = none → matcher request = none) ∧
        ∀ url, parseUrl request.url = some url → ∃ b, matcher request = some b ∧
          (b = true ↔ Guarded reflected middleware request.method url.pathname) := by
  obtain ⟨routes, hroutes, hsound, hcomplete⟩ := guardedRoutes_spec reflected middleware
  refine ⟨_, by rw [createGuardedRouteMatcher, hroutes, Option.map_some], fun request => ⟨?_, ?_⟩⟩
  · intro hnone
    rw [hnone, Option.map_none]
  · intro url hurl
    refine ⟨_, by rw [hurl, Option.map_some], ?_⟩
    rw [List.any_eq_true]
    constructor
    · rintro ⟨route, hmem, hmatch⟩
      obtain ⟨hmethod, htest⟩ := (Bool.and_eq_true ..).mp hmatch
      obtain ⟨endpoint, hin, hguarded, heq, hcovers⟩ := hsound route hmem
      exact ⟨endpoint, hin, hguarded, heq.symm.trans (beq_iff_eq.mp hmethod),
        (hcovers url.pathname).mp htest⟩
    · rintro ⟨endpoint, hin, hguarded, hmethod, hcovers⟩
      obtain ⟨route, hmem, heq, htest⟩ := hcomplete endpoint hin hguarded
      refine ⟨route, hmem, (Bool.and_eq_true ..).mpr ⟨?_, (htest _).mpr hcovers⟩⟩
      exact beq_iff_eq.mpr (heq.trans hmethod)

/-! ## Templates without a wildcard -/

theorem fits_slash_free {s piece : List Char} (hs : '/' ∉ s) (hwild : s ≠ ['*'])
    (h : Fits s piece) : '/' ∉ piece := by
  rw [Fits, if_neg hwild] at h
  split_ifs at h
  · exact h.2
  · rwa [h]

theorem forall₂_fits_slash_free {segments pieces : List (List Char)}
    (hsegments : ∀ s ∈ segments, '/' ∉ s ∧ s ≠ ['*']) (h : List.Forall₂ Fits segments pieces) :
    ∀ piece ∈ pieces, '/' ∉ piece := by
  induction h with
  | nil => exact fun _ h => absurd h List.not_mem_nil
  | @cons s piece segments pieces hfits _ ih =>
      obtain ⟨hslash, hwild⟩ := hsegments s List.mem_cons_self
      intro p hp
      rcases List.mem_cons.mp hp with rfl | hp
      · exact fits_slash_free hslash hwild hfits
      · exact ih (fun t ht => hsegments t (List.mem_cons_of_mem s ht)) p hp

/-- The segments of a text hold no slash. -/
theorem slash_not_mem_of_mem_splitOn {text : List Char} :
    ∀ s ∈ text.splitOn '/', '/' ∉ s := by
  induction text with
  | nil =>
      intro s hs
      rw [List.mem_singleton.mp hs]
      exact List.not_mem_nil
  | cons c text ih =>
      rw [List.splitOn_cons_eq_if_modifyHead]
      split
      · intro s hs
        rcases List.mem_cons.mp hs with rfl | hs
        · exact List.not_mem_nil
        · exact ih s hs
      · next hc =>
          have hne : '/' ≠ c := fun h => hc (beq_iff_eq.mpr h.symm)
          obtain ⟨first, rest, hsplit⟩ := List.exists_cons_of_ne_nil (List.splitOn_ne_nil '/' text)
          rw [hsplit] at ih ⊢
          intro s hs
          rcases List.mem_cons.mp hs with rfl | hs
          · rw [List.mem_cons, not_or]
            exact ⟨hne, ih first List.mem_cons_self⟩
          · exact ih s (List.mem_cons_of_mem first hs)

/-- One slash at the end is one more segment, an empty one. -/
theorem intercalate_append_slash {pieces : List (List Char)} (h : pieces ≠ []) :
    ['/'].intercalate pieces ++ ['/'] = ['/'].intercalate (pieces ++ [[]]) := by
  induction pieces with
  | nil => exact absurd rfl h
  | cons p pieces ih =>
      cases pieces with
      | nil =>
          rw [List.intercalate_singleton, List.singleton_append, intercalate_cons_cons,
            List.intercalate_singleton, List.append_nil]
      | cons q pieces =>
          rw [List.cons_append, List.cons_append, intercalate_cons_cons, intercalate_cons_cons,
            List.append_assoc, List.append_assoc, ih (List.cons_ne_nil q pieces)]
          rfl

/-- Without a wildcard a pathname is covered segment by segment, up to an empty one at its end. -/
theorem covers_iff_segments {path : String} (hwild : ['*'] ∉ path.toList.splitOn '/')
    (pathname : String) :
    Covers path pathname ↔
      List.Forall₂ Fits (path.toList.splitOn '/') (pathname.toList.splitOn '/') ∨
        List.Forall₂ Fits (path.toList.splitOn '/' ++ [[]]) (pathname.toList.splitOn '/') := by
  have hsegments : ∀ s ∈ path.toList.splitOn '/', '/' ∉ s ∧ s ≠ ['*'] :=
    fun s hs => ⟨slash_not_mem_of_mem_splitOn s hs, fun h => hwild (h ▸ hs)⟩
  have hnil : Fits [] [] := rfl
  constructor
  · rintro ⟨pieces, hpieces, heq | heq⟩
    all_goals
      have hne : pieces ≠ [] := by
        rintro rfl
        exact List.splitOn_ne_nil '/' path.toList (List.forall₂_nil_right_iff.mp hpieces)
      have hfree := forall₂_fits_slash_free hsegments hpieces
    · left
      rwa [heq, List.splitOn_intercalate '/' hfree hne]
    · right
      have hlast : ∀ piece ∈ pieces ++ [[]], '/' ∉ piece := by
        intro piece hpiece
        rcases List.mem_append.mp hpiece with hpiece | hpiece
        · exact hfree piece hpiece
        · rw [List.mem_singleton.mp hpiece]
          exact List.not_mem_nil
      rw [heq, intercalate_append_slash hne,
        List.splitOn_intercalate '/' hlast (List.append_ne_nil_of_left_ne_nil hne _)]
      exact List.rel_append hpieces (.cons hnil .nil)
  · rintro (h | h)
    · exact ⟨_, h, .inl (List.intercalate_splitOn '/').symm⟩
    · have hinit := List.forall₂_take_append _ _ _ h.flip
      have hlast := List.forall₂_drop_append _ _ _ h.flip
      have hsplit := List.take_append_drop (path.toList.splitOn '/').length
        (pathname.toList.splitOn '/')
      generalize (pathname.toList.splitOn '/').take _ = pieces at hinit hsplit
      generalize (pathname.toList.splitOn '/').drop _ = rest at hlast hsplit
      cases hlast with
      | @cons last _ rest _ hfits hrest =>
          cases hrest
          obtain rfl : last = [] := hfits
          have hne : pieces ≠ [] := by
            rintro rfl
            exact List.splitOn_ne_nil '/' path.toList (List.forall₂_nil_left_iff.mp hinit)
          refine ⟨pieces, hinit.flip, .inr ?_⟩
          rw [intercalate_append_slash hne, hsplit]
          exact (List.intercalate_splitOn '/').symm

/-- A template of literal segments covers itself. -/
theorem covers_literal_iff {path : String}
    (h : ∀ s ∈ path.toList.splitOn '/', s.head? ≠ some ':' ∧ s ≠ ['*']) (pathname : String) :
    Covers path pathname ↔ pathname = path ∨ pathname = path ++ "/" := by
  have hfits : ∀ {segments pieces : List (List Char)},
      (∀ s ∈ segments, s.head? ≠ some ':' ∧ s ≠ ['*']) →
      (List.Forall₂ Fits segments pieces ↔ pieces = segments) := by
    intro segments pieces hliteral
    constructor
    · intro hpieces
      induction hpieces with
      | nil => rfl
      | @cons s piece segments pieces hs _ ih =>
          obtain ⟨hparam, hwild⟩ := hliteral s List.mem_cons_self
          rw [Fits, if_neg hparam, if_neg hwild] at hs
          rw [hs, ih fun t ht => hliteral t (List.mem_cons_of_mem s ht)]
    · rintro rfl
      induction pieces with
      | nil => exact .nil
      | cons s pieces ih =>
          obtain ⟨hparam, hwild⟩ := hliteral s List.mem_cons_self
          refine .cons ?_ (ih fun t ht => hliteral t (List.mem_cons_of_mem s ht))
          rw [Fits, if_neg hparam, if_neg hwild]
  have hslash : (path ++ "/").toList = path.toList ++ ['/'] := String.toList_append
  rw [Covers]
  constructor
  · rintro ⟨pieces, hpieces, heq⟩
    rw [(hfits h).mp hpieces, List.intercalate_splitOn] at heq
    rcases heq with heq | heq
    · exact .inl (String.toList_inj.mp heq)
    · exact .inr (String.toList_inj.mp (heq.trans hslash.symm))
  · rintro (rfl | rfl)
    · exact ⟨_, (hfits h).mpr rfl, .inl (List.intercalate_splitOn '/').symm⟩
    · exact ⟨_, (hfits h).mpr rfl, .inr (by rw [List.intercalate_splitOn, hslash])⟩

/-- **Whatever endpoints are reported, the matcher guards exactly the requests that the guarded ones
among them cover**, and a template without a wildcard covers a pathname segment by segment. -/
theorem guards_covered (parseUrl : String → Option Url) (reflected : List ReflectedEndpoint)
    (middleware : String) :
    (∃ matcher, createGuardedRouteMatcher parseUrl reflected middleware = some matcher ∧
      ∀ request, (parseUrl request.url = none → matcher request = none) ∧
        ∀ url, parseUrl request.url = some url → ∃ b, matcher request = some b ∧
          (b = true ↔ Guarded reflected middleware request.method url.pathname)) ∧
    ∀ path pathname : String, ['*'] ∉ path.toList.splitOn '/' →
      (Covers path pathname ↔
        List.Forall₂ Fits (path.toList.splitOn '/') (pathname.toList.splitOn '/') ∨
          List.Forall₂ Fits (path.toList.splitOn '/' ++ [[]]) (pathname.toList.splitOn '/')) :=
  ⟨createGuardedRouteMatcher_eq parseUrl reflected middleware,
    fun _ pathname hwild => covers_iff_segments hwild pathname⟩

end FissionPlane.Api
