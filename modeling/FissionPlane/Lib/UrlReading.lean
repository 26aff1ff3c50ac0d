/-
# FissionPlane.Lib.UrlReading -- what the URL parser makes of a serialized URL

A parser undoes its serializer (`parse_text`), and it does so part by part, from the left: a text
that starts with a serialized authority and goes on with a slash parses to a URL of that authority
whatever follows (`parse_append`), serialized segments in front of a text become the first segments
of its path (`parse_segments`), and a query or a fragment keeps whatever is written behind it
(`parse_pathEnd`).

Of a text put behind serialized segments, `locate_fromText` says the rest: it can remove segments
before it, but those beyond them are pieces of the text, each encoded, or empty.
-/
import FissionPlane.Lib.UrlParser

namespace FissionPlane.Lib.UrlParser

open Json (hexDigit?)
open PercentEncoding

variable {H : Hosts}

/-! ## Reading a path back -/

/-- The path state collects what holds no separator. -/
theorem pathState_append (path : List Segment) {s : List Char} (hs : ∀ c ∈ s, isSeparator c = false)
    (buffer : Buffer) (rest : List Char) :
    ∃ buffer' : Buffer, buffer'.1 = buffer.1 ++ encode pathSet s ∧
      pathState path buffer (s ++ rest) = pathState path buffer' rest := by
  induction s generalizing buffer with
  | nil => exact ⟨buffer, (List.append_nil _).symm, rfl⟩
  | cons c s ih =>
      have hc := hs c List.mem_cons_self
      obtain ⟨buffer', htext, hrun⟩ :=
        ih (fun d hd => hs d (List.mem_cons_of_mem c hd)) (buffer.push c hc)
      refine ⟨buffer', ?_, ?_⟩
      · rw [htext, encode_cons, ← List.append_assoc]
        rfl
      · rw [List.cons_append, pathState, dif_neg (by rw [hc]; decide), hrun]

/-- A buffer that is no dot segment becomes a segment. -/
theorem finish_of_text (path : List Segment) {buffer : Buffer} {segment : Segment}
    (h : buffer.1 = segment.text) (last : Bool) : finish path buffer last = path ++ [segment] := by
  rw [finish, dif_neg (by rw [h, segment.notDouble]; decide),
    dif_neg (by rw [h, segment.notSingle]; decide)]
  congr 2
  cases segment
  congr

/-- A parsed segment is read back as it is, before a separator or at the end. -/
theorem pathState_segment (path : List Segment) (segment : Segment) (rest : List Char) :
    pathState path Buffer.empty (segment.text ++ '/' :: rest) =
      pathState (path ++ [segment]) Buffer.empty rest := by
  obtain ⟨buffer, htext, hrun⟩ := pathState_append path segment.piece.2 Buffer.empty ('/' :: rest)
  rw [encode_eq_self segment.piece.1] at htext
  rw [hrun, pathState, dif_pos (by decide), finish_of_text path htext]

theorem pathState_last (path : List Segment) (segment : Segment) :
    pathState path Buffer.empty segment.text = path ++ [segment] := by
  obtain ⟨buffer, htext, hrun⟩ := pathState_append path segment.piece.2 Buffer.empty []
  rw [encode_eq_self segment.piece.1] at htext
  rw [List.append_nil] at hrun
  rw [hrun, pathState, finish_of_text path htext]

/-- Segments with a separator after each. -/
def segmentsText (segments : List Segment) : List Char :=
  segments.flatMap fun segment => segment.text ++ ['/']

theorem segmentsText_cons (segment : Segment) (segments : List Segment) (rest : List Char) :
    segmentsText (segment :: segments) ++ rest =
      segment.text ++ '/' :: (segmentsText segments ++ rest) := by
  rw [segmentsText, List.flatMap_cons, List.append_assoc, List.append_assoc]
  rfl

theorem pathState_segments (path segments : List Segment) (rest : List Char) :
    pathState path Buffer.empty (segmentsText segments ++ rest) =
      pathState (path ++ segments) Buffer.empty rest := by
  induction segments generalizing path with
  | nil => rw [List.append_nil]; rfl
  | cons segment segments ih =>
      rw [segmentsText_cons, pathState_segment, ih, List.append_assoc, List.singleton_append]

/-- Separators before the segments of a path, or after them. -/
theorem pathText_append (segments : List Segment) (s : List Char) :
    pathText segments ++ '/' :: s = '/' :: (segmentsText segments ++ s) := by
  induction segments with
  | nil => rfl
  | cons segment segments ih =>
      rw [pathText, List.flatMap_cons, List.append_assoc, ← pathText, ih, segmentsText_cons]
      rfl

/-- The text of a path that ends with a segment. -/
theorem pathText_concat (segments : List Segment) (segment : Segment) :
    pathText (segments ++ [segment]) = pathText segments ++ '/' :: segment.text := by
  rw [pathText, List.flatMap_append, List.flatMap_singleton, ← pathText]

/-! ## Which characters a part holds -/

theorem isAuthorityEnd_iff {c : Char} :
    isAuthorityEnd c = true ↔ c = '/' ∨ c = '\\' ∨ c = '?' ∨ c = '#' := by
  simp only [isAuthorityEnd, isSeparator, isPathEnd, Bool.or_eq_true, beq_iff_eq, or_assoc]

/-- What the parts of an authority are written with. -/
structure IsSiteChar (c : Char) : Prop where
  visible : 0x20 < c.toNat
  notEnd : isAuthorityEnd c = false
  notAt : c ≠ '@'

theorem isSiteChar_of_not_mem (delimiters : List Char) {c : Char} (hlow : 0x20 < c.toNat)
    (hnot : c ∉ delimiters)
    (hall : ['/', '\\', '?', '#', '@'].all delimiters.contains = true) : IsSiteChar c := by
  have hmem : ∀ d ∈ ['/', '\\', '?', '#', '@'], d ∈ delimiters := fun d hd =>
    List.contains_iff_mem.mp (List.all_eq_true.mp hall d hd)
  refine ⟨hlow, eq_false_of_ne_true fun hend => hnot (hmem c ?_), fun hat => hnot (hmem c ?_)⟩
  · rcases isAuthorityEnd_iff.mp hend with rfl | rfl | rfl | rfl <;> decide
  · rw [hat]
    decide

theorem isSiteChar_of_userinfo {c : Char} (h : userinfoSet.contains c = false) :
    IsSiteChar c ∧ c ≠ ':' := by
  have hnot := EncodeSet.not_mem_of_adding h
  exact ⟨isSiteChar_of_not_mem _ (EncodeSet.visible_of_adding (by decide) h) hnot (by decide),
    fun heq => hnot (by rw [heq]; decide)⟩

theorem isSiteChar_of_hexDigit {c : Char} (h : (hexDigit? c).isSome) : IsSiteChar c := by
  refine isSiteChar_of_not_mem ['/', '\\', '?', '#', '@'] ?_ ?_ (by decide)
  · rw [hexDigit?] at h
    split at h
    · omega
    · split at h
      · omega
      · split at h
        · omega
        · exact absurd h (by decide)
  · intro hmem
    have hnone : ['/', '\\', '?', '#', '@'].all (fun d => (hexDigit? d).isNone) = true := by
      decide
    have hc := List.all_eq_true.mp hnone c hmem
    rw [Option.isNone_iff_eq_none.mp hc] at h
    exact absurd h (by decide)

theorem hexDigit?_of_isDigit {c : Char} (h : c.isDigit = true) : (hexDigit? c).isSome := by
  have hrange : 48 ≤ c.toNat ∧ c.toNat ≤ 57 := by
    simpa [Char.isDigit, UInt32.le_iff_toNat_le] using h
  rw [hexDigit?, if_pos hrange]
  rfl

theorem HostText.ne_nil {s : List Char} (h : HostText s) : s ≠ [] := by
  cases h with
  | name hne _ => exact hne
  | literal _ => exact List.cons_ne_nil _ _

theorem HostText.isSiteChar {s : List Char} (h : HostText s) : ∀ c ∈ s, IsSiteChar c := by
  intro c hc
  cases h with
  | name _ hs =>
      have hc' := hs c hc
      simp only [isForbiddenDomain, Bool.or_eq_false_iff, decide_eq_false_iff_not] at hc'
      obtain ⟨⟨hlow, _⟩, hnot⟩ := hc'
      refine isSiteChar_of_not_mem
        ['#', '/', ':', '<', '>', '?', '@', '[', '\\', ']', '^', '|', '%'] (by omega)
        (fun hmem => ?_) (by decide)
      rw [List.contains_iff_mem.mpr hmem] at hnot
      exact absurd hnot (by decide)
  | literal hs =>
      rcases List.mem_cons.mp hc with rfl | hc
      · exact ⟨by decide, by decide, by decide⟩
      · rcases List.mem_append.mp hc with hc | hc
        · rcases hs c hc with hhex | rfl
          · exact isSiteChar_of_hexDigit hhex
          · exact ⟨by decide, by decide, by decide⟩
        · rw [List.mem_singleton.mp hc]
          exact ⟨by decide, by decide, by decide⟩

theorem portText_isSiteChar (port : Option UInt16) : ∀ c ∈ portText port, IsSiteChar c := by
  intro c hc
  cases port with
  | none => exact absurd hc List.not_mem_nil
  | some port =>
      rcases List.mem_cons.mp hc with rfl | hc
      · exact ⟨by decide, by decide, by decide⟩
      · exact isSiteChar_of_hexDigit
          (hexDigit?_of_isDigit (Nat.isDigit_of_mem_toDigits (by decide) (by decide) hc))

/-- The credentials end at the only `@` of an authority, and are empty without one. -/
theorem credentialsText_eq {username password : List Char}
    (hu : Clean userinfoSet username) (hp : Clean userinfoSet password) :
    credentialsText username password = [] ∧ username = [] ∧ password = [] ∨
      ∃ s, credentialsText username password = s ++ ['@'] ∧
        s.takeWhile (· != ':') = username ∧ (s.dropWhile (· != ':')).drop 1 = password ∧
        ∀ c ∈ s, 0x20 < c.toNat ∧ isAuthorityEnd c = false := by
  have hnotColon : ∀ c ∈ username, (c != ':') = true := fun c hc =>
    bne_iff_ne.mpr (isSiteChar_of_userinfo (hu c hc)).2
  rw [credentialsText]
  split
  · rename_i hnil
    exact Or.inl ⟨rfl, hnil⟩
  · refine Or.inr ⟨_, rfl, ?_, ?_, ?_⟩
    · rw [List.takeWhile_append_of_pos hnotColon]
      split <;> simp
    · rw [List.dropWhile_append_of_pos hnotColon]
      split
      · rename_i hnil
        rw [hnil]
        rfl
      · rw [List.dropWhile_cons_of_neg (by decide)]
        rfl
    · intro c hc
      rcases List.mem_append.mp hc with hc | hc
      · have hchar := (isSiteChar_of_userinfo (hu c hc)).1
        exact ⟨hchar.visible, hchar.notEnd⟩
      · split at hc
        · exact absurd hc List.not_mem_nil
        · rcases List.mem_cons.mp hc with rfl | hc
          · exact ⟨by decide, by decide⟩
          · have hchar := (isSiteChar_of_userinfo (hp c hc)).1
            exact ⟨hchar.visible, hchar.notEnd⟩

/-- Nothing in an authority ends it, and nothing in it is removed. -/
theorem siteText_chars (a : Authority H) :
    ∀ c ∈ a.siteText, 0x20 < c.toNat ∧ isAuthorityEnd c = false := by
  intro c hc
  rcases List.mem_append.mp hc with hc | hc
  · rcases credentialsText_eq a.username.2 a.password.2 with ⟨hnil, _⟩ | ⟨s, hs, _, _, hchars⟩
    · rw [hnil] at hc
      exact absurd hc List.not_mem_nil
    · rw [hs] at hc
      rcases List.mem_append.mp hc with hc | hc
      · exact hchars c hc
      · rw [List.mem_singleton.mp hc]
        exact ⟨by decide, by decide⟩
  · have hchar : IsSiteChar c := (List.mem_append.mp hc).elim
      ((H.serialize_text a.host).isSiteChar c) (portText_isSiteChar a.port c)
    exact ⟨hchar.visible, hchar.notEnd⟩

/-! ## Reading an authority back -/

theorem splitHost_append {s : List Char} (inside : Bool)
    (hs : ∀ c ∈ s, c ≠ '[' ∧ c ≠ ']' ∧ (c ≠ ':' ∨ inside = true)) (rest : List Char) :
    splitHost inside (s ++ rest) =
      (s ++ (splitHost inside rest).1, (splitHost inside rest).2) := by
  induction s with
  | nil => rfl
  | cons c s ih =>
      obtain ⟨hopen, hclose, hcolon⟩ := hs c List.mem_cons_self
      have hgo : ¬(c = ':' ∧ inside = false) := by
        rintro ⟨heq, hout⟩
        rcases hcolon with hne | hin
        · exact hne heq
        · rw [hout] at hin
          exact absurd hin (by decide)
      rw [List.cons_append, splitHost, if_neg hgo, if_neg hopen, if_neg hclose,
        ih fun d hd => hs d (List.mem_cons_of_mem c hd)]
      rfl

theorem splitHost_portText (port : Option UInt16) :
    splitHost false (portText port) = ([], portText port) := by
  cases port with
  | none => rfl
  | some port => exact if_pos ⟨rfl, rfl⟩

/-- The host ends where its serialization does. -/
theorem splitHost_text {s : List Char} (h : HostText s) (port : Option UInt16) :
    splitHost false (s ++ portText port) = (s, portText port) := by
  cases h with
  | name _ hs =>
      have hnot : ∀ c ∈ s, ∀ d ∈ ['[', ']', ':'], c ≠ d := by
        rintro c hc d hd rfl
        have hall : ['[', ']', ':'].all isForbiddenDomain = true := by decide
        exact absurd ((hs c hc).symm.trans (List.all_eq_true.mp hall c hd)) (by decide)
      rw [splitHost_append false (fun c hc => ⟨hnot c hc _ (by decide), hnot c hc _ (by decide),
        Or.inl (hnot c hc _ (by decide))⟩), splitHost_portText, List.append_nil]
  | @literal s hs =>
      have hin : ∀ c ∈ s, c ≠ '[' ∧ c ≠ ']' ∧ (c ≠ ':' ∨ true = true) := by
        intro c hc
        rcases hs c hc with hhex | rfl
        · exact ⟨by rintro rfl; exact absurd hhex (by decide),
            by rintro rfl; exact absurd hhex (by decide), Or.inr rfl⟩
        · exact ⟨by decide, by decide, Or.inr rfl⟩
      have hclose : splitHost true (']' :: portText port) = ([']'], portText port) := by
        rw [splitHost, if_neg (by decide), if_neg (by decide), if_pos rfl, splitHost_portText]
      show splitHost false ('[' :: (s ++ [']'] ++ portText port)) = _
      rw [splitHost, if_neg (by decide), if_pos rfl, List.append_assoc, List.singleton_append,
        splitHost_append true hin, hclose]

theorem parsePort_portText {scheme : Scheme} {port : Option UInt16}
    (h : port ≠ some scheme.defaultPort) : parsePort scheme (portText port) = some ⟨port, h⟩ := by
  cases port with
  | none => rfl
  | some port =>
      have hdigits : (Nat.toDigits 10 port.toNat).all Char.isDigit = true :=
        List.all_eq_true.mpr fun c hc => Nat.isDigit_of_mem_toDigits (by decide) (by decide) hc
      have hlt := port.toNat_lt
      rw [portText, parsePort, if_pos hdigits, if_neg Nat.toDigits_ne_nil]
      simp only [Nat.ofDigitChars_ten_toDigits, UInt16.ofNat_toNat]
      rw [if_neg (by omega), dif_neg fun heq => h (congrArg some heq)]

/-- A text is cut behind the last character that fails a test. -/
theorem cut_append {p : Char → Bool} {s rest : List Char} (hrest : ∀ c ∈ rest, p c = true)
    (hs : s = [] ∨ ∃ t c, s = t ++ [c] ∧ p c = false) :
    (s ++ rest).rdropWhile p = s ∧ (s ++ rest).rtakeWhile p = rest := by
  have hrev : ∀ c ∈ rest.reverse, p c = true := fun c hc => hrest c (List.mem_reverse.mp hc)
  rw [List.rdropWhile, List.rtakeWhile, List.reverse_append,
    List.dropWhile_append_of_pos hrev, List.takeWhile_append_of_pos hrev]
  rcases hs with rfl | ⟨t, c, rfl, hc⟩
  · simp
  · rw [List.reverse_concat, List.dropWhile_cons_of_neg (by rw [hc]; decide),
      List.takeWhile_cons_of_neg (by rw [hc]; decide)]
    simp

/-- An authority is read back as it is. -/
theorem parseAuthority_siteText (a : Authority H) :
    parseAuthority H a.scheme a.siteText = some a := by
  have hsite : ∀ c ∈ H.serialize a.host ++ portText a.port, (c != '@') = true := fun c hc =>
    bne_iff_ne.mpr (((List.mem_append.mp hc).elim
      ((H.serialize_text a.host).isSiteChar c) (portText_isSiteChar a.port c)).notAt)
  have hhost := splitHost_text (H.serialize_text a.host) a.port
  -- with or without credentials, the text is cut where they end
  have hcut : ∃ s, (a.siteText.rdropWhile (· != '@')).dropLast = s ∧
      a.siteText.rtakeWhile (· != '@') = H.serialize a.host ++ portText a.port ∧
      encoded userinfoSet (s.takeWhile (· != ':')) = a.username ∧
      encoded userinfoSet ((s.dropWhile (· != ':')).drop 1) = a.password := by
    rcases credentialsText_eq a.username.2 a.password.2 with
      ⟨hnil, hu, hp⟩ | ⟨s, hs, hu, hp, _⟩
    · obtain ⟨hdrop, htake⟩ := cut_append (s := credentialsText a.username.1 a.password.1) hsite
        (Or.inl hnil)
      refine ⟨[], ?_, htake, Subtype.ext hu.symm, Subtype.ext hp.symm⟩
      rw [Authority.siteText, hdrop, hnil]
      rfl
    · obtain ⟨hdrop, htake⟩ := cut_append (s := credentialsText a.username.1 a.password.1) hsite
        (Or.inr ⟨s, '@', hs, by decide⟩)
      refine ⟨s, ?_, htake, Subtype.ext ?_, Subtype.ext ?_⟩
      · rw [Authority.siteText, hdrop, hs, List.dropLast_concat]
      · show encode userinfoSet _ = _
        rw [hu, encode_eq_self a.username.2]
      · show encode userinfoSet _ = _
        rw [hp, encode_eq_self a.password.2]
  obtain ⟨s, hs, hrest, hu, hp⟩ := hcut
  unfold parseAuthority
  simp only [hs, hrest, hhost, (H.serialize_text a.host).ne_nil, if_false, H.parse_serialize,
    Option.bind_eq_bind, Option.bind_some, parsePort_portText a.port_ne, hu, hp]

/-! ## Reading a URL back -/

/-- What is dropped from the end of a text stops at a character that is kept. -/
theorem rdropWhile_append_cons {p : Char → Bool} (s : List Char) {c : Char} (hc : p c = false)
    (rest : List Char) : (s ++ c :: rest).rdropWhile p = s ++ c :: rest.rdropWhile p := by
  induction rest using List.reverseRecOn with
  | nil => exact List.rdropWhile_concat_neg p s c (by rw [hc]; decide)
  | append_singleton rest x ih =>
      rw [← List.cons_append, ← List.append_assoc, List.rdropWhile_concat, List.rdropWhile_concat,
        ih]
      split
      · rfl
      · rw [List.append_assoc]
        rfl

theorem tidy_append {s : List Char} (hs : ∀ c ∈ s, 0x20 < c.toNat) {c : Char}
    (hc : 0x20 < c.toNat) (rest : List Char) : tidy (s ++ c :: rest) = s ++ c :: tidy rest := by
  have hkeep : ∀ d : Char, 0x20 < d.toNat → (!isTabOrNewline d) = true := by
    intro d hd
    rw [isTabOrNewline_of_visible (Nat.le_of_lt hd)]
    rfl
  rw [tidy, rdropWhile_append_cons s (decide_eq_false (by omega)), List.filter_append,
    List.filter_cons_of_pos (p := fun d => !isTabOrNewline d) (hkeep c hc),
    List.filter_eq_self.mpr fun d hd => hkeep d (hs d hd), tidy]

theorem splitScheme_name (scheme : Scheme) (rest : List Char) :
    splitScheme (scheme.name ++ ':' :: rest) = some (scheme.name, rest) := by
  have hname : ∀ c ∈ scheme.name, isSchemeChar c = true :=
    List.all_eq_true.mp (by cases scheme <;> rfl)
  have htake : (scheme.name ++ ':' :: rest).takeWhile isSchemeChar = scheme.name := by
    rw [List.takeWhile_append_of_pos hname,
      List.takeWhile_cons_of_neg (by decide), List.append_nil]
  have hdrop : (scheme.name ++ ':' :: rest).dropWhile isSchemeChar = ':' :: rest := by
    rw [List.dropWhile_append_of_pos hname,
      List.dropWhile_cons_of_neg (by decide)]
  rw [splitScheme, htake, hdrop]
  cases scheme <;> rfl

theorem siteText_ne_nil (a : Authority H) : a.siteText ≠ [] :=
  List.append_ne_nil_of_right_ne_nil _
    (List.append_ne_nil_of_left_ne_nil (H.serialize_text a.host).ne_nil _)

/-- A text that starts with a scheme and a slash is read from that slash on. -/
theorem parse_scheme (scheme : Scheme) (s : List Char) :
    parse H (scheme.name ++ ':' :: '/' :: s) = parseAbsolute H scheme ('/' :: tidy s) := by
  have hvisible : ∀ c ∈ scheme.name ++ [':'], 0x20 < c.toNat := by
    intro c hc
    rcases List.mem_append.mp hc with hc | hc
    · exact scheme.name_visible c hc
    · rw [List.mem_singleton.mp hc]
      decide
  have hstart : (scheme.name ++ ':' :: '/' :: s).dropWhile isC0ControlOrSpace =
      scheme.name ++ ':' :: '/' :: s := by
    cases scheme <;> rfl
  have hclean : clean (scheme.name ++ ':' :: '/' :: s) = scheme.name ++ ':' :: '/' :: tidy s := by
    have htidy := tidy_append hvisible (c := '/') (by decide) s
    rw [List.append_assoc, List.append_assoc] at htidy
    rw [clean, hstart]
    exact htidy
  unfold parse
  rw [hclean, splitScheme_name]
  show (Scheme.ofName? scheme.name).bind _ = _
  rw [Scheme.ofName?_name]
  rfl

/-- The slashes before an authority are skipped, and the text is cut where the authority ends. -/
theorem parseAbsolute_cut (scheme : Scheme) {s rest : List Char}
    (hs : ∀ c ∈ s, isAuthorityEnd c = false)
    (hrest : rest.head?.all isAuthorityEnd = true)
    (hsep : (s ++ rest).head?.any isSeparator = false) :
    parseAbsolute H scheme ('/' :: '/' :: (s ++ rest)) =
      (parseAuthority H scheme s).map fun a => a.locate [] (dropSeparator rest) := by
  have hgo : ∀ c ∈ s, (!isAuthorityEnd c) = true := fun c hc => by
    rw [hs c hc]
    rfl
  have hskip : ('/' :: '/' :: (s ++ rest)).dropWhile isSeparator = s ++ rest := by
    rw [List.dropWhile_cons_of_pos (by decide), List.dropWhile_cons_of_pos (by decide)]
    cases hcons : s ++ rest with
    | nil => rfl
    | cons c t =>
        rw [hcons] at hsep
        exact List.dropWhile_cons_of_neg (Bool.eq_false_iff.mp hsep)
  have hstop : rest.takeWhile (!isAuthorityEnd ·) = [] ∧
      rest.dropWhile (!isAuthorityEnd ·) = rest := by
    cases rest with
    | nil => exact ⟨rfl, rfl⟩
    | cons c t =>
        have hend : isAuthorityEnd c = true := hrest
        exact ⟨List.takeWhile_cons_of_neg (by rw [hend]; decide),
          List.dropWhile_cons_of_neg (by rw [hend]; decide)⟩
  rw [parseAbsolute, hskip]
  show (parseAuthority H scheme _).map _ = _
  rw [List.takeWhile_append_of_pos hgo, hstop.1, List.append_nil, List.dropWhile_append_of_pos hgo,
    hstop.2]

theorem not_isSeparator_of_notEnd {c : Char} (h : isAuthorityEnd c = false) :
    isSeparator c = false := by
  rw [isAuthorityEnd, Bool.or_eq_false_iff] at h
  exact h.1

/-- **A text that goes on after an authority parses to a URL of that authority.** -/
theorem parse_append (a : Authority H) (s : List Char) :
    parse H (a.text ++ '/' :: s) = some (a.locate [] (tidy s)) := by
  have hchars := siteText_chars a
  have htext : a.text ++ '/' :: s =
      a.scheme.name ++ ':' :: '/' :: (('/' :: a.siteText) ++ '/' :: s) := by
    rw [Authority.text, List.append_assoc]
    rfl
  have htidy : tidy (('/' :: a.siteText) ++ '/' :: s) = '/' :: (a.siteText ++ '/' :: tidy s) := by
    rw [tidy_append _ (by decide), List.cons_append]
    intro c hc
    rcases List.mem_cons.mp hc with rfl | hc
    · decide
    · exact (hchars c hc).1
  have hhead : (a.siteText ++ '/' :: tidy s).head?.any isSeparator = false := by
    obtain ⟨c, t, ht⟩ := List.exists_cons_of_ne_nil (siteText_ne_nil a)
    rw [ht]
    exact not_isSeparator_of_notEnd (hchars c (by rw [ht]; exact List.mem_cons_self)).2
  rw [htext, parse_scheme, htidy, parseAbsolute_cut _ (fun c hc => (hchars c hc).2) rfl hhead,
    parseAuthority_siteText]
  rfl

theorem Segment.chars (segment : Segment) :
    ∀ c ∈ segment.text, 0x20 < c.toNat ∧ isPathEnd c = false := by
  intro c hc
  have hclean := segment.piece.1 c hc
  constructor
  · exact EncodeSet.visible_of_adding (by decide) hclean
  · refine eq_false_of_ne_true fun hend => EncodeSet.not_mem_of_adding hclean ?_
    rw [isPathEnd, Bool.or_eq_true, beq_iff_eq, beq_iff_eq] at hend
    rcases hend with rfl | rfl <;> decide

theorem tidy_of_visible {s : List Char} (hs : ∀ c ∈ s, 0x20 < c.toNat) : tidy s = s := by
  rcases List.eq_nil_or_concat' s with rfl | ⟨t, c, rfl⟩
  · rfl
  · have ht := tidy_append (fun d hd => hs d (List.mem_append_left _ hd))
      (hs c (List.mem_append_right _ (List.mem_singleton_self c))) []
    exact ht

theorem tidy_segmentsText (segments : List Segment) (s : List Char) :
    tidy (segmentsText segments ++ s) = segmentsText segments ++ tidy s := by
  induction segments with
  | nil => rfl
  | cons segment segments ih =>
      rw [segmentsText_cons, tidy_append (fun c hc => (segment.chars c hc).1) (by decide), ih,
        segmentsText_cons]

/-- A URL without query and fragment. -/
def Authority.at (a : Authority H) (path : List Segment) (h : path ≠ []) : Url H where
  toAuthority := a
  path := path
  path_ne := h
  query := none
  fragment := none

variable (a : Authority H)

/-- What stands before a path, query and fragment is not seen by the states that read the two
latter. -/
theorem locate_append {s : List Char} (hs : ∀ c ∈ s, isPathEnd c = false)
    (rest : List Char) :
    (s ++ rest).takeWhile (!isPathEnd ·) = s ++ rest.takeWhile (!isPathEnd ·) ∧
      parseQuery (s ++ rest) = parseQuery rest ∧
      parseFragment (s ++ rest) = parseFragment rest := by
  have hgo : ∀ c ∈ s, (!isPathEnd c) = true := fun c hc => by rw [hs c hc]; rfl
  have hhash : ∀ c ∈ s, (c != '#') = true := by
    intro c hc
    refine bne_iff_ne.mpr fun heq => ?_
    have := hs c hc
    rw [heq] at this
    exact absurd this (by decide)
  refine ⟨List.takeWhile_append_of_pos hgo, ?_, ?_⟩
  · rw [parseQuery, parseQuery, List.dropWhile_append_of_pos hgo]
  · rw [parseFragment, parseFragment, List.dropWhile_append_of_pos hhash]

theorem segmentsText_notEnd (segments : List Segment) :
    ∀ c ∈ segmentsText segments, isPathEnd c = false := by
  intro c hc
  obtain ⟨segment, _, hseg⟩ := List.mem_flatMap.mp hc
  rcases List.mem_append.mp hseg with hseg | hseg
  · exact (segment.chars c hseg).2
  · rw [List.mem_singleton.mp hseg]
    decide

/-- The states read a run of parsed segments as they are. -/
theorem locate_segments (path segments : List Segment) (s : List Char) :
    a.locate path (segmentsText segments ++ s) = a.locate (path ++ segments) s := by
  obtain ⟨htake, hquery, hfragment⟩ := locate_append (segmentsText_notEnd segments) s
  apply Url.ext_authority
  · rfl
  · show pathState _ _ _ = pathState _ _ _
    rw [htake, pathState_segments]
  · exact hquery
  · exact hfragment

/-- A path ends with its last segment, where a query or a fragment starts. -/
theorem locate_last (path : List Segment) (segment : Segment) (rest : List Char)
    (hrest : rest.takeWhile (!isPathEnd ·) = []) :
    (a.locate path (segment.text ++ rest)).path = path ++ [segment] ∧
      (a.locate path (segment.text ++ rest)).query = parseQuery rest ∧
      (a.locate path (segment.text ++ rest)).fragment = parseFragment rest := by
  obtain ⟨htake, hquery, hfragment⟩ :=
    locate_append (fun c hc => (segment.chars c hc).2) rest
  refine ⟨?_, hquery, hfragment⟩
  show pathState _ _ _ = _
  rw [htake, hrest, List.append_nil, pathState_last]

/-- What follows parsed segments and a slash. -/
theorem parse_segments (segments : List Segment) (s : List Char) :
    parse H (a.text ++ (pathText segments ++ '/' :: s)) = some (a.locate segments (tidy s)) := by
  rw [pathText_append, parse_append, tidy_segmentsText, locate_segments, List.nil_append]

/-- The text of a path, behind its first slash. -/
theorem pathText_eq_cons {path : List Segment} (h : path ≠ []) :
    ∃ s, pathText path = '/' :: s ∧ tidy s = s ∧ a.locate [] s = a.at path h := by
  obtain ⟨segments, last, rfl⟩ := (List.eq_nil_or_concat' path).resolve_left h
  have hlast : tidy last.text = last.text := tidy_of_visible fun c hc => (last.chars c hc).1
  obtain ⟨hpath, hquery, hfragment⟩ := locate_last a segments last [] rfl
  rw [List.append_nil] at hpath hquery hfragment
  refine ⟨segmentsText segments ++ last.text, ?_, ?_, ?_⟩
  · rw [pathText_concat, pathText_append]
  · rw [tidy_segmentsText, hlast]
  · rw [locate_segments, List.nil_append]
    exact Url.ext_authority rfl hpath hquery hfragment

/-- A serialized path is read back. -/
theorem parse_pathText {path : List Segment} (h : path ≠ []) :
    parse H (a.text ++ pathText path) = some (a.at path h) := by
  obtain ⟨s, htext, htidy, hlocate⟩ := pathText_eq_cons a h
  rw [htext, parse_append, htidy, hlocate]

/-- A query or a fragment ends the path, and what is put behind it is theirs. -/
theorem parse_pathEnd {path : List Segment} (h : path ≠ []) {c : Char} (hc : isPathEnd c = true)
    (rest : List Char) :
    ∃ url : Url H, parse H (a.text ++ (pathText path ++ c :: rest)) = some url ∧
      url.toAuthority = a ∧ url.path = path ∧ url.query = parseQuery (c :: tidy rest) ∧
      url.fragment = parseFragment (c :: tidy rest) := by
  obtain ⟨segments, last, rfl⟩ := (List.eq_nil_or_concat' path).resolve_left h
  have hvisible : 0x20 < c.toNat := by
    rw [isPathEnd, Bool.or_eq_true, beq_iff_eq, beq_iff_eq] at hc
    rcases hc with rfl | rfl <;> decide
  have hend : (c :: tidy rest).takeWhile (!isPathEnd ·) = [] :=
    List.takeWhile_cons_of_neg (by rw [hc]; decide)
  obtain ⟨hpath, hquery, hfragment⟩ := locate_last a segments last _ hend
  refine ⟨_, ?_, rfl, ?_, hquery, hfragment⟩
  · rw [pathText_concat, List.append_assoc, List.cons_append, parse_segments,
      tidy_append (fun d hd => (last.chars d hd).1) hvisible]
  · exact hpath

/-! ## Reading a whole URL back -/

theorem queryText_fragmentText_visible (query : Option (Encoded querySet))
    (fragment : Option (Encoded fragmentSet)) :
    ∀ c ∈ queryText query ++ fragmentText fragment, 0x20 < c.toNat := by
  intro c hc
  rcases List.mem_append.mp hc with hc | hc
  · cases query with
    | none => exact absurd hc List.not_mem_nil
    | some query =>
        rcases List.mem_cons.mp hc with rfl | hc
        · decide
        · exact EncodeSet.visible_of_adding (by decide) (query.2 c hc)
  · cases fragment with
    | none => exact absurd hc List.not_mem_nil
    | some fragment =>
        rcases List.mem_cons.mp hc with rfl | hc
        · decide
        · exact EncodeSet.visible_of_adding (by decide) (fragment.2 c hc)

theorem encoded_self {set : EncodeSet} (s : Encoded set) : encoded set s.1 = s :=
  Subtype.ext (encode_eq_self s.2)

theorem parseFragment_hash (fragment : Encoded fragmentSet) :
    parseFragment ('#' :: fragment.1) = some fragment := by
  rw [parseFragment, List.dropWhile_cons_of_neg (by decide)]
  exact congrArg some (encoded_self fragment)

theorem parseQuery_question (query : Encoded querySet) (fragment : Option (Encoded fragmentSet)) :
    parseQuery ('?' :: (query.1 ++ fragmentText fragment)) = some query ∧
      parseFragment ('?' :: (query.1 ++ fragmentText fragment)) = fragment := by
  have hgo : ∀ c ∈ query.1, (c != '#') = true := fun c hc =>
    bne_iff_ne.mpr fun heq => EncodeSet.not_mem_of_adding (query.2 c hc) (by rw [heq]; decide)
  have htake : (fragmentText fragment).takeWhile (· != '#') = [] := by cases fragment <;> rfl
  constructor
  · rw [parseQuery, List.dropWhile_cons_of_neg (by decide)]
    show some (encoded querySet ((query.1 ++ fragmentText fragment).takeWhile (· != '#'))) = _
    rw [List.takeWhile_append_of_pos hgo, htake, List.append_nil, encoded_self]
  · rw [parseFragment, List.dropWhile_cons_of_pos (by decide), List.dropWhile_append_of_pos hgo]
    cases fragment with
    | none => rfl
    | some fragment => exact congrArg some (encoded_self fragment)

/-- **A serialized URL parses back to itself.** -/
theorem parse_text (url : Url H) : parse H url.text = some url := by
  have hvisible := queryText_fragmentText_visible url.query url.fragment
  have hcase : ∀ (c : Char) (rest : List Char),
      queryText url.query ++ fragmentText url.fragment = c :: rest → isPathEnd c = true →
      parseQuery (c :: rest) = url.query → parseFragment (c :: rest) = url.fragment →
      parse H url.text = some url := by
    intro c rest htext hc hquery hfragment
    obtain ⟨url', hparse, hauthority, hpath, hquery', hfragment'⟩ :=
      parse_pathEnd url.toAuthority url.path_ne hc rest
    have htidy : tidy rest = rest :=
      tidy_of_visible fun d hd => hvisible d (by rw [htext]; exact List.mem_cons_of_mem c hd)
    rw [htidy] at hquery' hfragment'
    rw [Url.text, htext, hparse]
    exact congrArg some (Url.ext_authority hauthority hpath (hquery'.trans hquery)
      (hfragment'.trans hfragment))
  cases hq : url.query with
  | none =>
      cases hf : url.fragment with
      | none =>
          rw [Url.text, hq, hf]
          show parse H (url.toAuthority.text ++ (pathText url.path ++ [])) = _
          rw [List.append_nil, parse_pathText _ url.path_ne]
          exact congrArg some (Url.ext_authority rfl rfl hq.symm hf.symm)
      | some fragment =>
          refine hcase '#' fragment.1 ?_ rfl ?_ ?_
          · rw [hq, hf]
            rfl
          · rw [hq]
            rfl
          · rw [hf, parseFragment_hash]
  | some query =>
      obtain ⟨hquery, hfragment⟩ := parseQuery_question query url.fragment
      refine hcase '?' (query.1 ++ fragmentText url.fragment) ?_ rfl ?_ hfragment
      · rw [hq]
        rfl
      · rw [hq, hquery]

/-! ## A site alone -/

theorem parseAuthority_scheme {scheme : Scheme} {s : List Char} {a : Authority H}
    (h : parseAuthority H scheme s = some a) : a.scheme = scheme := by
  unfold parseAuthority at h
  simp only [Option.bind_eq_bind] at h
  split at h
  · cases h
  · obtain ⟨_, _, h⟩ := Option.bind_eq_some_iff.mp h
    obtain ⟨_, _, h⟩ := Option.bind_eq_some_iff.mp h
    rw [← Option.some.inj h]

/-- A text that ends with its authority has the path of a slash. -/
theorem parse_site {scheme : Scheme} {s : List Char} {url : Url H}
    (hs : ∀ c ∈ s, 0x20 < c.toNat ∧ isAuthorityEnd c = false)
    (h : parse H (scheme.name ++ ':' :: '/' :: '/' :: s) = some url) :
    url.scheme = scheme ∧ url.path = [Segment.empty] ∧ url.query = none ∧ url.fragment = none := by
  have htidy : tidy ('/' :: s) = '/' :: s := by
    apply tidy_of_visible
    intro c hc
    rcases List.mem_cons.mp hc with rfl | hc
    · decide
    · exact (hs c hc).1
  have hhead : (s ++ []).head?.any isSeparator = false := by
    cases s with
    | nil => rfl
    | cons c s => exact not_isSeparator_of_notEnd (hs c List.mem_cons_self).2
  rw [parse_scheme, htidy, ← List.append_nil s,
    parseAbsolute_cut _ (fun c hc => (hs c hc).2) rfl hhead] at h
  obtain ⟨a, ha, rfl⟩ := Option.map_eq_some_iff.mp h
  exact ⟨parseAuthority_scheme ha, rfl, rfl, rfl⟩

/-! ## References -/

/-- An absolute path takes the place of the whole path of the base. -/
theorem join_pathText (base : Url H) {segment : Segment} (segments : List Segment)
    (h : segment.text ≠ []) :
    base.join (pathText (segment :: segments)) =
      some (base.toAuthority.at (segment :: segments) (List.cons_ne_nil _ _)) := by
  obtain ⟨s, htext, htidy, hlocate⟩ :=
    pathText_eq_cons base.toAuthority (List.cons_ne_nil segment segments)
  have hclean : clean ('/' :: s) = '/' :: s := by
    rw [clean, List.dropWhile_cons_of_neg (by decide)]
    have := tidy_append (s := []) (fun c hc => absurd hc List.not_mem_nil) (c := '/') (by decide) s
    rw [List.nil_append, List.nil_append, htidy] at this
    exact this
  have hscheme : splitScheme ('/' :: s) = none := by
    rw [splitScheme, List.takeWhile_cons_of_neg (by decide)]
  have hhead : s.head?.any isSeparator = false := by
    obtain ⟨c, t, ht⟩ := List.exists_cons_of_ne_nil h
    have hs : s = c :: (t ++ pathText segments) := by
      rw [pathText, List.flatMap_cons, ht] at htext
      exact (List.cons.inj htext).2.symm
    rw [hs]
    exact segment.piece.2 c (by rw [ht]; exact List.mem_cons_self)
  rw [htext, Url.join, hclean, hscheme]
  show base.relative ('/' :: s) = _
  rw [Url.relative, if_pos (by decide), hhead, if_neg (by decide), hlocate]

/-! ## Where a segment comes from -/

/-- A segment that is empty or encodes a piece of the text, separators not included. -/
def FromText (s : List Char) (segment : List Char) : Prop :=
  segment = [] ∨ ∃ piece, piece.Sublist s ∧ (∀ c ∈ piece, isSeparator c = false) ∧
    segment = encode pathSet piece

theorem finish_fromText {s : List Char} {n : Nat} {path : List Segment} {buffer : Buffer}
    (hpath : ∀ segment ∈ path.drop n, FromText s segment.text) (hbuffer : FromText s buffer.1)
    (last : Bool) : ∀ segment ∈ (finish path buffer last).drop n, FromText s segment.text := by
  have hadd : ∀ {path : List Segment} {added : Segment},
      (∀ segment ∈ path.drop n, FromText s segment.text) → FromText s added.text →
      ∀ segment ∈ (path ++ [added]).drop n, FromText s segment.text := by
    intro path added hpath hadded segment hseg
    rw [List.drop_append] at hseg
    rcases List.mem_append.mp hseg with hseg | hseg
    · exact hpath segment hseg
    · rw [List.mem_singleton.mp (List.mem_of_mem_drop hseg)]
      exact hadded
  have hshort : ∀ segment ∈ path.dropLast.drop n, FromText s segment.text := by
    intro segment hseg
    rw [List.dropLast_eq_take, List.drop_take] at hseg
    exact hpath segment (List.mem_of_mem_take hseg)
  rw [finish]
  split
  · split
    · exact hadd hshort (Or.inl rfl)
    · exact hshort
  · split
    · split
      · exact hadd hpath (Or.inl rfl)
      · exact hpath
    · exact hadd hpath hbuffer

/-- **Every segment beyond the first ones comes from the text.** The induction is on what is left
of the text, with the piece that is in the buffer before it. -/
theorem pathState_fromText {s : List Char} {n : Nat} (rest : List Char) {path : List Segment}
    {buffer : Buffer} (piece : List Char) (hpath : ∀ segment ∈ path.drop n, FromText s segment.text)
    (hpiece : ∀ c ∈ piece, isSeparator c = false) (hbuffer : buffer.1 = encode pathSet piece)
    (hsub : (piece ++ rest).Sublist s) :
    ∀ segment ∈ (pathState path buffer rest).drop n, FromText s segment.text := by
  induction rest generalizing path buffer piece with
  | nil =>
      rw [List.append_nil] at hsub
      exact finish_fromText hpath (Or.inr ⟨piece, hsub, hpiece, hbuffer⟩) true
  | cons c rest ih =>
      rw [pathState]
      split
      · have hstop : piece.Sublist s := (List.sublist_append_left piece _).trans hsub
        have hnext : rest.Sublist s :=
          ((List.sublist_cons_self c rest).trans (List.sublist_append_right piece _)).trans hsub
        exact ih [] (finish_fromText hpath (Or.inr ⟨piece, hstop, hpiece, hbuffer⟩) false)
          (fun _ hd => absurd hd List.not_mem_nil) rfl hnext
      · rename_i hc
        refine ih (piece ++ [c]) hpath ?_ ?_ ?_
        · intro d hd
          rcases List.mem_append.mp hd with hd | hd
          · exact hpiece d hd
          · rw [List.mem_singleton.mp hd]
            exact Bool.eq_false_iff.mpr hc
        · show buffer.1 ++ encodeChar pathSet c = _
          rw [hbuffer, encode, encode, List.flatMap_append, List.flatMap_singleton]
        · rw [List.append_assoc, List.singleton_append]
          exact hsub

/-- A text without separators that encodes to no dot segment is one segment. -/
theorem pathState_one (path : List Segment) {s : List Char} (hs : ∀ c ∈ s, isSeparator c = false)
    (hsingle : isSingleDot (encode pathSet s) = false)
    (hdouble : isDoubleDot (encode pathSet s) = false) :
    ∃ segment : Segment, segment.text = encode pathSet s ∧
      pathState path Buffer.empty s = path ++ [segment] := by
  obtain ⟨buffer, htext, hrun⟩ := pathState_append path hs Buffer.empty []
  have htext' : buffer.1 = encode pathSet s := htext
  rw [List.append_nil] at hrun
  have hsegment : ∃ segment : Segment, buffer.1 = segment.text :=
    ⟨⟨buffer.1, buffer.2, by rw [htext', hsingle], by rw [htext', hdouble]⟩, rfl⟩
  obtain ⟨segment, hsegment⟩ := hsegment
  exact ⟨segment, hsegment.symm.trans htext',
    by rw [hrun, pathState, finish_of_text path hsegment]⟩

/-- The path that `locate` gives, as far as it comes from the text. -/
theorem locate_fromText (path : List Segment) (s : List Char) :
    ∀ segment ∈ (a.locate path s).path.drop path.length,
      FromText (s.takeWhile (!isPathEnd ·)) segment.text := by
  refine pathState_fromText _ [] ?_ (fun _ hd => absurd hd List.not_mem_nil) rfl
    (List.Sublist.refl _)
  intro segment hseg
  rw [List.drop_length] at hseg
  exact absurd hseg List.not_mem_nil

/-! ## A host parser -/

def isLetterOrDot (c : Char) : Bool := c.isLower || c == '.'

theorem isForbiddenDomain_of_letter {c : Char} (h : isLetterOrDot c = true) :
    isForbiddenDomain c = false := by
  rw [isLetterOrDot, Bool.or_eq_true, beq_iff_eq] at h
  rcases h with h | rfl
  · have hrange : 97 ≤ c.toNat ∧ c.toNat ≤ 122 := by
      obtain ⟨hlow, hhigh⟩ := Bool.and_eq_true_iff.mp h
      exact ⟨UInt32.le_iff_toNat_le.mp (of_decide_eq_true hlow),
        UInt32.le_iff_toNat_le.mp (of_decide_eq_true hhigh)⟩
    have hnot : ['#', '/', ':', '<', '>', '?', '@', '[', '\\', ']', '^', '|', '%'].all
        (fun d => !decide (97 ≤ d.toNat ∧ d.toNat ≤ 122)) = true := by decide
    have hmem : ['#', '/', ':', '<', '>', '?', '@', '[', '\\', ']', '^', '|', '%'].contains c =
        false := by
      rw [← Bool.not_eq_true, List.contains_iff_mem]
      intro hmem
      have hc := List.all_eq_true.mp hnot c hmem
      rw [decide_eq_true hrange] at hc
      exact absurd hc (by decide)
    rw [isForbiddenDomain, hmem, decide_eq_false (by omega), decide_eq_false (by omega)]
    rfl
  · decide

/-- The domains of lower-case letters, which name themselves. -/
def letterHosts : Hosts where
  Host := { s : List Char // s ≠ [] ∧ s.all isLetterOrDot = true }
  decEq := inferInstance
  parse s := if h : s ≠ [] ∧ s.all isLetterOrDot = true then some ⟨s, h⟩ else none
  serialize := Subtype.val
  parse_serialize host := dif_pos host.2
  serialize_text host := .name host.2.1 fun c hc =>
    isForbiddenDomain_of_letter (List.all_eq_true.mp host.2.2 c hc)

end FissionPlane.Lib.UrlParser
