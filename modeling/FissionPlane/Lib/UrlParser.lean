/-
# FissionPlane.Lib.UrlParser -- URLs with a host, after the URL standard

The URLs of the special schemes other than `file`: those a client can send a request to. A `Url`
holds what its parser can produce and nothing else, so each part is already percent-encoded, no
path segment is a dot segment, the path is never empty and the port is never the default one.

What a name or an address of a host means is a matter of its own (IDNA, the spellings of an IPv4
address) and a parameter here: `Hosts` is a host parser whose serializations parse back and are
what the standard lets a host look like.

Parsing removes white space, cuts the text at its delimiters and runs the standard's path state
over what lies between the host and the query.
-/
import FissionPlane.Lib.PercentEncoding
import Mathlib.Data.List.DropRight
import Mathlib.Data.List.TakeWhile

namespace FissionPlane.Lib.UrlParser

open Json (hexDigit?)
open PercentEncoding

/-! ## Schemes -/

/-- The special schemes that name a host. -/
inductive Scheme where
  | ftp
  | http
  | https
  | ws
  | wss
  deriving DecidableEq, Repr

namespace Scheme

def name : Scheme → List Char
  | ftp => ['f', 't', 'p']
  | http => ['h', 't', 't', 'p']
  | https => ['h', 't', 't', 'p', 's']
  | ws => ['w', 's']
  | wss => ['w', 's', 's']

def defaultPort : Scheme → UInt16
  | ftp => 21
  | http | ws => 80
  | https | wss => 443

/-- The scheme of a name; the schemes of other URLs have none here. -/
def ofName? (s : List Char) : Option Scheme := [ftp, http, https, ws, wss].find? (·.name = s)

theorem ofName?_name (scheme : Scheme) : ofName? scheme.name = some scheme := by
  cases scheme <;> rfl

theorem name_visible (scheme : Scheme) : ∀ c ∈ scheme.name, 0x20 < c.toNat := by
  have hall : scheme.name.all (fun c => decide (0x20 < c.toNat)) = true := by cases scheme <;> rfl
  exact fun c hc => of_decide_eq_true (List.all_eq_true.mp hall c hc)

end Scheme

/-! ## Characters -/

/-- What the parser strips at both ends. -/
def isC0ControlOrSpace (c : Char) : Bool := decide (c.toNat ≤ 0x20)

/-- What the parser removes wherever it stands. -/
def isTabOrNewline (c : Char) : Bool := c == '\t' || c == '\n' || c == '\x0d'

/-- What ends a path segment of a special URL. -/
def isSeparator (c : Char) : Bool := c == '/' || c == '\\'

/-- What ends a path. -/
def isPathEnd (c : Char) : Bool := c == '?' || c == '#'

/-- What ends an authority. -/
def isAuthorityEnd (c : Char) : Bool := isSeparator c || isPathEnd c

def isSchemeChar (c : Char) : Bool := c.isAlphanum || c == '+' || c == '-' || c == '.'

theorem isTabOrNewline_of_visible {c : Char} (h : 0x20 ≤ c.toNat) : isTabOrNewline c = false := by
  refine eq_false_of_ne_true fun htab => ?_
  simp only [isTabOrNewline, Bool.or_eq_true, beq_iff_eq] at htab
  rcases htab with (rfl | rfl) | rfl
  · exact absurd h (by decide)
  · exact absurd h (by decide)
  · exact absurd h (by decide)

/-! ## Percent-encode sets -/

/-- The fragment percent-encode set: space, quotation mark, `<`, `>` and the grave accent. -/
def fragmentSet : EncodeSet :=
  .adding [' ', Char.ofNat 0x22, '<', '>', Char.ofNat 0x60] (by decide)

/-- The query percent-encode set of special URLs, which holds the apostrophe too. -/
def querySet : EncodeSet :=
  .adding [' ', Char.ofNat 0x22, '#', '<', '>', Char.ofNat 0x27] (by decide)

/-- The path percent-encode set. -/
def pathSet : EncodeSet :=
  .adding [' ', Char.ofNat 0x22, '#', '<', '>', '?', '^', Char.ofNat 0x60, Char.ofNat 0x7B,
    Char.ofNat 0x7D] (by decide)

/-- The userinfo percent-encode set: the path's and the delimiters of an authority. -/
def userinfoSet : EncodeSet :=
  .adding [' ', Char.ofNat 0x22, '#', '<', '>', '?', '^', Char.ofNat 0x60, Char.ofNat 0x7B,
    Char.ofNat 0x7D, '/', ':', ';', '=', '@', '[', '\\', ']', '|'] (by decide)

/-! ## Segments -/

/-- The spellings of a single-dot segment. -/
def singleDots : List (List Char) := [['.'], ['%', '2', 'e'], ['%', '2', 'E']]

/-- The spellings of a double-dot segment. -/
def doubleDots : List (List Char) :=
  [['.', '.'], ['.', '%', '2', 'e'], ['.', '%', '2', 'E'], ['%', '2', 'e', '.'],
    ['%', '2', 'E', '.'], ['%', '2', 'e', '%', '2', 'e'], ['%', '2', 'e', '%', '2', 'E'],
    ['%', '2', 'E', '%', '2', 'e'], ['%', '2', 'E', '%', '2', 'E']]

def isSingleDot (s : List Char) : Bool := singleDots.contains s

def isDoubleDot (s : List Char) : Bool := doubleDots.contains s

/-- Whichever way a single dot is written, it decodes to a dot. -/
theorem decode_of_isSingleDot {s : List Char} (h : isSingleDot s = true) :
    decode s = Text.bytes ['.'] := by
  have hall : ∀ t ∈ singleDots, decode t = Text.bytes ['.'] := by decide
  exact hall s (List.contains_iff_mem.mp h)

theorem decode_of_isDoubleDot {s : List Char} (h : isDoubleDot s = true) :
    decode s = Text.bytes ['.', '.'] := by
  have hall : ∀ t ∈ doubleDots, decode t = Text.bytes ['.', '.'] := by decide
  exact hall s (List.contains_iff_mem.mp h)

/-- A text whose first character is a digit is no dot segment. -/
theorem not_isDot_of_head {s : List Char} (h : s.head?.any fun c => (hexDigit? c).isSome) :
    isSingleDot s = false ∧ isDoubleDot s = false := by
  have hsingle : ∀ t ∈ singleDots, t.head?.any (fun c => (hexDigit? c).isSome) = false := by
    decide
  have hdouble : ∀ t ∈ doubleDots, t.head?.any (fun c => (hexDigit? c).isSome) = false := by
    decide
  constructor
  · refine eq_false_of_ne_true fun hdot => ?_
    rw [hsingle s (List.contains_iff_mem.mp hdot)] at h
    exact absurd h (by decide)
  · refine eq_false_of_ne_true fun hdot => ?_
    rw [hdouble s (List.contains_iff_mem.mp hdot)] at h
    exact absurd h (by decide)

/-- What may stand between two separators of a parsed path. -/
def IsPiece (s : List Char) : Prop := Clean pathSet s ∧ ∀ c ∈ s, isSeparator c = false

/-- The buffer of the path state. -/
abbrev Buffer := { s : List Char // IsPiece s }

/-- A segment of a parsed path: the dot segments are gone. -/
structure Segment where
  text : List Char
  piece : IsPiece text
  notSingle : isSingleDot text = false
  notDouble : isDoubleDot text = false
  deriving DecidableEq

namespace Buffer

def empty : Buffer :=
  ⟨[], fun _ h => absurd h List.not_mem_nil, fun _ h => absurd h List.not_mem_nil⟩

theorem encodeChar_notSeparator {c : Char} (h : isSeparator c = false) :
    ∀ d ∈ encodeChar pathSet c, isSeparator d = false := by
  intro d hd
  rw [encodeChar] at hd
  split at hd
  · obtain ⟨b, _, hb⟩ := List.mem_flatMap.mp hd
    -- a separator is not among the characters of a triplet
    refine eq_false_of_ne_true fun hsep => ?_
    simp only [isSeparator, Bool.or_eq_true, beq_iff_eq] at hsep
    simp only [encodeByte, List.mem_cons, List.not_mem_nil, or_false] at hb
    have hb' := b.toNat_lt
    have hhex : hexDigit? d = none := by rcases hsep with rfl | rfl <;> rfl
    rcases hb with hb | hb | hb
    · rw [hb] at hsep
      rcases hsep with hsep | hsep <;> exact absurd hsep (by decide)
    · rw [hb, hexDigit?_hexDigit (by omega)] at hhex
      cases hhex
    · rw [hb, hexDigit?_hexDigit (by omega)] at hhex
      cases hhex
  · rw [List.mem_singleton.mp hd]
    exact h

/-- The buffer with one more code point in it. -/
def push (buffer : Buffer) (c : Char) (h : isSeparator c = false) : Buffer :=
  ⟨buffer.1 ++ encodeChar pathSet c, fun d hd => (List.mem_append.mp hd).elim (buffer.2.1 d)
    (encodeChar_clean c d), fun d hd => (List.mem_append.mp hd).elim (buffer.2.2 d)
    (encodeChar_notSeparator h d)⟩

end Buffer

namespace Segment

def empty : Segment := ⟨[], Buffer.empty.2, rfl, rfl⟩

/-- A segment written as it is. -/
def ofText (s : List Char) (hs : s.all (fun c => !pathSet.contains c && !isSeparator c) = true)
    (hsingle : isSingleDot s = false) (hdouble : isDoubleDot s = false) : Segment where
  text := s
  piece := by
    have hchar : ∀ c ∈ s, pathSet.contains c = false ∧ isSeparator c = false := fun c hc => by
      simpa using List.all_eq_true.mp hs c hc
    exact ⟨fun c hc => (hchar c hc).1, fun c hc => (hchar c hc).2⟩
  notSingle := hsingle
  notDouble := hdouble

end Segment

/-! ## The path state -/

/-- What becomes of the buffer at a separator, or, when `last`, at the end of the path. -/
def finish (path : List Segment) (buffer : Buffer) (last : Bool) : List Segment :=
  if hdouble : isDoubleDot buffer.1 = true then
    if last then path.dropLast ++ [Segment.empty] else path.dropLast
  else if hsingle : isSingleDot buffer.1 = true then
    if last then path ++ [Segment.empty] else path
  else
    path ++ [⟨buffer.1, buffer.2, Bool.eq_false_iff.mpr hsingle, Bool.eq_false_iff.mpr hdouble⟩]

/-- The path state over the text of a path. -/
def pathState (path : List Segment) (buffer : Buffer) : List Char → List Segment
  | [] => finish path buffer true
  | c :: rest =>
      if h : isSeparator c = true then pathState (finish path buffer false) Buffer.empty rest
      else pathState path (buffer.push c (Bool.eq_false_iff.mpr h)) rest

/-! ## Hosts -/

/-- The forbidden domain code points, which no name of a host and no IPv4 address holds. -/
def isForbiddenDomain (c : Char) : Bool :=
  decide (c.toNat ≤ 0x20) || decide (0x7E < c.toNat) ||
    ['#', '/', ':', '<', '>', '?', '@', '[', '\\', ']', '^', '|', '%'].contains c

/-- What the serialization of a host looks like. -/
inductive HostText : List Char → Prop
  | name {s : List Char} : s ≠ [] → (∀ c ∈ s, isForbiddenDomain c = false) → HostText s
  /-- An IPv6 address in brackets. -/
  | literal {s : List Char} : (∀ c ∈ s, (hexDigit? c).isSome ∨ c = ':') →
      HostText ('[' :: (s ++ [']']))

/-- The host parser, and the serializer of the hosts it gives. -/
structure Hosts where
  Host : Type
  decEq : DecidableEq Host
  parse : List Char → Option Host
  serialize : Host → List Char
  parse_serialize : ∀ host, parse (serialize host) = some host
  serialize_text : ∀ host, HostText (serialize host)

variable {H : Hosts}

instance : DecidableEq H.Host := H.decEq

/-! ## URLs -/

/-- What a URL has before its path. -/
@[ext]
structure Authority (H : Hosts) where
  scheme : Scheme
  username : Encoded userinfoSet
  password : Encoded userinfoSet
  host : H.Host
  port : Option UInt16
  port_ne : port ≠ some scheme.defaultPort
  deriving DecidableEq

structure Url (H : Hosts) extends Authority H where
  path : List Segment
  path_ne : path ≠ []
  query : Option (Encoded querySet)
  fragment : Option (Encoded fragmentSet)
  deriving DecidableEq

theorem Url.ext_authority {u v : Url H} (hauthority : u.toAuthority = v.toAuthority)
    (hpath : u.path = v.path) (hquery : u.query = v.query) (hfragment : u.fragment = v.fragment) :
    u = v := by
  cases u
  cases v
  subst hauthority hpath hquery hfragment
  rfl

/-! ## Serializing -/

def credentialsText (username password : List Char) : List Char :=
  if username = [] ∧ password = [] then []
  else username ++ (if password = [] then [] else ':' :: password) ++ ['@']

def portText : Option UInt16 → List Char
  | none => []
  | some port => ':' :: Nat.toDigits 10 port.toNat

/-- The authority without its scheme. -/
def Authority.siteText (a : Authority H) : List Char :=
  credentialsText a.username.1 a.password.1 ++ (H.serialize a.host ++ portText a.port)

def Authority.text (a : Authority H) : List Char :=
  a.scheme.name ++ ':' :: '/' :: '/' :: a.siteText

def pathText (path : List Segment) : List Char := path.flatMap fun segment => '/' :: segment.text

def queryText : Option (Encoded querySet) → List Char
  | none => []
  | some query => '?' :: query.1

def fragmentText : Option (Encoded fragmentSet) → List Char
  | none => []
  | some fragment => '#' :: fragment.1

/-- The URL serializer. -/
def Url.text (url : Url H) : List Char :=
  url.toAuthority.text ++ (pathText url.path ++ (queryText url.query ++ fragmentText url.fragment))

/-! ## Parsing -/

/-- Strip the end of a text and remove tabs and newlines. -/
def tidy (s : List Char) : List Char :=
  (s.rdropWhile isC0ControlOrSpace).filter fun c => !isTabOrNewline c

/-- What the parser does to its input first. -/
def clean (input : List Char) : List Char := tidy (input.dropWhile isC0ControlOrSpace)

/-- The scheme, in lower case, and what follows its colon. -/
def splitScheme (s : List Char) : Option (List Char × List Char) :=
  match s.takeWhile isSchemeChar, s.dropWhile isSchemeChar with
  | c :: name, ':' :: rest =>
      if c.isAlpha then some ((c :: name).map Char.toLower, rest) else none
  | _, _ => none

/-- The host ends at a colon outside of brackets. -/
def splitHost (inside : Bool) : List Char → List Char × List Char
  | [] => ([], [])
  | c :: rest =>
      if c = ':' ∧ inside = false then ([], c :: rest)
      else
        let cut := splitHost (if c = '[' then true else if c = ']' then false else inside) rest
        (c :: cut.1, cut.2)

/-- The port, given what follows the host; the default port of the scheme is dropped. -/
def parsePort (scheme : Scheme) :
    List Char → Option { port : Option UInt16 // port ≠ some scheme.defaultPort }
  | [] => some ⟨none, Option.some_ne_none _ ∘ Eq.symm⟩
  | _ :: digits =>
      if digits.all Char.isDigit then
        if digits = [] then some ⟨none, Option.some_ne_none _ ∘ Eq.symm⟩
        else if 65535 < Nat.ofDigitChars 10 digits 0 then none
        else if h : UInt16.ofNat (Nat.ofDigitChars 10 digits 0) = scheme.defaultPort then
          some ⟨none, Option.some_ne_none _ ∘ Eq.symm⟩
        else some ⟨some (UInt16.ofNat (Nat.ofDigitChars 10 digits 0)), h ∘ Option.some.inj⟩
      else none

/-- The text of an authority: credentials end at its last `@`. -/
def parseAuthority (H : Hosts) (scheme : Scheme) (s : List Char) : Option (Authority H) := do
  let credentials := (s.rdropWhile (· != '@')).dropLast
  let site := splitHost false (s.rtakeWhile (· != '@'))
  if site.1 = [] then none else
    let host ← H.parse site.1
    let port ← parsePort scheme site.2
    some {
      scheme
      username := encoded userinfoSet (credentials.takeWhile (· != ':'))
      password := encoded userinfoSet ((credentials.dropWhile (· != ':')).drop 1)
      host
      port := port.1
      port_ne := port.2 }

def parseQuery (s : List Char) : Option (Encoded querySet) :=
  match s.dropWhile (!isPathEnd ·) with
  | '?' :: rest => some (encoded querySet (rest.takeWhile (· != '#')))
  | _ => none

def parseFragment (s : List Char) : Option (Encoded fragmentSet) :=
  match s.dropWhile (· != '#') with
  | _ :: rest => some (encoded fragmentSet rest)
  | [] => none

theorem finish_ne_nil (path : List Segment) (buffer : Buffer) : finish path buffer true ≠ [] := by
  unfold finish
  split
  · exact List.append_ne_nil_of_right_ne_nil _ (List.cons_ne_nil _ _)
  · split
    · exact List.append_ne_nil_of_right_ne_nil _ (List.cons_ne_nil _ _)
    · exact List.append_ne_nil_of_right_ne_nil _ (List.cons_ne_nil _ _)

theorem pathState_ne_nil (path : List Segment) (buffer : Buffer) (s : List Char) :
    pathState path buffer s ≠ [] := by
  induction s generalizing path buffer with
  | nil => exact finish_ne_nil path buffer
  | cons c rest ih =>
      rw [pathState]
      split
      · exact ih _ _
      · exact ih _ _

/-- The URL that the path, query and fragment states make of the rest of the text. -/
def Authority.locate (a : Authority H) (path : List Segment) (s : List Char) : Url H where
  toAuthority := a
  path := pathState path Buffer.empty (s.takeWhile (!isPathEnd ·))
  path_ne := pathState_ne_nil _ _ _
  query := parseQuery s
  fragment := parseFragment s

/-- The path start state consumes a separator. -/
def dropSeparator : List Char → List Char
  | [] => []
  | c :: rest => if isSeparator c then rest else c :: rest

/-- What follows the colon of a special scheme. -/
def parseAbsolute (H : Hosts) (scheme : Scheme) (s : List Char) : Option (Url H) :=
  let site := s.dropWhile isSeparator
  (parseAuthority H scheme (site.takeWhile (!isAuthorityEnd ·))).map fun a =>
    a.locate [] (dropSeparator (site.dropWhile (!isAuthorityEnd ·)))

/-- `Url::parse`, for the URLs that can be stated here. -/
def parse (H : Hosts) (input : List Char) : Option (Url H) := do
  let (name, rest) ← splitScheme (clean input)
  let scheme ← Scheme.ofName? name
  parseAbsolute H scheme rest

/-- The relative state. -/
def Url.relative (base : Url H) : List Char → Option (Url H)
  | [] => some { base with fragment := none }
  | c :: rest =>
      if isSeparator c then
        if rest.head?.any isSeparator then parseAbsolute H base.scheme rest
        else some (base.toAuthority.locate [] rest)
      else if c = '?' then
        some { base with query := parseQuery (c :: rest), fragment := parseFragment rest }
      else if c = '#' then some { base with fragment := parseFragment (c :: rest) }
      else some (base.toAuthority.locate base.path.dropLast (c :: rest))

/-- `Url::join`: the input is parsed against a base. -/
def Url.join (base : Url H) (input : List Char) : Option (Url H) :=
  match splitScheme (clean input) with
  | none => base.relative (clean input)
  | some (name, rest) => do
      let scheme ← Scheme.ofName? name
      if scheme = base.scheme ∧ rest.take 2 ≠ ['/', '/'] then base.relative rest
      else parseAbsolute H scheme rest

/-- `Url::set_scheme`: a port that is the new scheme's default is dropped. -/
def Url.setScheme (url : Url H) (scheme : Scheme) : Url H :=
  { url with
    scheme
    port := if url.port = some scheme.defaultPort then none else url.port
    port_ne := by
      split
      · exact Option.some_ne_none _ ∘ Eq.symm
      · assumption }

end FissionPlane.Lib.UrlParser
