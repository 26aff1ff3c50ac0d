/-
# FissionPlane.Lib.FetchHeaders -- the Headers object of the Fetch standard

Header names are case-insensitive, so the values of a `Headers` object are looked up by the
lower-case name; the order of different names is not observable (iteration sorts them). Setting or
appending throws when the name is not a token, or when the value, stripped of HTTP whitespace at
both ends, is not a byte string free of NUL, CR and LF.
-/
import Mathlib

namespace FissionPlane.Lib.FetchHeaders

/-! ## Names and values -/

def isTokenChar (c : Char) : Bool :=
  c.isAlphanum || "!#$%&'*+-.^_|~".toList.contains c || c.toNat == 0x60

/-- A header name is a non-empty token. -/
def isHeaderName (name : String) : Bool := !name.isEmpty && name.toList.all isTokenChar

/-- Header names are compared without case. -/
def lower (name : String) : String := String.ofList (name.toList.map Char.toLower)

@[simp]
theorem lower_lower (name : String) : lower (lower name) = lower name := by
  rw [lower, lower, String.toList_ofList, List.map_map]
  congr 1
  exact List.map_congr_left fun c _ => Char.toLower_toLower_eq_toLower c

def isHttpWhitespace (c : Char) : Bool := c == '\t' || c == '\n' || c == '\x0d' || c == ' '

def strip (cs : List Char) : List Char :=
  ((cs.dropWhile isHttpWhitespace).reverse.dropWhile isHttpWhitespace).reverse

/-- Normalization strips HTTP whitespace at both ends. -/
def normalize (value : String) : String := String.ofList (strip value.toList)

def isValueChar (c : Char) : Bool :=
  decide (c.toNat ≤ 0xff) && c != '\x00' && c != '\n' && c != '\x0d'

/-- A header value is a byte string without NUL, CR and LF. -/
def isHeaderValue (value : String) : Bool := value.toList.all isValueChar

/-! ## The object -/

/-- The values of each header, by lower-case name. -/
@[ext]
structure Headers where
  values : String → List String

namespace Headers

def empty : Headers := ⟨fun _ => []⟩

def put (h : Headers) (name : String) (vs : List String) : Headers :=
  ⟨fun n => if n = lower name then vs else h.values n⟩

def has (h : Headers) (name : String) : Bool := !(h.values (lower name)).isEmpty

/-- The combined value of a header. -/
def get (h : Headers) (name : String) : Option String :=
  match h.values (lower name) with
  | [] => none
  | v :: vs => some (", ".intercalate (v :: vs))

def delete (h : Headers) (name : String) : Headers := h.put name []

/-- `none` when the pair is refused with a TypeError. -/
def set (h : Headers) (name value : String) : Option Headers :=
  if isHeaderName name && isHeaderValue (normalize value) then
    some (h.put name [normalize value])
  else none

def append (h : Headers) (name value : String) : Option Headers :=
  if isHeaderName name && isHeaderValue (normalize value) then
    some (h.put name (h.values (lower name) ++ [normalize value]))
  else none

theorem put_values_self (h : Headers) (name : String) (vs : List String) :
    (h.put name vs).values (lower name) = vs := if_pos rfl

theorem put_values_ne (h : Headers) {name n : String} (vs : List String) (hne : n ≠ lower name) :
    (h.put name vs).values n = h.values n := if_neg hne

/-- Setting a header to what it already is changes nothing. -/
theorem put_eq_self {h : Headers} {name : String} {vs : List String}
    (heq : h.values (lower name) = vs) : h.put name vs = h := by
  ext1
  funext n
  by_cases hn : n = lower name
  · rw [hn, put_values_self, heq]
  · exact put_values_ne h vs hn

theorem has_eq_false_iff {h : Headers} {name : String} :
    h.has name = false ↔ h.values (lower name) = [] := by
  rw [has, Bool.not_eq_false', List.isEmpty_iff]

/-- Deleting a header that is not there changes nothing. -/
theorem delete_eq_self {h : Headers} {name : String} (hno : h.has name = false) :
    h.delete name = h := put_eq_self (has_eq_false_iff.mp hno)

/-- Deleting several headers, given by their lower-case names. -/
theorem foldl_delete_values {names : List String} (hlower : ∀ n ∈ names, lower n = n)
    (h : Headers) (n : String) :
    (names.foldl delete h).values n = if n ∈ names then [] else h.values n := by
  induction names generalizing h with
  | nil => simp
  | cons name names ih =>
      have hname : lower name = name := hlower name List.mem_cons_self
      rw [List.foldl_cons, ih (fun m hm => hlower m (List.mem_cons_of_mem name hm))]
      by_cases hn : n = name
      · have hdel : (h.delete name).values n = [] := if_pos (hn.trans hname.symm)
        rw [hdel, ite_self, if_pos (hn ▸ List.mem_cons_self)]
      · have hdel : (h.delete name).values n = h.values n :=
          put_values_ne h [] (by rw [hname]; exact hn)
        simp only [hdel, List.mem_cons, hn, false_or]

theorem set_eq_some_iff {h h' : Headers} {name value : String} :
    h.set name value = some h' ↔
      isHeaderName name = true ∧ isHeaderValue (normalize value) = true ∧
        h' = h.put name [normalize value] := by
  rw [set]
  split
  · next hok =>
      obtain ⟨hn, hv⟩ := Bool.and_eq_true_iff.mp hok
      exact ⟨fun heq => ⟨hn, hv, (Option.some.inj heq).symm⟩, fun hall => by rw [hall.2.2]⟩
  · next hno =>
      refine ⟨fun heq => (by cases heq), fun hall => ?_⟩
      exact absurd (Bool.and_eq_true_iff.mpr ⟨hall.1, hall.2.1⟩) hno

end Headers

/-! ## Valid values stay valid -/

theorem mem_strip {c : Char} {cs : List Char} (h : c ∈ strip cs) : c ∈ cs := by
  have hrev := List.mem_reverse.mp h
  have hback := List.mem_reverse.mp ((List.dropWhile_sublist _).subset hrev)
  exact (List.dropWhile_sublist _).subset hback

theorem dropWhile_eq_self {p : Char → Bool} {cs : List Char}
    (h : ∀ c ∈ cs.head?, p c = false) : cs.dropWhile p = cs := by
  cases cs with
  | nil => rfl
  | cons c cs => exact List.dropWhile_cons_of_neg (by rw [h c rfl]; decide)

/-- There is nothing to strip where neither end is white space. -/
theorem strip_eq_self {cs : List Char} (hhead : ∀ c ∈ cs.head?, isHttpWhitespace c = false)
    (hlast : ∀ c ∈ cs.getLast?, isHttpWhitespace c = false) : strip cs = cs := by
  rw [strip, dropWhile_eq_self hhead, dropWhile_eq_self, List.reverse_reverse]
  rw [List.head?_reverse]
  exact hlast

theorem isHeaderValue_normalize {value : String} (h : isHeaderValue value = true) :
    isHeaderValue (normalize value) = true := by
  rw [isHeaderValue, normalize, String.toList_ofList, List.all_eq_true]
  intro c hc
  exact List.all_eq_true.mp h c (mem_strip hc)

theorem isHeaderValue_append {v w : String} (hv : isHeaderValue v = true)
    (hw : isHeaderValue w = true) : isHeaderValue (v ++ w) = true := by
  rw [isHeaderValue, String.toList_append, List.all_append, Bool.and_eq_true_iff]
  exact ⟨hv, hw⟩

end FissionPlane.Lib.FetchHeaders
