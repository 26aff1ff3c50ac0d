/-
# FissionPlane.Lib.RegexSource -- the source of a pattern

`new RegExp(source, 'u')` reads its source as a sequence of terms. The terms read here are the
anchors, single characters, `.`, classes of single characters and escaped syntax characters, with
the quantifiers `*`, `+` and `?`. A source with anything else in it (a group, an alternative, a
counted quantifier, a range or an escape in a class) is not read.

A quantifier belongs to the term before it, so that a source cannot be cut just anywhere. `Denotes`
is what a part of a source contributes wherever no quantifier follows it; its rules put the
language of a whole pattern together from those of its parts.
-/
import FissionPlane.Lib.Regex
import FissionPlane.Lib.Text
import Mathlib.Computability.Language

namespace FissionPlane.Lib.RegexSource

open Regex

/-! ## Terms -/

/-- ECMAScript `SyntaxCharacter`. -/
def syntaxCharacters : List Char :=
  ['^', '$', '\\', '.', '*', '+', '?', '(', ')', '[', ']', '\x7b', '\x7d', '|']

def isSyntaxCharacter (c : Char) : Bool := syntaxCharacters.contains c

/-- The characters of a class, up to its `]`. -/
def readClass : List Char → Option (List Char × List Char)
  | [] => none
  | c :: s =>
      if c = ']' then some ([], s)
      else if c = '\\' ∨ c = '-' then none
      else (readClass s).map fun out => (c :: out.1, out.2)

/-- What follows a `[`: a class or the complement of one. -/
def readSet : List Char → Option (Regex Char × List Char)
  | [] => none
  | c :: s =>
      if c = '^' then (readClass s).map fun out => (chr fun d => !out.1.contains d, out.2)
      else (readClass (c :: s)).map fun out => (chr out.1.contains, out.2)

/-- What follows a backslash. -/
def readEscape : List Char → Option (Regex Char × List Char)
  | [] => none
  | c :: s => if isSyntaxCharacter c || c == '/' then some (chr (· == c), s) else none

/-- An atom, and what follows it. -/
def readAtom : List Char → Option (Regex Char × List Char)
  | [] => none
  | c :: s =>
      if c = '.' then some (chr fun d => !Text.isLineTerminator d, s)
      else if c = '\\' then readEscape s
      else if c = '[' then readSet s
      else if isSyntaxCharacter c then none
      else some (chr (· == c), s)

/-- A quantifier may be marked as lazy, which only orders the alternatives. -/
def dropLazy : List Char → List Char
  | [] => []
  | c :: s => if c = '?' then s else c :: s

/-- The atom `r` with the quantifier that follows it. -/
def readQuantifier (r : Regex Char) : List Char → Regex Char × List Char
  | [] => (r, [])
  | c :: s =>
      if c = '*' then (star r, dropLazy s)
      else if c = '+' then (plus r, dropLazy s)
      else if c = '?' then (opt r, dropLazy s)
      else (r, c :: s)

/-- A term; the anchors take no quantifier. -/
def readTerm : List Char → Option (Regex Char × List Char)
  | [] => none
  | c :: s =>
      if c = '^' then some (start, s)
      else if c = '$' then some (finish, s)
      else (readAtom (c :: s)).map fun out => readQuantifier out.1 out.2

def readTerms : Nat → List Char → Option (List (Regex Char))
  | _, [] => some []
  | 0, _ :: _ => none
  | fuel + 1, c :: s => do
      let out ← readTerm (c :: s)
      let rs ← readTerms fuel out.2
      some (out.1 :: rs)

/-- The terms of a source. -/
def terms (source : List Char) : Option (List (Regex Char)) := readTerms source.length source

/-- One term after the other. -/
def seqAll {α : Type} (rs : List (Regex α)) : Regex α := rs.foldr seq empty

/-- `new RegExp(source, 'u')`. -/
def compile (source : List Char) : Option (Regex Char) := (terms source).map seqAll

/-! ## Every term consumes -/

theorem readClass_length {s rest cs : List Char} (h : readClass s = some (cs, rest)) :
    rest.length < s.length := by
  induction s generalizing cs with
  | nil => cases h
  | cons c s ih =>
      rw [readClass] at h
      split_ifs at h
      · cases h
        exact Nat.lt_succ_self _
      · obtain ⟨⟨ds, rest'⟩, hs, heq⟩ := Option.map_eq_some_iff.mp h
        cases heq
        exact Nat.lt_succ_of_lt (ih hs)

theorem readSet_length {s rest : List Char} {r : Regex Char} (h : readSet s = some (r, rest)) :
    rest.length < s.length := by
  cases s with
  | nil => cases h
  | cons c s =>
      rw [readSet] at h
      split_ifs at h
      all_goals
        obtain ⟨⟨cs, rest'⟩, hclass, heq⟩ := Option.map_eq_some_iff.mp h
        cases heq
        have hlength := readClass_length hclass
        simp only [List.length_cons] at hlength ⊢
        omega

theorem readEscape_length {s rest : List Char} {r : Regex Char}
    (h : readEscape s = some (r, rest)) : rest.length < s.length := by
  cases s with
  | nil => cases h
  | cons c s =>
      rw [readEscape] at h
      split_ifs at h
      cases h
      exact Nat.lt_succ_self _

theorem readAtom_length {s rest : List Char} {r : Regex Char} (h : readAtom s = some (r, rest)) :
    rest.length < s.length := by
  cases s with
  | nil => cases h
  | cons c s =>
      rw [readAtom] at h
      split_ifs at h
      · cases h
        exact Nat.lt_succ_self _
      · exact Nat.lt_succ_of_lt (readEscape_length h)
      · exact Nat.lt_succ_of_lt (readSet_length h)
      · cases h
        exact Nat.lt_succ_self _

theorem dropLazy_length (s : List Char) : (dropLazy s).length ≤ s.length := by
  cases s with
  | nil => exact Nat.le_refl _
  | cons c s =>
      rw [dropLazy]
      split
      · exact Nat.le_succ _
      · exact Nat.le_refl _

theorem readQuantifier_length (r : Regex Char) (s : List Char) :
    (readQuantifier r s).2.length ≤ s.length := by
  cases s with
  | nil => exact Nat.le_refl _
  | cons c s =>
      have hdrop := dropLazy_length s
      rw [readQuantifier]
      split_ifs
      all_goals simp only [List.length_cons]
      all_goals omega

theorem readTerm_length {s rest : List Char} {r : Regex Char} (h : readTerm s = some (r, rest)) :
    rest.length < s.length := by
  cases s with
  | nil => cases h
  | cons c s =>
      rw [readTerm] at h
      split_ifs at h
      · cases h
        exact Nat.lt_succ_self _
      · cases h
        exact Nat.lt_succ_self _
      · obtain ⟨⟨q, rest'⟩, hatom, heq⟩ := Option.map_eq_some_iff.mp h
        have hquantifier := readQuantifier_length q rest'
        dsimp only at heq
        rw [heq] at hquantifier
        exact Nat.lt_of_le_of_lt hquantifier (readAtom_length hatom)

/-- Fuel for every character is enough. -/
theorem readTerms_fuel {s : List Char} {fuel fuel' : Nat} (h : s.length ≤ fuel)
    (h' : s.length ≤ fuel') : readTerms fuel s = readTerms fuel' s := by
  induction fuel generalizing s fuel' with
  | zero =>
      rw [List.length_eq_zero_iff.mp (Nat.le_zero.mp h), readTerms, readTerms]
  | succ fuel ih =>
      cases s with
      | nil => rw [readTerms, readTerms]
      | cons c s =>
          cases fuel' with
          | zero => cases h'
          | succ fuel' =>
              rw [readTerms, readTerms]
              cases hterm : readTerm (c :: s) with
              | none => rfl
              | some out =>
                  obtain ⟨r, rest⟩ := out
                  have hlength := readTerm_length hterm
                  rw [List.length_cons] at h h' hlength
                  have hrest : readTerms fuel rest = readTerms fuel' rest :=
                    ih (by omega) (by omega)
                  rw [Option.bind_eq_bind, Option.bind_some, Option.bind_some, hrest]

/-- The terms of a source are its first term and the terms of the rest. -/
theorem terms_of_readTerm {s rest : List Char} {r : Regex Char}
    (h : readTerm s = some (r, rest)) : terms s = (terms rest).map (r :: ·) := by
  have hlength := readTerm_length h
  cases s with
  | nil => cases h
  | cons c s =>
      rw [List.length_cons] at hlength
      have hfuel : readTerms s.length rest = terms rest :=
        readTerms_fuel (by omega) (Nat.le_refl _)
      rw [terms, List.length_cons, readTerms, h, Option.bind_eq_bind, Option.bind_some, hfuel]
      cases terms rest with
      | none => rfl
      | some rs => rfl

/-! ## Parts of a source -/

/-- No quantifier stands first. -/
def NoQuantifier (s : List Char) : Prop := ∀ c ∈ s.head?, c ≠ '*' ∧ c ≠ '+' ∧ c ≠ '?'

theorem NoQuantifier.append {s t : List Char} (hs : NoQuantifier s) (ht : NoQuantifier t) :
    NoQuantifier (s ++ t) := by
  cases s with
  | nil => exact ht
  | cons c s => exact hs

theorem dropLazy_eq {s : List Char} (h : NoQuantifier s) : dropLazy s = s := by
  cases s with
  | nil => rfl
  | cons c s => exact if_neg (h c rfl).2.2

theorem readQuantifier_eq {s : List Char} (h : NoQuantifier s) (r : Regex Char) :
    readQuantifier r s = (r, s) := by
  cases s with
  | nil => rfl
  | cons c s =>
      obtain ⟨hstar, hplus, hopt⟩ := h c rfl
      rw [readQuantifier, if_neg hstar, if_neg hplus, if_neg hopt]

/-- The terms read from a part of a source that no quantifier follows. -/
def Reads (s : List Char) (rs : List (Regex Char)) : Prop :=
  ∀ rest, NoQuantifier rest → terms (s ++ rest) = (terms rest).map (rs ++ ·)

theorem Reads.append {s t : List Char} {rs qs : List (Regex Char)} (hs : Reads s rs)
    (ht : Reads t qs) (hquantifier : NoQuantifier t) : Reads (s ++ t) (rs ++ qs) := by
  intro rest hrest
  rw [List.append_assoc, hs _ (hquantifier.append hrest), ht _ hrest, Option.map_map]
  congr 1
  funext ps
  exact (List.append_assoc rs qs ps).symm

/-- A part read as one term. -/
theorem reads_of_readTerm {s : List Char} {r : Regex Char}
    (h : ∀ rest, NoQuantifier rest → readTerm (s ++ rest) = some (r, rest)) : Reads s [r] :=
  fun rest hrest => terms_of_readTerm (h rest hrest)

/-! ## Languages -/

/-- The terms take exactly the words of `L`, whatever follows them. -/
def Takes {α : Type} (rs : List (Regex α)) (L : Language α) : Prop :=
  ∀ n s t, Reaches n (seqAll rs) s t ↔ ∃ u ∈ L, s = u ++ t

theorem reaches_seqAll_append {α : Type} {n : Nat} {rs qs : List (Regex α)} {s t : List α} :
    Reaches n (seqAll (rs ++ qs)) s t ↔
      ∃ m, Reaches n (seqAll rs) s m ∧ Reaches n (seqAll qs) m t := by
  induction rs generalizing s with
  | nil =>
      constructor
      · exact fun h => ⟨s, rfl, h⟩
      · rintro ⟨m, rfl, h⟩
        exact h
  | cons r rs ih =>
      constructor
      · rintro ⟨m, hr, hrest⟩
        obtain ⟨k, hrs, hqs⟩ := ih.mp hrest
        exact ⟨k, ⟨m, hr, hrs⟩, hqs⟩
      · rintro ⟨k, ⟨m, hr, hrs⟩, hqs⟩
        exact ⟨m, hr, ih.mpr ⟨k, hrs, hqs⟩⟩

theorem Takes.append {α : Type} {rs qs : List (Regex α)} {L M : Language α} (hrs : Takes rs L)
    (hqs : Takes qs M) : Takes (rs ++ qs) (L * M) := by
  intro n s t
  rw [reaches_seqAll_append]
  constructor
  · rintro ⟨m, hs, hm⟩
    obtain ⟨u, hu, rfl⟩ := (hrs n s m).mp hs
    obtain ⟨v, hv, rfl⟩ := (hqs n m t).mp hm
    exact ⟨u ++ v, Language.append_mem_mul hu hv, (List.append_assoc u v t).symm⟩
  · rintro ⟨w, hw, rfl⟩
    obtain ⟨u, hu, v, hv, rfl⟩ := Language.mem_mul.mp hw
    refine ⟨v ++ t, (hrs n _ _).mpr ⟨u, hu, List.append_assoc u v t⟩, ?_⟩
    exact (hqs n _ _).mpr ⟨v, hv, rfl⟩

/-- One term takes what its pattern takes. -/
theorem takes_singleton {α : Type} {r : Regex α} {L : Language α}
    (h : ∀ n s t, Reaches n r s t ↔ ∃ u ∈ L, s = u ++ t) : Takes [r] L := by
  intro n s t
  rw [← h n s t]
  constructor
  · rintro ⟨m, hm, rfl⟩
    exact hm
  · exact fun hs => ⟨t, hs, rfl⟩

/-- What a part of a source means wherever no quantifier follows it. -/
def Denotes (source : List Char) (L : Language Char) : Prop :=
  ∃ rs, Reads source rs ∧ Takes rs L

theorem denotes_nil : Denotes [] 1 := by
  refine ⟨[], fun rest _ => ?_, fun n s t => ?_⟩
  · rw [List.nil_append]
    exact Option.map_id'.symm
  · constructor
    · rintro rfl
      exact ⟨[], Language.nil_mem_one, rfl⟩
    · rintro ⟨u, hu, rfl⟩
      rw [(Language.mem_one u).mp hu]
      rfl

theorem Denotes.append {s t : List Char} {L M : Language Char} (hs : Denotes s L)
    (ht : Denotes t M) (hquantifier : NoQuantifier t) : Denotes (s ++ t) (L * M) := by
  obtain ⟨rs, hreads, htakes⟩ := hs
  obtain ⟨qs, hreads', htakes'⟩ := ht
  exact ⟨rs ++ qs, hreads.append hreads' hquantifier, htakes.append htakes'⟩

/-- **A pattern that is anchored at both ends accepts the language of what stands between.** -/
theorem Denotes.compile_anchored {source : List Char} {L : Language Char}
    (h : Denotes source L) :
    ∃ r, compile ('^' :: (source ++ ['$'])) = some r ∧ ∀ t, r.test t = true ↔ t ∈ L := by
  obtain ⟨rs, hreads, htakes⟩ := h
  have hdollar : NoQuantifier ['$'] := by
    intro c hc
    obtain rfl := Option.some.inj hc
    decide
  have hterms : terms ('^' :: (source ++ ['$'])) = some (start :: (rs ++ [finish])) := by
    rw [terms_of_readTerm (s := '^' :: (source ++ ['$'])) rfl, hreads _ hdollar,
      terms_of_readTerm (s := ['$']) rfl]
    rfl
  refine ⟨seqAll (start :: (rs ++ [finish])), by rw [compile, hterms, Option.map_some], ?_⟩
  intro t
  show test (seq start (seqAll (rs ++ [finish]))) t = true ↔ _
  rw [test_start_iff]
  constructor
  · rintro ⟨rest, hreach⟩
    obtain ⟨m, hrs, m', ⟨rfl, rfl⟩, rfl⟩ := reaches_seqAll_append.mp hreach
    obtain ⟨u, hu, rfl⟩ := (htakes _ _ _).mp hrs
    rwa [List.append_nil]
  · intro ht
    refine ⟨[], reaches_seqAll_append.mpr ⟨[], ?_, [], ⟨rfl, rfl⟩, rfl⟩⟩
    exact (htakes _ _ _).mpr ⟨t, ht, (List.append_nil t).symm⟩

/-! ## Rules for the terms -/

/-- A text in which every syntax character is escaped. -/
def escape (s : List Char) : List Char :=
  s.flatMap fun c => if isSyntaxCharacter c then ['\\', c] else [c]

/-- A character that is none of the syntax characters is none of those the reader looks for. -/
theorem ne_of_not_special {c d : Char} (h : isSyntaxCharacter c = false)
    (hd : isSyntaxCharacter d = true) : c ≠ d := by
  rintro rfl
  rw [h] at hd
  exact Bool.false_ne_true hd

theorem escape_noQuantifier (s : List Char) : NoQuantifier (escape s) := by
  cases s with
  | nil =>
      intro c hc
      cases hc
  | cons c s =>
      intro d hd
      rw [escape, List.flatMap_cons] at hd
      by_cases h : isSyntaxCharacter c = true
      · rw [if_pos h] at hd
        obtain rfl := Option.some.inj hd
        decide
      · rw [if_neg h] at hd
        obtain rfl := Option.some.inj hd
        have hfalse := Bool.eq_false_iff.mpr h
        exact ⟨ne_of_not_special hfalse (by decide), ne_of_not_special hfalse (by decide),
          ne_of_not_special hfalse (by decide)⟩

/-- An atom of one escaped character. -/
theorem readAtom_escape (c : Char) (rest : List Char) :
    readAtom (escape [c] ++ rest) = some (chr (· == c), rest) := by
  rw [escape, List.flatMap_cons, List.flatMap_nil, List.append_nil]
  by_cases h : isSyntaxCharacter c = true
  · rw [if_pos h, List.cons_append, List.cons_append, List.nil_append, readAtom,
      if_neg (by decide), if_pos rfl, readEscape, h, Bool.true_or, if_pos rfl]
  · have hfalse := Bool.eq_false_iff.mpr h
    rw [if_neg h, List.cons_append, List.nil_append, readAtom,
      if_neg (ne_of_not_special hfalse (by decide)),
      if_neg (ne_of_not_special hfalse (by decide)),
      if_neg (ne_of_not_special hfalse (by decide)), hfalse]
    rfl

/-- An escaped character is no anchor. -/
theorem readTerm_escape (c : Char) (rest : List Char) :
    readTerm (escape [c] ++ rest) = some (readQuantifier (chr (· == c)) rest) := by
  have hatom := readAtom_escape c rest
  cases hs : escape [c] ++ rest with
  | nil => rw [hs] at hatom; cases hatom
  | cons d s =>
      rw [hs] at hatom
      have hne : d ≠ '^' ∧ d ≠ '$' := by
        constructor
        all_goals
          rintro rfl
          cases hatom
      rw [readTerm, if_neg hne.1, if_neg hne.2, hatom]
      rfl

theorem takes_chr {α : Type} [BEq α] [LawfulBEq α] (c : α) : Takes [chr (· == c)] {[c]} := by
  apply takes_singleton
  intro n s t
  constructor
  · rintro ⟨d, hd, rfl⟩
    exact ⟨[c], rfl, by rw [beq_iff_eq.mp hd]; rfl⟩
  · rintro ⟨u, rfl, rfl⟩
    exact ⟨c, beq_self_eq_true c, rfl⟩

theorem denotes_escape_singleton (c : Char) : Denotes (escape [c]) {[c]} := by
  refine ⟨[chr (· == c)], reads_of_readTerm fun rest hrest => ?_, takes_chr c⟩
  rw [readTerm_escape, readQuantifier_eq hrest]

/-- **An escaped text denotes itself.** -/
theorem denotes_escape (s : List Char) : Denotes (escape s) {s} := by
  induction s with
  | nil => exact denotes_nil
  | cons c s ih =>
      have hcons : escape (c :: s) = escape [c] ++ escape s := by
        rw [escape, escape, escape, ← List.flatMap_append, List.singleton_append]
      have hword : ({c :: s} : Language Char) = {[c]} * {s} := by
        ext u
        rw [Language.mem_mul]
        constructor
        · rintro rfl
          exact ⟨[c], rfl, s, rfl, rfl⟩
        · rintro ⟨v, rfl, w, rfl, rfl⟩
          rfl
      rw [hcons, hword]
      exact (denotes_escape_singleton c).append ih (escape_noQuantifier s)

/-- `c?` for one character. -/
theorem denotes_escape_opt (c : Char) : Denotes (escape [c] ++ ['?']) {[], [c]} := by
  refine ⟨[opt (chr (· == c))], reads_of_readTerm fun rest hrest => ?_, ?_⟩
  · rw [List.append_assoc, readTerm_escape, List.singleton_append, readQuantifier,
      if_neg (by decide), if_neg (by decide), if_pos rfl, dropLazy_eq hrest]
  · apply takes_singleton
    intro n s t
    constructor
    · rintro (⟨d, hd, rfl⟩ | rfl)
      · exact ⟨[c], .inr rfl, by rw [beq_iff_eq.mp hd]; rfl⟩
      · exact ⟨[], .inl rfl, rfl⟩
    · rintro ⟨u, rfl | rfl, rfl⟩
      · exact .inr rfl
      · exact .inl ⟨c, beq_self_eq_true c, rfl⟩

/-- `.*` denotes the texts without a line terminator. -/
theorem denotes_dotStar :
    Denotes ['.', '*'] {u | ∀ c ∈ u, Text.isLineTerminator c = false} := by
  refine ⟨[star (chr fun d => !Text.isLineTerminator d)], reads_of_readTerm fun rest hrest => ?_,
    takes_singleton fun n s t => ?_⟩
  · rw [List.cons_append, List.singleton_append, readTerm, if_neg (by decide),
      if_neg (by decide), readAtom, if_pos rfl, Option.map_some, readQuantifier, if_pos rfl,
      dropLazy_eq hrest]
  · rw [reaches_star_chr_iff]
    simp only [Bool.not_eq_true']
    exact Iff.rfl

/-- A class lists its characters, if none of them has a meaning in one. -/
theorem readClass_eq {cs : List Char} (h : ∀ c ∈ cs, c ≠ ']' ∧ c ≠ '\\' ∧ c ≠ '-')
    (rest : List Char) : readClass (cs ++ ']' :: rest) = some (cs, rest) := by
  induction cs with
  | nil => exact if_pos rfl
  | cons c cs ih =>
      obtain ⟨hclose, hescape, hrange⟩ := h c List.mem_cons_self
      rw [List.cons_append, readClass, if_neg hclose, if_neg (not_or.mpr ⟨hescape, hrange⟩),
        ih fun d hd => h d (List.mem_cons_of_mem c hd)]
      rfl

/-- `[^cs]+` denotes the nonempty texts without a character of `cs`. -/
theorem denotes_complement_plus {cs : List Char}
    (h : ∀ c ∈ cs, c ≠ ']' ∧ c ≠ '\\' ∧ c ≠ '-') :
    Denotes ('[' :: '^' :: (cs ++ [']', '+'])) {u | u ≠ [] ∧ ∀ c ∈ u, c ∉ cs} := by
  refine ⟨[plus (chr fun d => !cs.contains d)], reads_of_readTerm fun rest hrest => ?_,
    takes_singleton fun n s t => ?_⟩
  · have hclass : readClass (cs ++ [']', '+'] ++ rest) = some (cs, '+' :: rest) := by
      rw [List.append_assoc]
      exact readClass_eq h ('+' :: rest)
    rw [List.cons_append, List.cons_append, readTerm, if_neg (by decide), if_neg (by decide),
      readAtom, if_neg (by decide), if_neg (by decide), if_pos rfl, readSet, if_pos rfl, hclass,
      Option.map_some, Option.map_some]
    show some (readQuantifier _ ('+' :: rest)) = _
    rw [readQuantifier, if_neg (by decide), if_pos rfl, dropLazy_eq hrest]
  · rw [reaches_plus_chr_iff]
    simp only [Bool.not_eq_true', List.contains_eq_mem, decide_eq_false_iff_not]
    constructor
    · rintro ⟨u, hne, hu, heq⟩
      exact ⟨u, ⟨hne, hu⟩, heq⟩
    · rintro ⟨u, ⟨hne, hu⟩, heq⟩
      exact ⟨u, hne, hu, heq⟩

end FissionPlane.Lib.RegexSource
