/-
# FissionPlane.Lib.Regex -- regular expressions with anchors and lookahead

The patterns an ECMAScript `RegExp` writes without captures, over any alphabet: code points where
the `u` flag is set, UTF-16 code units where it is not. `test` searches for a match from every
position; `ends` lists what a match can leave over, so that an anchored pattern can be evaluated.
Greediness only orders the alternatives and does not matter to `test`.

`Reaches` is what a pattern means, with iteration as a reflexive transitive closure. `mem_ends`
connects the two, and the lemmas after it are the rules a proof about one pattern needs.
-/
import Mathlib.Logic.Relation
import Mathlib.Data.List.Infix

namespace FissionPlane.Lib

/-- A pattern over the alphabet `α`. -/
inductive Regex (α : Type) where
  /-- The empty pattern. -/
  | empty
  /-- One symbol of a class. -/
  | chr (p : α → Bool)
  | seq (r q : Regex α)
  | alt (r q : Regex α)
  /-- `r*` -/
  | star (r : Regex α)
  /-- `^` without the `m` flag -/
  | start
  /-- `$` without the `m` flag -/
  | finish
  /-- `(?!r)` -/
  | notAhead (r : Regex α)

namespace Regex

variable {α : Type}

/-- `r+` -/
def plus (r : Regex α) : Regex α := seq r (star r)

/-- `r?` -/
def opt (r : Regex α) : Regex α := alt r empty

/-- `r{k}` -/
def rep (r : Regex α) : Nat → Regex α
  | 0 => empty
  | k + 1 => seq r (rep r k)

/-- A fixed text. -/
def lit [BEq α] : List α → Regex α
  | [] => empty
  | c :: cs => seq (chr (· == c)) (lit cs)

/-! ## Matching -/

/-- What at most `fuel` iterations of `f` can leave of `s`; an iteration has to consume. -/
def starEnds (f : List α → List (List α)) : Nat → List α → List (List α)
  | 0, s => [s]
  | fuel + 1, s => s :: ((f s).filter fun t => t.length < s.length).flatMap (starEnds f fuel)

/-- What a match at `s` can leave of it, in a subject of `n` symbols. -/
def ends (n : Nat) : Regex α → List α → List (List α)
  | empty, s => [s]
  | chr _, [] => []
  | chr p, c :: s => if p c then [s] else []
  | seq r q, s => (ends n r s).flatMap (ends n q)
  | alt r q, s => ends n r s ++ ends n q s
  | star r, s => starEnds (ends n r) s.length s
  | start, s => if s.length = n then [s] else []
  | finish, s => if s.isEmpty then [s] else []
  | notAhead r, s => if (ends n r s).isEmpty then [s] else []

/-- `RegExp.prototype.test`. -/
def test (r : Regex α) (s : List α) : Bool :=
  s.tails.any fun t => !(ends s.length r t).isEmpty

/-! ## Meaning -/

/-- `Reaches n r s t`: in a subject of `n` symbols, `r` can match at `s` and leave `t`. -/
def Reaches (n : Nat) : Regex α → List α → List α → Prop
  | empty => fun s t => t = s
  | chr p => fun s t => ∃ c, p c = true ∧ s = c :: t
  | seq r q => fun s t => ∃ m, Reaches n r s m ∧ Reaches n q m t
  | alt r q => fun s t => Reaches n r s t ∨ Reaches n q s t
  | star r => Relation.ReflTransGen (Reaches n r)
  | start => fun s t => s.length = n ∧ t = s
  | finish => fun s t => s = [] ∧ t = s
  | notAhead r => fun s t => (¬ ∃ u, Reaches n r s u) ∧ t = s

/-- A match leaves a suffix. -/
theorem Reaches.suffix {n : Nat} {r : Regex α} :
    ∀ {s t : List α}, Reaches n r s t → t <:+ s := by
  induction r with
  | empty => rintro s t rfl; exact List.suffix_rfl
  | chr p => rintro s t ⟨c, -, rfl⟩; exact List.suffix_cons c t
  | seq r q ihr ihq => rintro s t ⟨m, hr, hq⟩; exact (ihq hq).trans (ihr hr)
  | alt r q ihr ihq =>
      rintro s t (h | h)
      · exact ihr h
      · exact ihq h
  | star r ih =>
      intro s t h
      induction h with
      | refl => exact List.suffix_rfl
      | tail _ hstep ihs => exact (ih hstep).trans ihs
  | start => rintro s t ⟨-, rfl⟩; exact List.suffix_rfl
  | finish => rintro s t ⟨-, rfl⟩; exact List.suffix_rfl
  | notAhead r => rintro s t ⟨-, rfl⟩; exact List.suffix_rfl

/-- `starEnds` lists the reflexive transitive closure: an iteration that consumes nothing adds
nothing. -/
theorem mem_starEnds {f : List α → List (List α)} {R : List α → List α → Prop}
    (hf : ∀ s t, t ∈ f s ↔ R s t) (hR : ∀ s t, R s t → t <:+ s) (t : List α) :
    ∀ (fuel : Nat) (s : List α), s.length ≤ fuel →
      (t ∈ starEnds f fuel s ↔ Relation.ReflTransGen R s t) := by
  intro fuel s hs
  constructor
  · clear hs
    induction fuel generalizing s with
    | zero => intro h; rw [List.mem_singleton.mp h]
    | succ fuel ih =>
        intro h
        rcases List.mem_cons.mp h with rfl | h
        · exact Relation.ReflTransGen.refl
        · obtain ⟨m, hm, ht⟩ := List.mem_flatMap.mp h
          exact Relation.ReflTransGen.head ((hf s m).mp (List.mem_filter.mp hm).1) (ih m ht)
  · intro h
    induction h using Relation.ReflTransGen.head_induction_on generalizing fuel with
    | refl => cases fuel <;> exact List.mem_cons_self
    | @head s m hstep _ ih =>
        have hsuf := hR s m hstep
        by_cases hlen : m.length = s.length
        -- a suffix of the same length is the text itself: the iteration consumed nothing
        · rw [← hsuf.eq_of_length hlen]
          exact ih fuel (by omega)
        · have hlt : m.length < s.length := Nat.lt_of_le_of_ne hsuf.length_le hlen
          cases fuel with
          | zero => omega
          | succ fuel =>
              refine List.mem_cons_of_mem _ (List.mem_flatMap.mpr ⟨m, ?_, ih fuel (by omega)⟩)
              exact List.mem_filter.mpr ⟨(hf s m).mpr hstep, decide_eq_true hlt⟩

/-- The matcher finds exactly the matches. -/
theorem mem_ends {n : Nat} {r : Regex α} :
    ∀ s t : List α, t ∈ ends n r s ↔ Reaches n r s t := by
  induction r with
  | empty => intro s t; exact List.mem_singleton
  | chr p =>
      intro s t
      cases s with
      | nil =>
          refine ⟨fun h => absurd h List.not_mem_nil, ?_⟩
          rintro ⟨c, -, h⟩
          cases h
      | cons c s =>
          rw [ends]
          constructor
          · intro h
            split at h
            next hc => exact ⟨c, hc, by rw [List.mem_singleton.mp h]⟩
            next => exact absurd h List.not_mem_nil
          · rintro ⟨d, hd, h⟩
            cases h
            rw [if_pos hd]
            exact List.mem_singleton_self _
  | seq r q ihr ihq =>
      intro s t
      rw [ends, List.mem_flatMap]
      exact exists_congr fun m => and_congr (ihr s m) (ihq m t)
  | alt r q ihr ihq =>
      intro s t
      rw [ends, List.mem_append]
      exact or_congr (ihr s t) (ihq s t)
  | star r ih =>
      intro s t
      exact mem_starEnds ih (fun _ _ => Reaches.suffix) t s.length s (Nat.le_refl _)
  | start =>
      intro s t
      rw [ends]
      split
      next h =>
        exact ⟨fun ht => ⟨h, List.mem_singleton.mp ht⟩, fun ht => List.mem_singleton.mpr ht.2⟩
      next h => exact ⟨fun ht => absurd ht List.not_mem_nil, fun ht => absurd ht.1 h⟩
  | finish =>
      intro s t
      rw [ends]
      split
      next h =>
        exact ⟨fun ht => ⟨List.isEmpty_iff.mp h, List.mem_singleton.mp ht⟩,
          fun ht => List.mem_singleton.mpr ht.2⟩
      next h =>
        exact ⟨fun ht => absurd ht List.not_mem_nil,
          fun ht => absurd (List.isEmpty_iff.mpr ht.1) h⟩
  | notAhead r ih =>
      intro s t
      rw [ends]
      split
      next h =>
        refine ⟨fun ht => ⟨?_, List.mem_singleton.mp ht⟩, fun ht => List.mem_singleton.mpr ht.2⟩
        rintro ⟨u, hu⟩
        rw [← ih, List.isEmpty_iff.mp h] at hu
        exact absurd hu List.not_mem_nil
      next h =>
        refine ⟨fun ht => absurd ht List.not_mem_nil, fun ht => absurd ?_ ht.1⟩
        obtain ⟨u, hu⟩ := List.exists_mem_of_ne_nil _ (List.isEmpty_iff.not.mp h)
        exact ⟨u, (ih s u).mp hu⟩

/-! ## Rules for patterns -/

/-- A pattern that begins with `^` is tried at the first position only. -/
theorem test_start_iff {r : Regex α} {s : List α} :
    test (seq start r) s = true ↔ ∃ t, Reaches s.length r s t := by
  rw [test, List.any_eq_true]
  constructor
  · rintro ⟨u, hu, hne⟩
    rw [Bool.not_eq_true', Bool.eq_false_iff, ne_eq, List.isEmpty_iff] at hne
    obtain ⟨t, ht⟩ := List.exists_mem_of_ne_nil _ hne
    obtain ⟨m, ⟨hlen, hm⟩, ht⟩ := (mem_ends u t).mp ht
    rw [hm] at ht
    have hus : u = s := ((List.mem_tails _ _).mp hu).eq_of_length hlen
    rw [hus] at ht
    exact ⟨t, ht⟩
  · rintro ⟨t, ht⟩
    refine ⟨s, (List.mem_tails _ _).mpr List.suffix_rfl, ?_⟩
    rw [Bool.not_eq_true', Bool.eq_false_iff, ne_eq, List.isEmpty_iff]
    have hmem : t ∈ ends s.length (seq start r) s := (mem_ends s t).mpr ⟨s, ⟨rfl, rfl⟩, ht⟩
    exact List.ne_nil_of_mem hmem

theorem reaches_finish_iff {n : Nat} {r : Regex α} {s : List α} :
    (∃ t, Reaches n (seq r finish) s t) ↔ Reaches n r s [] := by
  constructor
  · rintro ⟨t, m, hr, hm, -⟩
    rwa [hm] at hr
  · intro h
    exact ⟨[], [], h, rfl, rfl⟩

/-- `^r$` tests whether `r` matches the whole subject. -/
theorem test_whole_iff {r : Regex α} {s : List α} :
    test (seq start (seq r finish)) s = true ↔ Reaches s.length r s [] :=
  test_start_iff.trans reaches_finish_iff

/-- `[p]*` takes any run of the class. -/
theorem reaches_star_chr_iff {n : Nat} {p : α → Bool} {s t : List α} :
    Reaches n (star (chr p)) s t ↔ ∃ u, (∀ c ∈ u, p c = true) ∧ s = u ++ t := by
  constructor
  · intro h
    rw [Reaches] at h
    induction h using Relation.ReflTransGen.head_induction_on with
    | refl => exact ⟨[], fun c hc => absurd hc List.not_mem_nil, rfl⟩
    | head hstep _ ih =>
        obtain ⟨c, hc, rfl⟩ := hstep
        obtain ⟨u, hu, rfl⟩ := ih
        exact ⟨c :: u, List.forall_mem_cons.mpr ⟨hc, hu⟩, rfl⟩
  · rintro ⟨u, hu, rfl⟩
    rw [Reaches]
    induction u with
    | nil => exact Relation.ReflTransGen.refl
    | cons c u ih =>
        obtain ⟨hc, hu⟩ := List.forall_mem_cons.mp hu
        exact Relation.ReflTransGen.head ⟨c, hc, rfl⟩ (ih hu)

/-- `[p]+` takes a nonempty run of the class. -/
theorem reaches_plus_chr_iff {n : Nat} {p : α → Bool} {s t : List α} :
    Reaches n (plus (chr p)) s t ↔ ∃ u, u ≠ [] ∧ (∀ c ∈ u, p c = true) ∧ s = u ++ t := by
  constructor
  · rintro ⟨m, ⟨c, hc, rfl⟩, hm⟩
    obtain ⟨u, hu, rfl⟩ := reaches_star_chr_iff.mp hm
    exact ⟨c :: u, List.cons_ne_nil c u, List.forall_mem_cons.mpr ⟨hc, hu⟩, rfl⟩
  · rintro ⟨u, hne, hu, rfl⟩
    cases u with
    | nil => exact absurd rfl hne
    | cons c u =>
        obtain ⟨hc, hu⟩ := List.forall_mem_cons.mp hu
        exact ⟨u ++ t, ⟨c, hc, rfl⟩, reaches_star_chr_iff.mpr ⟨u, hu, rfl⟩⟩

/-- `[p]{k}` takes `k` symbols of the class. -/
theorem reaches_rep_chr_iff {n : Nat} {p : α → Bool} {k : Nat} {s t : List α} :
    Reaches n (rep (chr p) k) s t ↔
      ∃ u, u.length = k ∧ (∀ c ∈ u, p c = true) ∧ s = u ++ t := by
  induction k generalizing s with
  | zero =>
      constructor
      · rintro rfl
        exact ⟨[], rfl, fun c hc => absurd hc List.not_mem_nil, rfl⟩
      · rintro ⟨u, hlen, -, rfl⟩
        rw [List.length_eq_zero_iff.mp hlen]
        rfl
  | succ k ih =>
      constructor
      · rintro ⟨m, ⟨c, hc, rfl⟩, hm⟩
        obtain ⟨u, hlen, hu, rfl⟩ := ih.mp hm
        exact ⟨c :: u, congrArg (· + 1) hlen, List.forall_mem_cons.mpr ⟨hc, hu⟩, rfl⟩
      · rintro ⟨u, hlen, hu, rfl⟩
        cases u with
        | nil => cases hlen
        | cons c u =>
            obtain ⟨hc, hu⟩ := List.forall_mem_cons.mp hu
            exact ⟨u ++ t, ⟨c, hc, rfl⟩, ih.mpr ⟨u, Nat.succ.inj hlen, hu, rfl⟩⟩

/-- A fixed text takes itself. -/
theorem reaches_lit_iff [BEq α] [LawfulBEq α] {n : Nat} {u s t : List α} :
    Reaches n (lit u) s t ↔ s = u ++ t := by
  induction u generalizing s with
  | nil => exact eq_comm
  | cons c u ih =>
      constructor
      · rintro ⟨m, ⟨d, hd, rfl⟩, hm⟩
        rw [beq_iff_eq.mp hd, ih.mp hm, List.cons_append]
      · rintro rfl
        exact ⟨u ++ t, ⟨c, beq_self_eq_true c, rfl⟩, ih.mpr rfl⟩

end Regex

end FissionPlane.Lib
