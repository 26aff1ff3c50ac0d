/-
# FissionPlane.Sdk.RetryJitter -- the random wait before a retry

The Rust client waits a random time below a ceiling that doubles with every attempt up to a cap. The
randomness is a 64-bit xorshift word shared by the whole process and read and written without any
order between threads, so a draw is two steps here: a load, which may see any value the word has
held, and a store of what was made of it.

Zero is the word's only fixed point. It is what the word starts as, and it is replaced by a seed
from the clock whenever it is seen, so it is never written.
-/
import Mathlib.Data.List.Induction
import FissionPlane.Lib.Duration
import FissionPlane.Lib.Transition
import FissionPlane.Lib.Xorshift

namespace FissionPlane.Sdk.RetryJitter

open FissionPlane.Lib FissionPlane.Lib.Transition

/-! ## The generator -/

/-- One xorshift step, as `next_random` makes it. -/
def xorshift (state : UInt64) : UInt64 :=
  let state := state ^^^ (state <<< 13)
  let state := state ^^^ (state >>> 7)
  state ^^^ (state <<< 17)

/-- A number as a word, where it fits. -/
def u64TryFrom (n : Nat) : Option UInt64 :=
  if n < UInt64.size then some (UInt64.ofNat n) else none

/-- The seed for a clock reading; `none` is a clock before the epoch. -/
def seed (sinceEpoch : Option Duration) : UInt64 :=
  let nanos := (sinceEpoch.map Duration.nanos).getD 0
  let mixed := (u64TryFrom (nanos % (UInt64.size - 1))).getD 0
  (mixed ^^^ 0x9e3779b97f4a7c15) ||| 1

/-- What a draw makes of the word it has loaded: it is both stored and returned. -/
def nextRandom (loaded : UInt64) (now : Option Duration) : UInt64 :=
  xorshift (if loaded = 0 then seed now else loaded)

/-! ## The wait -/

/-- Ceiling on the wait before the first retry. -/
def base : Duration := ⟨250 * 1000000, by decide⟩

/-- Multiplier applied once per attempt already made. -/
def factor : UInt32 := 2

/-- Cap on the exponent. -/
def maxExponent : UInt32 := 8

/-- A power of a 32-bit number, saturating. -/
def saturatingPow (b e : UInt32) : UInt32 :=
  UInt32.ofNat (min (b.toNat ^ e.toNat) (UInt32.size - 1))

/-- A sum of 64-bit numbers, saturating. -/
def saturatingAdd (a b : UInt64) : UInt64 :=
  UInt64.ofNat (min (a.toNat + b.toNat) (UInt64.size - 1))

/-- Remainder; there is none of a division by zero. -/
def checkedRem (a b : UInt64) : Option UInt64 := if b = 0 then none else some (a % b)

def asMillis (d : Duration) : Nat := d.nanos / 1000000

def fromMillis (ms : UInt64) : Duration :=
  ⟨ms.toNat * 1000000, by
    have h := ms.toNat_lt
    omega⟩

/-- The longest wait after a zero-based attempt. -/
def ceiling (attempt : UInt32) : Duration :=
  base.saturatingMul (saturatingPow factor (min attempt maxExponent)).toNat

/-- How many whole milliseconds there are to choose from. -/
def span (attempt : UInt32) : UInt64 :=
  saturatingAdd ((u64TryFrom (asMillis (ceiling attempt))).getD (UInt64.ofNat (UInt64.size - 1))) 1

/-- How long to wait after an attempt has failed, for the word and the clock the draw sees. -/
def backoff (attempt : UInt32) (loaded : UInt64) (now : Option Duration) : Option Duration :=
  (checkedRem (nextRandom loaded now) (span attempt)).map fromMillis

/-! ## The word is never zero -/

theorem toBitVec_xorshift (x : UInt64) :
    (xorshift x).toBitVec = Xorshift.next 13 7 17 x.toBitVec := rfl

theorem xorshift_injective : Function.Injective xorshift := by
  intro x y h
  apply UInt64.toBitVec_inj.mp
  apply Xorshift.next_injective (a := 13) (b := 7) (c := 17) (by omega) (by omega) (by omega)
  rw [← toBitVec_xorshift, ← toBitVec_xorshift, h]

theorem xorshift_ne_zero {x : UInt64} (hx : x ≠ 0) : xorshift x ≠ 0 := by
  intro h
  have hzero : xorshift 0 = 0 := rfl
  exact hx (xorshift_injective (h.trans hzero.symm))

theorem or_one_ne_zero (x : UInt64) : x ||| 1 ≠ 0 := by
  intro h
  have hbit : (x ||| 1).toBitVec.getLsbD 0 = false := by
    rw [h]
    rfl
  have hone : (1 : UInt64).toBitVec.getLsbD 0 = true := rfl
  rw [UInt64.toBitVec_or, BitVec.getLsbD_or, hone, Bool.or_true] at hbit
  cases hbit

/-- The lowest bit of the seed is set, whatever the clock says. -/
theorem seed_ne_zero (now : Option Duration) : seed now ≠ 0 := or_one_ne_zero _

theorem nextRandom_ne_zero (loaded : UInt64) (now : Option Duration) :
    nextRandom loaded now ≠ 0 := by
  unfold nextRandom
  apply xorshift_ne_zero
  split
  · exact seed_ne_zero now
  · next h => exact h

/-! ## Draws of many threads -/

/-- The shared word: every value it has held, the newest first, and the words that draws have made
and not stored yet. -/
structure Cell where
  held : List UInt64
  pending : List UInt64
  deriving DecidableEq, Repr

inductive Access where
  /-- A draw loads a value the word has held, not necessarily the newest. -/
  | load (age : Nat) (now : Option Duration)
  | store (draw : Nat)
  deriving DecidableEq

def Access.isStore : Access → Bool
  | .load _ _ => false
  | .store _ => true

namespace Cell

def start : Cell := ⟨[0], []⟩

def step (c : Cell) : Access → Option Cell
  | .load age now =>
      c.held[age]?.map fun loaded => { c with pending := c.pending ++ [nextRandom loaded now] }
  | .store draw =>
      c.pending[draw]?.map fun word =>
        { held := word :: c.held, pending := c.pending.eraseIdx draw }

/-- The value that is stored. -/
def state (c : Cell) : UInt64 := c.held.headD 0

/-- Only the first value is zero, and no draw is about to store another. -/
structure NeverZero (c : Cell) : Prop where
  pending : ∀ word ∈ c.pending, word ≠ 0
  held : ∃ written, c.held = written ++ [0] ∧ ∀ word ∈ written, word ≠ 0

theorem neverZero_start : NeverZero start :=
  ⟨fun _ h => absurd h List.not_mem_nil, [], rfl, fun _ h => absurd h List.not_mem_nil⟩

/-- What an access does, and when it can be made. -/
theorem step_cases {c c' : Cell} {a : Access} (h : step c a = some c') :
    (∃ age now loaded, a = .load age now ∧
      c' = { c with pending := c.pending ++ [nextRandom loaded now] }) ∨
    (∃ draw word, a = .store draw ∧ word ∈ c.pending ∧
      c' = { held := word :: c.held, pending := c.pending.eraseIdx draw }) := by
  cases a with
  | load age now =>
      obtain ⟨loaded, -, rfl⟩ := Option.map_eq_some_iff.mp h
      exact Or.inl ⟨age, now, loaded, rfl, rfl⟩
  | store draw =>
      obtain ⟨word, hword, rfl⟩ := Option.map_eq_some_iff.mp h
      exact Or.inr ⟨draw, word, rfl, List.mem_of_getElem? hword, rfl⟩

theorem neverZero_step {c c' : Cell} {a : Access} (hinv : NeverZero c) (h : step c a = some c') :
    NeverZero c' := by
  obtain ⟨age, now, loaded, rfl, rfl⟩ | ⟨draw, word, rfl, hword, rfl⟩ := step_cases h
  · refine ⟨fun word hword => ?_, hinv.held⟩
    rcases List.mem_append.mp hword with hword | hword
    · exact hinv.pending word hword
    · rw [List.mem_singleton.mp hword]
      exact nextRandom_ne_zero loaded now
  · obtain ⟨written, hheld, hwritten⟩ := hinv.held
    refine ⟨fun other hother => hinv.pending other (List.mem_of_mem_eraseIdx hother),
      word :: written, congrArg (word :: ·) hheld, fun other hother => ?_⟩
    rcases List.mem_cons.mp hother with rfl | hother
    · exact hinv.pending other hword
    · exact hwritten other hother

/-- Every store adds a value. -/
theorem length_held_run : ∀ {accesses : List Access} {c c' : Cell},
    run step c accesses = some c' →
      c'.held.length = c.held.length + accesses.countP Access.isStore
  | [], c, c', h => by
      obtain rfl := Option.some.inj h
      rfl
  | a :: accesses, c, c', h => by
      obtain ⟨next, hstep, hrest⟩ := run_cons_eq_some.mp h
      rw [length_held_run hrest]
      obtain ⟨age, now, loaded, rfl, rfl⟩ | ⟨draw, word, rfl, hword, rfl⟩ := step_cases hstep
      · rfl
      · rw [List.countP_cons_of_pos rfl, List.length_cons]
        omega

/-- After the first store the stored value is never zero. -/
theorem state_ne_zero {accesses : List Access} {c : Cell} (h : run step start accesses = some c)
    {draw : Nat} (hstore : .store draw ∈ accesses) : c.state ≠ 0 := by
  obtain ⟨written, hheld, hwritten⟩ := (run_inv neverZero_step neverZero_start h).held
  have hlength := length_held_run h
  have hcount : 0 < accesses.countP Access.isStore :=
    List.countP_pos_iff.mpr ⟨.store draw, hstore, rfl⟩
  cases written with
  | nil =>
      rw [hheld] at hlength
      simp only [List.nil_append, List.length_singleton, start] at hlength
      omega
  | cons word rest =>
      have hstate : c.state = word := by rw [state, hheld, List.cons_append, List.headD_cons]
      rw [hstate]
      exact hwritten word List.mem_cons_self

end Cell

/-- Draws made one after another, each from what the one before has stored. -/
theorem foldl_nextRandom_ne_zero (state : UInt64) {readings : List (Option Duration)}
    (h : readings ≠ []) : readings.foldl nextRandom state ≠ 0 := by
  induction readings using List.reverseRecOn with
  | nil => exact absurd rfl h
  | append_singleton earlier now _ =>
      rw [List.foldl_append]
      exact nextRandom_ne_zero _ now

/-! ## The bound on the wait -/

/-- The capped exponent. -/
def exponent (attempt : UInt32) : Nat := min attempt.toNat 8

theorem toNat_min_maxExponent (attempt : UInt32) :
    (min attempt maxExponent).toNat = exponent attempt := by
  have hcap : maxExponent.toNat = 8 := rfl
  show (if attempt ≤ maxExponent then attempt else maxExponent).toNat = min attempt.toNat 8
  split
  · next h =>
      rw [UInt32.le_iff_toNat_le, hcap] at h
      omega
  · next h =>
      rw [UInt32.le_iff_toNat_le, hcap] at h
      omega

theorem pow_exponent_le (attempt : UInt32) : 2 ^ exponent attempt ≤ 256 :=
  Nat.pow_le_pow_right (by omega) (Nat.min_le_right _ 8)

/-- The power does not saturate. -/
theorem toNat_saturatingPow (attempt : UInt32) :
    (saturatingPow factor (min attempt maxExponent)).toNat = 2 ^ exponent attempt := by
  have hle := pow_exponent_le attempt
  have hfactor : factor.toNat = 2 := rfl
  have hsize : UInt32.size = 4294967296 := rfl
  unfold saturatingPow
  rw [toNat_min_maxExponent, hfactor, UInt32.toNat_ofNat_of_lt']
  · omega
  · omega

/-- Nor does the ceiling. -/
theorem nanos_ceiling (attempt : UInt32) :
    (ceiling attempt).nanos = 250 * 1000000 * 2 ^ exponent attempt := by
  have hle := pow_exponent_le attempt
  have hbase : base.nanos = 250 * 1000000 := rfl
  unfold ceiling
  rw [Duration.saturatingMul_nanos, toNat_saturatingPow, hbase]
  apply Nat.min_eq_left
  unfold Duration.maxNanos
  omega

theorem asMillis_ceiling (attempt : UInt32) :
    asMillis (ceiling attempt) = 250 * 2 ^ exponent attempt := by
  unfold asMillis
  rw [nanos_ceiling]
  omega

/-- The ceiling is a 64-bit number of milliseconds, and one more is still one. -/
theorem toNat_span (attempt : UInt32) : (span attempt).toNat = 250 * 2 ^ exponent attempt + 1 := by
  have hle := pow_exponent_le attempt
  have hsize : UInt64.size = 18446744073709551616 := rfl
  have hfits : 250 * 2 ^ exponent attempt < UInt64.size := by omega
  have hone : (1 : UInt64).toNat = 1 := rfl
  unfold span u64TryFrom saturatingAdd
  rw [asMillis_ceiling, if_pos hfits, Option.getD_some, UInt64.toNat_ofNat_of_lt' hfits, hone,
    UInt64.toNat_ofNat_of_lt']
  · omega
  · omega

/-- The remainder exists, and the wait stays below the ceiling. -/
theorem backoff_eq_some (attempt : UInt32) (loaded : UInt64) (now : Option Duration) :
    ∃ wait, backoff attempt loaded now = some wait ∧ wait.nanos ≤ (ceiling attempt).nanos := by
  have hspan := toNat_span attempt
  have hne : span attempt ≠ 0 := by
    intro h
    rw [h] at hspan
    have hzero : (0 : UInt64).toNat = 0 := rfl
    omega
  unfold backoff checkedRem
  rw [if_neg hne]
  refine ⟨_, rfl, ?_⟩
  have hrem : (nextRandom loaded now % span attempt).toNat < (span attempt).toNat := by
    rw [UInt64.toNat_mod]
    exact Nat.mod_lt _ (by omega)
  rw [nanos_ceiling]
  show (nextRandom loaded now % span attempt).toNat * 1000000 ≤ _
  omega

/-- The generator is a permutation of the words that fixes zero, zero is never seeded or stored,
and the wait never exceeds the exact ceiling. -/
theorem jitter_never_degenerates :
    (∀ x, x ≠ 0 → xorshift x ≠ 0) ∧ Function.Injective xorshift ∧ (∀ now, seed now ≠ 0) ∧
    (∀ state readings, readings ≠ [] → readings.foldl nextRandom state ≠ 0) ∧
    (∀ accesses c, run Cell.step Cell.start accesses = some c →
      (∃ draw, .store draw ∈ accesses) → c.state ≠ 0) ∧
    (∀ attempt loaded now, ∃ wait, backoff attempt loaded now = some wait ∧
      wait.nanos ≤ 250 * 1000000 * 2 ^ min attempt.toNat 8) ∧
    (∀ attempt, (saturatingPow factor (min attempt maxExponent)).toNat = 2 ^ min attempt.toNat 8 ∧
      (ceiling attempt).nanos = 250 * 1000000 * 2 ^ min attempt.toNat 8 ∧
      (span attempt).toNat = 250 * 2 ^ min attempt.toNat 8 + 1) := by
  refine ⟨fun x => xorshift_ne_zero, xorshift_injective, seed_ne_zero,
    fun state readings => foldl_nextRandom_ne_zero state, fun accesses c h hstore => ?_,
    fun attempt loaded now => ?_, fun attempt => ?_⟩
  · obtain ⟨draw, hdraw⟩ := hstore
    exact Cell.state_ne_zero h hdraw
  · obtain ⟨wait, hwait, hle⟩ := backoff_eq_some attempt loaded now
    rw [nanos_ceiling] at hle
    exact ⟨wait, hwait, hle⟩
  · exact ⟨toNat_saturatingPow attempt, nanos_ceiling attempt, toNat_span attempt⟩

end FissionPlane.Sdk.RetryJitter
