/-
# FissionPlane.Lib.Binary64 -- rounding a rational to the nearest double

A JavaScript number literal denotes the IEEE 754 double nearest its mathematical value, ties to the
even significand, and an infinity beyond the finite range. `ofRat` is that map with `none` for the
infinities; it does not tell the two zeros apart.
-/
import Mathlib.Data.Rat.Floor
import Mathlib.Algebra.Order.Field.Power
import Mathlib.Tactic.Positivity
import Mathlib.Tactic.NormNum

namespace FissionPlane.Lib.Binary64

/-- The exponent of the binade of a positive rational. -/
def binade (q : ℚ) : ℤ :=
  -- off by at most one: the quotient of the leading bits may be below 1
  let e : ℤ := (Nat.log2 q.num.natAbs : ℤ) - (Nat.log2 q.den : ℤ)
  if (2 : ℚ) ^ e ≤ q then e else e - 1

/-- The exponent of the last place of a double of that binade; subnormals share the least one. -/
def lastPlace (q : ℚ) : ℤ := max (binade q - 52) (-1074)

/-- The nearest integer, ties to even. -/
def roundHalfEven (q : ℚ) : ℤ :=
  let f := ⌊q⌋
  if q - f < 1 / 2 then f
  else if 1 / 2 < q - f then f + 1
  else if f % 2 = 0 then f
  else f + 1

/-- The finite double nearest a nonnegative rational. -/
def roundMagnitude (q : ℚ) : Option ℚ :=
  let r : ℚ := roundHalfEven (q / 2 ^ lastPlace q) * 2 ^ lastPlace q
  if r < 2 ^ 1024 then some r else none

/-- The finite double nearest a rational. -/
def ofRat (q : ℚ) : Option ℚ :=
  if q < 0 then (roundMagnitude (-q)).map fun r => -r
  else roundMagnitude q

theorem roundHalfEven_intCast (z : ℤ) : roundHalfEven (z : ℚ) = z := by
  have hzero : (z : ℚ) - (⌊(z : ℚ)⌋ : ℚ) < 1 / 2 := by rw [Int.floor_intCast]; norm_num
  rw [roundHalfEven]
  simp only [hzero, if_true]
  exact Int.floor_intCast z

theorem roundHalfEven_nonneg {q : ℚ} (hq : 0 ≤ q) : 0 ≤ roundHalfEven q := by
  have hfloor : 0 ≤ ⌊q⌋ := Int.floor_nonneg.mpr hq
  rw [roundHalfEven]
  split_ifs <;> omega

theorem roundMagnitude_nonneg {q r : ℚ} (hq : 0 ≤ q) (h : roundMagnitude q = some r) : 0 ≤ r := by
  rw [roundMagnitude] at h
  split_ifs at h
  rw [← Option.some.inj h]
  have hround : 0 ≤ roundHalfEven (q / 2 ^ lastPlace q) := roundHalfEven_nonneg (by positivity)
  have hcast : (0 : ℚ) ≤ (roundHalfEven (q / 2 ^ lastPlace q) : ℚ) := by exact_mod_cast hround
  positivity

/-- Rounding keeps the sign: nothing at or below zero becomes positive. -/
theorem ofRat_nonpos {q r : ℚ} (hq : q ≤ 0) (h : ofRat q = some r) : r ≤ 0 := by
  rw [ofRat] at h
  rcases lt_or_eq_of_le hq with hneg | rfl
  · rw [if_pos hneg] at h
    obtain ⟨m, hm, rfl⟩ := Option.map_eq_some_iff.mp h
    exact neg_nonpos.mpr (roundMagnitude_nonneg (by linarith) hm)
  · rw [if_neg (lt_irrefl _), roundMagnitude] at h
    have hround : roundHalfEven 0 = 0 := roundHalfEven_intCast 0
    simp only [zero_div, hround, Int.cast_zero, zero_mul] at h
    split_ifs at h
    rw [← Option.some.inj h]

/-- A multiple of the last place is its own rounding, within the finite range. -/
theorem roundMagnitude_multiple {q : ℚ} {z : ℤ} (hq : q = z * 2 ^ lastPlace q) :
    roundMagnitude q = if q < 2 ^ 1024 then some q else none := by
  have hpow : (2 : ℚ) ^ lastPlace q ≠ 0 := by positivity
  have hdiv : q / 2 ^ lastPlace q = z := by rw [div_eq_iff hpow]; exact hq
  rw [roundMagnitude]
  simp only [hdiv, roundHalfEven_intCast]
  rw [← hq]

theorem roundMagnitude_of_multiple {q : ℚ} {z : ℤ} (hq : q = z * 2 ^ lastPlace q)
    (hlt : q < 2 ^ 1024) : roundMagnitude q = some q := by
  rw [roundMagnitude_multiple hq, if_pos hlt]

theorem binade_natCast {n : ℕ} (hn : n ≠ 0) : binade n = Nat.log2 n := by
  have hle : (2 : ℚ) ^ ((Nat.log2 n : ℤ)) ≤ n := by
    rw [zpow_natCast]
    exact_mod_cast Nat.log2_self_le hn
  have hden : ((n : ℚ).den) = 1 := Rat.den_natCast n
  have hnum : ((n : ℚ).num.natAbs) = n := by rw [Rat.num_natCast, Int.natAbs_natCast]
  rw [binade]
  simp only [hden, hnum]
  have hone : ((Nat.log2 1 : ℕ) : ℤ) = 0 := by decide
  rw [hone, sub_zero, if_pos hle]

/-- Every integer up to `2^53` is a double. -/
theorem ofRat_natCast {n : ℕ} (hn : n ≤ 2 ^ 53) : ofRat n = some n := by
  have hnonneg : ¬ (n : ℚ) < 0 := not_lt.mpr (Nat.cast_nonneg n)
  have hlt : (n : ℚ) < 2 ^ 1024 := by
    have hcast : (n : ℚ) ≤ 2 ^ 53 := by exact_mod_cast hn
    exact lt_of_le_of_lt hcast (pow_lt_pow_right₀ (by norm_num) (by decide))
  rw [ofRat, if_neg hnonneg]
  rcases Nat.eq_zero_or_pos n with rfl | hpos
  · exact roundMagnitude_of_multiple (z := 0) (by simp) hlt
  · have hne : n ≠ 0 := Nat.pos_iff_ne_zero.mp hpos
    have hlog : Nat.log2 n ≤ 53 := by
      by_contra hbig
      have h1 : 2 ^ Nat.log2 n ≤ n := Nat.log2_self_le hne
      have h2 : 2 ^ 54 ≤ 2 ^ Nat.log2 n := Nat.pow_le_pow_right (by decide) (by omega)
      have h3 : (2 : ℕ) ^ 54 = 2 * 2 ^ 53 := by norm_num
      omega
    by_cases hsmall : Nat.log2 n ≤ 52
    · -- the last place is at most one
      have hplace : lastPlace n = -((52 - Nat.log2 n : ℕ) : ℤ) := by
        rw [lastPlace, binade_natCast hne]
        omega
      refine roundMagnitude_of_multiple (z := ((n * 2 ^ (52 - Nat.log2 n) : ℕ) : ℤ)) ?_ hlt
      rw [hplace, zpow_neg, zpow_natCast]
      push_cast
      field_simp
    · -- the binade of `2^53` itself
      have hlog' : Nat.log2 n = 53 := by omega
      have h1 : 2 ^ 53 ≤ n := hlog' ▸ Nat.log2_self_le hne
      have hn' : n = 2 ^ 53 := by omega
      have hplace : lastPlace n = 1 := by
        rw [lastPlace, binade_natCast hne, hlog']
        norm_num
      refine roundMagnitude_of_multiple (z := 2 ^ 52) ?_ hlt
      rw [hplace, hn']
      norm_num

/-- A power of two is a double exactly as long as its exponent is in range. -/
theorem ofRat_two_pow (n : ℕ) : ofRat (2 ^ n) = if n < 1024 then some (2 ^ n) else none := by
  have hnonneg : ¬ (2 : ℚ) ^ n < 0 := not_lt.mpr (by positivity)
  have hbinade : binade (2 ^ n) = n := by
    have hcast := binade_natCast (n := 2 ^ n) (by positivity)
    rwa [Nat.log2_two_pow, Nat.cast_pow, Nat.cast_ofNat] at hcast
  have hplace : lastPlace (2 ^ n) = (n : ℤ) - 52 := by
    rw [lastPlace, hbinade]
    omega
  have hmultiple : (2 : ℚ) ^ n = ((2 ^ 52 : ℤ) : ℚ) * 2 ^ lastPlace (2 ^ n) := by
    rw [hplace, zpow_sub₀ two_ne_zero, zpow_natCast]
    norm_num
    field_simp
  have hrange : (2 : ℚ) ^ n < 2 ^ 1024 ↔ n < 1024 := pow_lt_pow_iff_right₀ one_lt_two
  rw [ofRat, if_neg hnonneg, roundMagnitude_multiple hmultiple]
  simp only [hrange]

/-! ## Numbers with infinities -/

/-- A double: a finite value, one of the infinities, or not a number. -/
inductive Number where
  | finite (value : ℚ)
  | infinite (negative : Bool)
  | nan
  deriving DecidableEq, Repr

namespace Number

/-- The double nearest an exact result. -/
def ofExact (q : ℚ) : Number :=
  match ofRat q with
  | some r => .finite r
  | none => .infinite (decide (q < 0))

def add : Number → Number → Number
  | .finite a, .finite b => ofExact (a + b)
  | .finite _, .infinite s => .infinite s
  | .infinite s, .finite _ => .infinite s
  | .infinite s, .infinite t => if s = t then .infinite s else .nan
  | _, _ => .nan

/-- The comparison `a >= b`; nothing compares with what is not a number. -/
def ge : Number → Number → Bool
  | .finite a, .finite b => decide (b ≤ a)
  | .finite _, .infinite t => t
  | .infinite s, .finite _ => !s
  | .infinite s, .infinite t => !s || t
  | _, _ => false

end Number

end FissionPlane.Lib.Binary64
