/-
# FissionPlane.Lib.Duration -- durations and instants of a monotonic clock

A `Duration` is a number of nanoseconds up to the one that 64 bits of seconds allow. Arithmetic on
it saturates there. An `Instant` is the time since the earliest one the clock can show, so that the
difference of two instants is a duration; the difference to a later instant is zero.
-/
import Mathlib.Algebra.Group.Nat.Defs
import Mathlib.Order.Basic
import Mathlib.Tactic.Common

namespace FissionPlane.Lib

/-! ## Durations -/

structure Duration where
  nanos : ℕ
  le_max : nanos ≤ (2 ^ 64 - 1) * 1000000000 + 999999999
  deriving DecidableEq

namespace Duration

/-- The number of nanoseconds of `Duration::MAX`. -/
def maxNanos : ℕ := (2 ^ 64 - 1) * 1000000000 + 999999999

instance : LE Duration := ⟨fun d e => d.nanos ≤ e.nanos⟩

instance : LT Duration := ⟨fun d e => d.nanos < e.nanos⟩

instance (d e : Duration) : Decidable (d ≤ e) := inferInstanceAs (Decidable (d.nanos ≤ e.nanos))

instance (d e : Duration) : Decidable (d < e) := inferInstanceAs (Decidable (d.nanos < e.nanos))

instance : Max Duration := ⟨fun d e => if d ≤ e then e else d⟩

instance : Min Duration := ⟨fun d e => if d ≤ e then d else e⟩

theorem le_iff {d e : Duration} : d ≤ e ↔ d.nanos ≤ e.nanos := Iff.rfl

@[simp]
theorem max_nanos (d e : Duration) : (max d e).nanos = max d.nanos e.nanos := by
  show (if d ≤ e then e else d).nanos = _
  split
  · next h => exact (Nat.max_eq_right h).symm
  · next h => exact (Nat.max_eq_left (Nat.le_of_not_le h)).symm

@[simp]
theorem min_nanos (d e : Duration) : (min d e).nanos = min d.nanos e.nanos := by
  show (if d ≤ e then d else e).nanos = _
  split
  · next h => exact (Nat.min_eq_left h).symm
  · next h => exact (Nat.min_eq_right (Nat.le_of_not_le h)).symm

/-- Multiplication by a number, saturating. -/
def saturatingMul (d : Duration) (n : ℕ) : Duration :=
  ⟨min (d.nanos * n) maxNanos, Nat.min_le_right _ _⟩

@[simp]
theorem saturatingMul_nanos (d : Duration) (n : ℕ) :
    (d.saturatingMul n).nanos = min (d.nanos * n) maxNanos := rfl

end Duration

/-! ## Instants -/

structure Instant where
  sinceEarliest : Duration
  deriving DecidableEq

namespace Instant

instance : LE Instant := ⟨fun t u => t.sinceEarliest ≤ u.sinceEarliest⟩

instance (t u : Instant) : Decidable (t ≤ u) :=
  inferInstanceAs (Decidable (t.sinceEarliest ≤ u.sinceEarliest))

/-- The time from an earlier instant, zero where it is not earlier. -/
def durationSince (now earlier : Instant) : Duration :=
  ⟨now.sinceEarliest.nanos - earlier.sinceEarliest.nanos,
    Nat.le_trans (Nat.sub_le _ _) now.sinceEarliest.le_max⟩

end Instant

end FissionPlane.Lib
