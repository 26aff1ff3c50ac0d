/-
# FissionPlane.VmProtocol.Capability -- the agent capability bitset

The bitset of `HelloAck` as the code has it, a 64-bit word, and what it means: a set of positions.
Subtracting any words in any order leaves the advertised positions without theirs.
-/
import FissionPlane.Lib.BitSet

namespace FissionPlane.VmProtocol

open FissionPlane.Lib.BitSet

structure Capabilities where
  bits : UInt64
  deriving DecidableEq, Repr, Inhabited

namespace Capabilities

/-! ## The operations -/

def empty : Capabilities := ⟨0⟩

def fromBits (bits : UInt64) : Capabilities := ⟨bits⟩

/-- Of a word of several bits, one is enough. -/
def contains (self : Capabilities) (bit : UInt64) : Bool := self.bits &&& bit != 0

def with_ (self : Capabilities) (bit : UInt64) : Capabilities := ⟨self.bits ||| bit⟩

def without (self : Capabilities) (bits : UInt64) : Capabilities := ⟨self.bits &&& ~~~bits⟩

/-! ## Sets of positions -/

/-- What the bitset grants. -/
def positions (c : Capabilities) : Set Nat := members c.bits.toBitVec

variable (c : Capabilities)

theorem positions_empty : positions empty = ∅ := members_zero

theorem positions_with (bit : UInt64) :
    positions (c.with_ bit) = positions c ∪ members bit.toBitVec := by
  rw [positions, with_, UInt64.toBitVec_or, members_or, positions]

theorem positions_without (bits : UInt64) :
    positions (c.without bits) = positions c \ members bits.toBitVec := by
  rw [positions, without, UInt64.toBitVec_and, UInt64.toBitVec_not, members_and_not, positions]

theorem contains_iff (bit : UInt64) :
    c.contains bit = true ↔ (positions c ∩ members bit.toBitVec).Nonempty := by
  rw [positions, ← and_ne_zero_iff, contains, bne_iff_ne, ← UInt64.toBitVec_and]
  exact not_congr (UInt64.toBitVec_inj (b := 0)).symm

/-- Whatever is subtracted, in whatever order. -/
theorem positions_foldl_without (quarantined : List UInt64) :
    positions (quarantined.foldl without c) =
      positions c \ ⋃ bits ∈ quarantined, members bits.toBitVec := by
  induction quarantined generalizing c with
  | nil => simp
  | cons bits quarantined ih =>
      rw [List.foldl_cons, ih, positions_without, Set.sdiff_sdiff]
      simp only [List.mem_cons, Set.iUnion_iUnion_eq_or_left]

end Capabilities

end FissionPlane.VmProtocol
