/-
# FissionPlane.Lib.ByteStream -- big-endian prefixes and exact reads

A byte stream under a reader is the list of bytes still to be read. `readExact n` either hands over
the next `n` bytes or meets the end of the stream, in which case what was left is consumed too. The
four-byte big-endian length prefix is the only integer format here.
-/
import FissionPlane.Lib.ProtoWire

namespace FissionPlane.Lib.ByteStream

open FissionPlane.Lib.ProtoWire (Bytes)

/-- The next `n` bytes and what is left after them; at the end of the stream, nothing is left. -/
def readExact (n : Nat) (input : Bytes) : Option Bytes × Bytes :=
  if n ≤ input.length then (some (input.take n), input.drop n) else (none, [])

theorem readExact_append {n : Nat} {bs : Bytes} (h : bs.length = n) (rest : Bytes) :
    readExact n (bs ++ rest) = (some bs, rest) := by
  subst h
  simp [readExact]

/-- The four big-endian bytes of a 32-bit length. -/
def putU32 (n : Nat) : Bytes :=
  [UInt8.ofNat (n / 2 ^ 24), UInt8.ofNat (n / 2 ^ 16), UInt8.ofNat (n / 2 ^ 8), UInt8.ofNat n]

/-- The big-endian value of a byte string. -/
def fromBeBytes (bs : Bytes) : Nat := bs.foldl (fun acc b => acc * 256 + b.toNat) 0

@[simp]
theorem length_putU32 (n : Nat) : (putU32 n).length = 4 := rfl

theorem fromBeBytes_putU32 {n : Nat} (h : n < 2 ^ 32) : fromBeBytes (putU32 n) = n := by
  simp only [fromBeBytes, putU32, List.foldl_cons, List.foldl_nil, UInt8.toNat_ofNat']
  omega

end FissionPlane.Lib.ByteStream
