/-
# FissionPlane.Lib.Base64 -- bytes as 6-bit digits of an alphabet

Three bytes are a 24-bit number and four digits of it. A last group of one or two bytes is filled up
with zero bits and written with the two or three digits its bits reach into. The digits are written
in an alphabet of 64 characters; a text may be padded to whole groups.

Decoding goes the same way back. It refuses a character outside the alphabet, a single digit left
over, and filling bits that are not zero, and it gives back every encoded byte string.
-/
import Mathlib.Algebra.Group.Nat.Defs
import Mathlib.Data.List.DropRight
import Mathlib.Data.List.Nodup

namespace FissionPlane.Lib.Base64

/-! ## Digits -/

/-- Three bytes as one number. -/
def group (a b c : UInt8) : Nat := a.toNat * 65536 + b.toNat * 256 + c.toNat

/-- The 6-bit digit of a number, counted from the lowest. -/
def digit (n k : Nat) : Fin 64 := Fin.ofNat 64 (n / 64 ^ k)

def digits : List UInt8 → List (Fin 64)
  | [] => []
  | [a] => [digit (group a 0 0) 3, digit (group a 0 0) 2]
  | [a, b] => [digit (group a b 0) 3, digit (group a b 0) 2, digit (group a b 0) 1]
  | a :: b :: c :: rest =>
      [digit (group a b c) 3, digit (group a b c) 2, digit (group a b c) 1,
        digit (group a b c) 0] ++ digits rest

/-- Four digits as one number. -/
def value (p q r s : Fin 64) : Nat := p.val * 262144 + q.val * 4096 + r.val * 64 + s.val

/-- The byte of a number, counted from the lowest. -/
def octet (n k : Nat) : UInt8 := UInt8.ofNat (n / 256 ^ k)

def octets : List (Fin 64) → Option (List UInt8)
  | [] => some []
  | [_] => none
  | [p, q] =>
      if value p q 0 0 % 65536 = 0 then some [octet (value p q 0 0) 2] else none
  | [p, q, r] =>
      if value p q r 0 % 256 = 0 then some [octet (value p q r 0) 2, octet (value p q r 0) 1]
      else none
  | p :: q :: r :: s :: rest =>
      (octets rest).map ([octet (value p q r s) 2, octet (value p q r s) 1,
        octet (value p q r s) 0] ++ ·)

/-- The number of digits: `⌈4n/3⌉`. -/
theorem length_digits : ∀ bytes : List UInt8, (digits bytes).length = (4 * bytes.length + 2) / 3
  | [] => rfl
  | [_] => by simp [digits]
  | [_, _] => by simp [digits]
  | _ :: _ :: _ :: rest => by
      rw [digits, List.length_append, length_digits rest]
      simp only [List.length_cons, List.length_nil]
      omega

theorem val_digit (n k : Nat) : (digit n k).val = n / 64 ^ k % 64 := rfl

/-- The digits of a group are the group, up to the digits left out. -/
theorem value_digits {n : Nat} (h : n < 16777216) :
    value (digit n 3) (digit n 2) (digit n 1) (digit n 0) = n := by
  simp only [value, val_digit]
  omega

theorem group_lt (a b c : UInt8) : group a b c < 16777216 := by
  have ha := a.toNat_lt
  have hb := b.toNat_lt
  have hc := c.toNat_lt
  unfold group
  omega

theorem octet_eq {n k : Nat} {a : UInt8} (h : n / 256 ^ k % 256 = a.toNat) : octet n k = a := by
  apply UInt8.toNat_inj.mp
  rw [octet, UInt8.toNat_ofNat']
  exact h

/-- The bytes of a group are the bytes it was made of. -/
theorem octets_group (a b c : UInt8) :
    octet (group a b c) 2 = a ∧ octet (group a b c) 1 = b ∧ octet (group a b c) 0 = c := by
  have ha := a.toNat_lt
  have hb := b.toNat_lt
  have hc := c.toNat_lt
  refine ⟨octet_eq ?_, octet_eq ?_, octet_eq ?_⟩
  · unfold group
    omega
  · unfold group
    omega
  · unfold group
    omega

/-- The digits a short group is written without are zero. -/
theorem digit_group_zero (a b : UInt8) :
    digit (group a b 0) 0 = 0 ∧ digit (group a 0 0) 1 = 0 ∧ digit (group a 0 0) 0 = 0 := by
  have hzero : (0 : UInt8).toNat = 0 := rfl
  refine ⟨Fin.ext ?_, Fin.ext ?_, Fin.ext ?_⟩
  · rw [val_digit]
    show group a b 0 / 64 ^ 0 % 64 = 0
    unfold group
    omega
  · rw [val_digit]
    show group a 0 0 / 64 ^ 1 % 64 = 0
    unfold group
    omega
  · rw [val_digit]
    show group a 0 0 / 64 ^ 0 % 64 = 0
    unfold group
    omega

/-- Decoding the digits of a byte string gives it back. -/
theorem octets_digits : ∀ bytes : List UInt8, octets (digits bytes) = some bytes
  | [] => rfl
  | [a] => by
      have hvalue := value_digits (group_lt a 0 0)
      rw [(digit_group_zero a 0).2.1, (digit_group_zero a 0).2.2] at hvalue
      have hzero : group a 0 0 % 65536 = 0 := by
        have hz : (0 : UInt8).toNat = 0 := rfl
        unfold group
        omega
      rw [digits, octets, hvalue, if_pos hzero, (octets_group a 0 0).1]
  | [a, b] => by
      have hvalue := value_digits (group_lt a b 0)
      rw [(digit_group_zero a b).1] at hvalue
      have hzero : group a b 0 % 256 = 0 := by
        have hz : (0 : UInt8).toNat = 0 := rfl
        unfold group
        omega
      rw [digits, octets, hvalue, if_pos hzero, (octets_group a b 0).1, (octets_group a b 0).2.1]
  | a :: b :: c :: rest => by
      rw [digits, List.cons_append, List.cons_append, List.cons_append, List.cons_append,
        List.nil_append, octets, octets_digits rest, value_digits (group_lt a b c),
        (octets_group a b c).1, (octets_group a b c).2.1, (octets_group a b c).2.2]
      rfl

/-! ## Alphabets -/

structure Alphabet where
  chars : List Char
  length_eq : chars.length = 64
  nodup : chars.Nodup

namespace Alphabet

variable (A : Alphabet)

def char (d : Fin 64) : Char := A.chars.get (d.cast A.length_eq.symm)

/-- The digit a character stands for. -/
def index (c : Char) : Option (Fin 64) :=
  if h : A.chars.idxOf c < 64 then some ⟨A.chars.idxOf c, h⟩ else none

theorem char_mem (d : Fin 64) : A.char d ∈ A.chars := List.get_mem _ _

@[simp]
theorem index_char (d : Fin 64) : A.index (A.char d) = some d := by
  have hindex : A.chars.idxOf (A.char d) = d.val := A.nodup.idxOf_getElem d.val _
  unfold index
  rw [dif_pos (by rw [hindex]; exact d.isLt)]
  exact congrArg some (Fin.ext hindex)

/-- A byte string in the alphabet, without padding. -/
def encode (bytes : List UInt8) : List Char := (digits bytes).map A.char

/-- The bytes of an unpadded text, where it is one. -/
def decode (text : List Char) : Option (List UInt8) := (text.mapM A.index).bind octets

theorem mapM_index (ds : List (Fin 64)) : (ds.map A.char).mapM A.index = some ds := by
  induction ds with
  | nil => rfl
  | cons d ds ih =>
      rw [List.map_cons, List.mapM_cons, index_char, ih]
      rfl

@[simp]
theorem decode_encode (bytes : List UInt8) : A.decode (A.encode bytes) = some bytes := by
  rw [decode, encode, mapM_index, Option.bind_some, octets_digits]

theorem encode_injective : Function.Injective A.encode := by
  intro bytes bytes' h
  have hdecode := A.decode_encode bytes
  rw [h, decode_encode] at hdecode
  exact (Option.some.inj hdecode).symm

theorem length_encode (bytes : List UInt8) :
    (A.encode bytes).length = (4 * bytes.length + 2) / 3 := by
  rw [encode, List.length_map, length_digits]

theorem mem_of_mem_encode {bytes : List UInt8} {c : Char} (h : c ∈ A.encode bytes) :
    c ∈ A.chars := by
  obtain ⟨d, -, rfl⟩ := List.mem_map.mp h
  exact A.char_mem d

/-! ## Padding -/

/-- The character that fills a text up to whole groups. -/
def pad : Char := '='

/-- A byte string in the alphabet, filled up to groups of four characters. -/
def encodePadded (bytes : List UInt8) : List Char :=
  A.encode bytes ++ List.replicate ((3 - bytes.length % 3) % 3) pad

theorem rdropWhile_append_replicate (p : Char → Bool) {c : Char} (hc : p c = true)
    (text : List Char) (n : Nat) :
    (text ++ List.replicate n c).rdropWhile p = text.rdropWhile p := by
  induction n with
  | zero => rw [List.replicate_zero, List.append_nil]
  | succ n ih =>
      rw [List.replicate_succ', ← List.append_assoc, List.rdropWhile_concat_pos _ _ _ hc, ih]

/-- Stripping the padding gives the unpadded text, as long as no digit is written like it. -/
theorem rdropWhile_encodePadded (hpad : pad ∉ A.chars) (bytes : List UInt8) :
    (A.encodePadded bytes).rdropWhile (· == pad) = A.encode bytes := by
  rw [encodePadded, rdropWhile_append_replicate (· == pad) (beq_self_eq_true pad)]
  apply List.rdropWhile_eq_self_iff.mpr
  intro hne hlast
  have hmem := A.mem_of_mem_encode (List.getLast_mem hne)
  rw [eq_of_beq hlast] at hmem
  exact hpad hmem

/-- Rewriting one alphabet's characters as another's rewrites the encoding. -/
theorem map_encode {A B : Alphabet} {f : Char → Char} (hf : ∀ d, f (A.char d) = B.char d)
    (bytes : List UInt8) : (A.encode bytes).map f = B.encode bytes := by
  rw [encode, encode, List.map_map]
  exact List.map_congr_left fun d _ => hf d

theorem map_encodePadded {A B : Alphabet} {f : Char → Char} (hf : ∀ d, f (A.char d) = B.char d)
    (hpad : f pad = pad) (bytes : List UInt8) :
    (A.encodePadded bytes).map f = B.encodePadded bytes := by
  rw [encodePadded, encodePadded, List.map_append, map_encode hf, List.map_replicate, hpad]

end Alphabet

/-! ## The two standard alphabets -/

def standard : Alphabet where
  chars := "ABCDEFGHIJKLMNOPQRSTUVWXYZabcdefghijklmnopqrstuvwxyz0123456789+/".toList
  length_eq := by decide
  nodup := by decide

def urlSafe : Alphabet where
  chars := "ABCDEFGHIJKLMNOPQRSTUVWXYZabcdefghijklmnopqrstuvwxyz0123456789-_".toList
  length_eq := by decide
  nodup := by decide

end FissionPlane.Lib.Base64
