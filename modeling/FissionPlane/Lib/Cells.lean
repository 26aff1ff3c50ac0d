/-
# FissionPlane.Lib.Cells -- shared mutable cells

A reference to a shared cell is an address. Copying the reference shares the cell: whoever holds
the address reads what was last written through any copy. A cell, once allocated, is never freed.
-/
import Mathlib.Data.List.Basic
import Mathlib.Tactic.Common

namespace FissionPlane.Lib

/-- The cells allocated so far. -/
structure Cells (τ : Type*) where
  contents : List τ

namespace Cells

variable {τ : Type*}

def empty : Cells τ := ⟨[]⟩

/-- A new cell, and its address. -/
def alloc (cells : Cells τ) (value : τ) : ℕ × Cells τ :=
  (cells.contents.length, ⟨cells.contents ++ [value]⟩)

/-- `none` at an address that was never allocated. -/
def read (cells : Cells τ) (address : ℕ) : Option τ := cells.contents[address]?

def write (cells : Cells τ) (address : ℕ) (value : τ) : Cells τ :=
  ⟨cells.contents.set address value⟩

theorem read_alloc (cells : Cells τ) (value : τ) :
    (cells.alloc value).2.read (cells.alloc value).1 = some value := by
  show (cells.contents ++ [value])[cells.contents.length]? = some value
  exact List.getElem?_concat_length

/-- A cell that can be read holds what is written to it. -/
theorem read_write {cells : Cells τ} {address : ℕ} {old : τ} (h : cells.read address = some old)
    (value : τ) : (cells.write address value).read address = some value := by
  obtain ⟨hlt, -⟩ := List.getElem?_eq_some_iff.mp h
  show (cells.contents.set address value)[address]? = some value
  exact List.getElem?_set_self hlt

/-- A new cell is none of the old ones. -/
theorem read_alloc_of_read {cells : Cells τ} {address : ℕ} {old : τ}
    (h : cells.read address = some old) (value : τ) :
    (cells.alloc value).2.read address = some old := by
  obtain ⟨hlt, -⟩ := List.getElem?_eq_some_iff.mp h
  show (cells.contents ++ [value])[address]? = some old
  rw [List.getElem?_append_left hlt]
  exact h

/-- What is written to one cell is not seen through another. -/
theorem read_write_ne {cells : Cells τ} {address other : ℕ} (h : address ≠ other) (value : τ) :
    (cells.write address value).read other = cells.read other :=
  List.getElem?_set_ne h

end Cells

end FissionPlane.Lib
