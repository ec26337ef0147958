import Mathlib.Tactic.TypeStar

/-!
# Vectors

A `std::vector`, with its size and its positions as 64-bit unsigned numbers.
-/

namespace Lib

/-- A vector has at most `PTRDIFF_MAX` elements. -/
structure StdVector (α : Type*) where
  toList : List α
  length_le : toList.length ≤ 9223372036854775807

namespace StdVector

variable {α : Type*} {v : StdVector α} {index : UInt64}

/-- A vector without elements. -/
def empty : StdVector α := ⟨[], Nat.zero_le _⟩

/-- `size()` -/
def size (v : StdVector α) : UInt64 := .ofNat v.toList.length

/-- `operator[]`; `none` is a read behind the last element. -/
def get (v : StdVector α) (index : UInt64) : Option α := v.toList[index.toNat]?

theorem toNat_size (v : StdVector α) : v.size.toNat = v.toList.length := by
  have hle := v.length_le
  exact UInt64.toNat_ofNat_of_lt' (show v.toList.length < 18446744073709551616 by omega)

theorem toNat_size_sub_one (h : v.toList ≠ []) :
    (v.size - 1).toNat = v.toList.length - 1 := by
  have hpos := List.length_pos_iff.mpr h
  rw [UInt64.toNat_sub_of_le, toNat_size]
  · rfl
  · rw [UInt64.le_iff_toNat_le, toNat_size]
    exact hpos

/-- Of a vector with elements, the positions are up to `size() - 1`. -/
theorem size_sub_one_lt_iff (h : v.toList ≠ []) :
    v.size - 1 < index ↔ v.toList.length ≤ index.toNat := by
  have hpos := List.length_pos_iff.mpr h
  rw [UInt64.lt_iff_toNat_lt, toNat_size_sub_one h]
  omega

/-- With no element `size() - 1` is the largest number there is. -/
theorem not_size_sub_one_lt (h : v.toList = []) : ¬ v.size - 1 < index := by
  have hlt := index.toNat_lt
  have hsize : v.size = 0 := by rw [size, h]; rfl
  rw [UInt64.lt_iff_toNat_lt, hsize]
  show ¬ 18446744073709551615 < index.toNat
  omega

end StdVector

end Lib
