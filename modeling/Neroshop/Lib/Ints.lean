import Mathlib.Tactic.TypeStar

/-!
# Numbers of different widths

`int` and `std::size_t`, of 32 and of 64 bits, and the conversions between
them: an `int` is extended by its sign, and a `std::size_t` is cut off.
-/

namespace Lib.Ints

/-- An `int` where a `std::size_t` is wanted. -/
def toSize (i : Int32) : UInt64 := .ofInt i.toInt

/-- A `std::size_t` where an `int` is wanted. -/
def toInt32 (n : UInt64) : Int32 := .ofInt n.toNat

/-- There is an `int` for this number. -/
def InRange (n : Int) : Prop := -2147483648 ≤ n ∧ n ≤ 2147483647

instance (n : Int) : Decidable (InRange n) := inferInstanceAs (Decidable (_ ∧ _))

theorem inRange_toInt (i : Int32) : InRange i.toInt := ⟨i.le_toInt, i.toInt_le⟩

theorem toNat_ofInt (n : Int) :
    (UInt64.ofInt n).toNat = (n % 18446744073709551616).toNat := by
  apply UInt64.toNat_ofNat_of_lt'
  show (n % 18446744073709551616).toNat < 18446744073709551616
  omega

theorem toNat_toSize (i : Int32) :
    ((toSize i).toNat : Int) =
      if 0 ≤ i.toInt then i.toInt else 18446744073709551616 + i.toInt := by
  have hrange := inRange_toInt i
  unfold InRange at hrange
  rw [toSize, toNat_ofInt]
  split <;> omega

theorem toInt_ofInt {n : Int} (h : InRange n) : (Int32.ofInt n).toInt = n := by
  unfold InRange at h
  rw [Int32.toInt_ofInt]
  apply Int.bmod_eq_of_le
  · show -((4294967296 : Int) / 2) ≤ n
    omega
  · show n < ((4294967296 : Int) + 1) / 2
    omega

theorem toInt_add {a b : Int32} (h : InRange (a.toInt + b.toInt)) :
    (a + b).toInt = a.toInt + b.toInt := by
  rw [← toInt_ofInt h, Int32.ofInt_add, Int32.ofInt_toInt, Int32.ofInt_toInt]

theorem toInt_sub {a b : Int32} (h : InRange (a.toInt - b.toInt)) :
    (a - b).toInt = a.toInt - b.toInt := by
  rw [← toInt_ofInt h, Int32.ofInt_sub, Int32.ofInt_toInt, Int32.ofInt_toInt]

/-- Only the low 32 bits count. -/
theorem ofInt_eq_of_emod {m n : Int} (h : m % 4294967296 = n % 4294967296) :
    Int32.ofInt m = Int32.ofInt n := by
  rw [← Int32.toInt_inj, Int32.toInt_ofInt, Int32.toInt_ofInt]
  show m.bmod 4294967296 = n.bmod 4294967296
  rw [← Int.emod_bmod m, ← Int.emod_bmod n]
  exact congrArg (Int.bmod · 4294967296) h

theorem toInt32_of_inRange {n : UInt64} (h : InRange n.toNat) :
    (toInt32 n).toInt = n.toNat := toInt_ofInt h

/-- A sum of both widths, taken in 64 bits and cut off. -/
theorem toInt32_toSize_add (i : Int32) (n : UInt64) :
    toInt32 (toSize i + n) = i + toInt32 n := by
  have hsum : toInt32 (toSize i + n) = Int32.ofInt (i.toInt + n.toNat) := by
    apply ofInt_eq_of_emod
    rw [UInt64.toNat_add, toSize, toNat_ofInt]
    omega
  rw [hsum, Int32.ofInt_add, Int32.ofInt_toInt]
  rfl

end Lib.Ints
