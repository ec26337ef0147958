import Mathlib.Tactic.TypeStar

/-!
# `int` and `unsigned int`

The conversions of C between the two keep the 32 bits. Here is what they do
to the value.
-/

namespace Lib.Words

theorem lt_zero_iff (q : Int32) : q < 0 ↔ q.toInt < 0 := by
  rw [Int32.lt_iff_toInt_lt, Int32.toInt_zero]

theorem le_zero_iff (q : Int32) : q ≤ 0 ↔ q.toInt ≤ 0 := by
  rw [Int32.le_iff_toInt_le, Int32.toInt_zero]

theorem pos_iff (q : Int32) : 0 < q ↔ 0 < q.toInt := by
  rw [Int32.lt_iff_toInt_lt, Int32.toInt_zero]

/-- `int` to `unsigned int`: a negative number wraps round. -/
theorem toNat_toUInt32 (q : Int32) :
    (q.toUInt32.toNat : Int) =
      if q.toInt < 0 then q.toInt + 4294967296 else q.toInt := by
  show (q.toBitVec.toNat : Int)
    = if q.toBitVec.toInt < 0 then q.toBitVec.toInt + 4294967296 else q.toBitVec.toInt
  have h := q.toBitVec.isLt
  rw [BitVec.toInt_eq_toNat_cond]
  split <;> split <;> omega

/-- `unsigned int` to `int`: from 2³¹ on the number becomes negative. -/
theorem toInt_toInt32 (k : UInt32) :
    k.toInt32.toInt =
      if k.toNat < 2147483648 then (k.toNat : Int) else k.toNat - 4294967296 := by
  show k.toBitVec.toInt
    = if k.toBitVec.toNat < 2147483648 then (k.toBitVec.toNat : Int)
      else k.toBitVec.toNat - 4294967296
  have h := k.toBitVec.isLt
  rw [BitVec.toInt_eq_toNat_cond]
  split <;> split <;> omega

end Lib.Words
