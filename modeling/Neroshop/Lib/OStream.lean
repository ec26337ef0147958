import Mathlib.Data.Nat.Digits.Defs
import Neroshop.Lib.Hex

/-!
# Output streams

A `std::ostringstream` that numbers are written to: the text so far and the
format of the next number. The base and the fill character stay until they
are set again, the width is for one number.
-/

namespace Lib

open Lib.CStr Lib.Hex

/-- The text so far, and the format of the next number. -/
structure OStream where
  text : Bytes
  base : Nat
  width : Nat
  fill : Byte

namespace OStream

/-- A new stream. -/
def empty : OStream := ⟨[], 10, 0, 32⟩

/-- `std::hex` -/
def setHex (ss : OStream) : OStream := { ss with base := 16 }

/-- `std::setw` -/
def setw (ss : OStream) (width : Nat) : OStream := { ss with width := width }

/-- `std::setfill` -/
def setfill (ss : OStream) (fill : Byte) : OStream := { ss with fill := fill }

/-- The digits of a number, the highest first. -/
def numeral (base n : Nat) : Bytes :=
  if n = 0 then [digit 0] else (Nat.digits base n).reverse.map digit

/-- `ss << n`, for an `int` that is not negative. -/
def putInt (ss : OStream) (n : Nat) : OStream :=
  let text := numeral ss.base n
  let padding := List.replicate (ss.width - text.length) ss.fill
  { ss with text := ss.text ++ padding ++ text, width := 0 }

theorem numeral_of_lt {base n : Nat} (h : n < base) : numeral base n = [digit n] := by
  unfold numeral
  split
  · next hn => rw [hn]
  · next hn => rw [Nat.digits_of_lt base n hn h, List.reverse_singleton, List.map_singleton]

theorem numeral_of_ge {base n : Nat} (hbase : 1 < base) (h : base ≤ n) :
    numeral base n = numeral base (n / base) ++ [digit (n % base)] := by
  have hpos : 0 < n := by omega
  have hquot : n / base ≠ 0 := (Nat.div_pos h (by omega)).ne'
  rw [numeral, if_neg hpos.ne', Nat.digits_def' hbase hpos, numeral, if_neg hquot,
    List.reverse_cons, List.map_append, List.map_singleton]

/-- Padded with zeros, a byte is two digits. -/
theorem putInt_hexByte (ss : OStream) (b : Byte) :
    ((((ss.setHex).setw 2).setfill 48).putInt b.toNat).text = ss.text ++ hexByte b := by
  have hlt : b.toNat < 256 := b.toNat_lt
  show ss.text ++ List.replicate (2 - (numeral 16 b.toNat).length) 48 ++ numeral 16 b.toNat =
    ss.text ++ hexByte b
  rw [List.append_assoc]
  congr 1
  by_cases h : b.toNat < 16
  · have hhigh : b.toNat / 16 = 0 := by omega
    have hlow : b.toNat % 16 = b.toNat := by omega
    rw [numeral_of_lt h, hexByte, hhigh, hlow]
    rfl
  · have hquot : b.toNat / 16 < 16 := by omega
    rw [numeral_of_ge (by decide) (by omega), numeral_of_lt hquot]
    rfl

end OStream

end Lib
