import Neroshop.Lib.CStr

/-!
# Hexadecimal texts

Bytes written as two lower-case hexadecimal digits each.

`hex` is injective, and its texts hold no zero byte.
-/

namespace Lib.Hex

open Lib.CStr

/-- A hexadecimal digit, in lower case. -/
def digit (n : Nat) : Byte := if n < 10 then UInt8.ofNat (48 + n) else UInt8.ofNat (87 + n)

/-- One byte, `std::hex` with `std::setw(2)` and `std::setfill('0')`. -/
def hexByte (b : Byte) : Bytes := [digit (b.toNat / 16), digit (b.toNat % 16)]

/-- Bytes as text. -/
def hex (bytes : Bytes) : Bytes := bytes.flatMap hexByte

theorem digit_toNat {n : Nat} (h : n < 16) :
    (digit n).toNat = if n < 10 then 48 + n else 87 + n := by
  unfold digit
  split
  · exact UInt8.toNat_ofNat_of_lt (show 48 + n < 256 by omega)
  · exact UInt8.toNat_ofNat_of_lt (show 87 + n < 256 by omega)

/-! ## Reading a text back -/

/-- A lower-case hexadecimal digit. -/
def HexDigit (b : Byte) : Prop := (48 ≤ b ∧ b ≤ 57) ∨ (97 ≤ b ∧ b ≤ 102)

instance (b : Byte) : Decidable (HexDigit b) := inferInstanceAs (Decidable (_ ∨ _))

/-- The number of a digit. -/
def digitValue (b : Byte) : Nat := if b.toNat < 58 then b.toNat - 48 else b.toNat - 87

/-- The bytes of a text of pairs of digits. -/
def unhex : Bytes → Bytes
  | high :: low :: text =>
      UInt8.ofNat (16 * digitValue high + digitValue low) :: unhex text
  | _ => []

theorem digitValue_digit {n : Nat} (h : n < 16) : digitValue (digit n) = n := by
  rw [digitValue, digit_toNat h]
  split <;> split at * <;> omega

theorem hexDigit_digit {n : Nat} (h : n < 16) : HexDigit (digit n) := by
  unfold HexDigit
  simp only [UInt8.le_iff_toNat_le, digit_toNat h, UInt8.reduceToNat]
  split <;> omega

theorem hex_cons (b : Byte) (bytes : Bytes) : hex (b :: bytes) = hexByte b ++ hex bytes :=
  List.flatMap_cons

theorem length_hex (bytes : Bytes) : (hex bytes).length = 2 * bytes.length := by
  induction bytes with
  | nil => rfl
  | cons b bytes ih =>
      rw [hex_cons, List.length_append, ih, List.length_cons]
      show 2 + 2 * bytes.length = 2 * (bytes.length + 1)
      omega

theorem hexDigit_of_mem_hex {bytes : Bytes} {c : Byte} (h : c ∈ hex bytes) : HexDigit c := by
  rcases List.mem_flatMap.mp h with ⟨b, -, hb⟩
  have hlt : b.toNat < 256 := b.toNat_lt
  rcases List.mem_cons.mp hb with rfl | hlow
  · exact hexDigit_digit (by omega)
  · rw [List.mem_singleton.mp hlow]
    exact hexDigit_digit (by omega)

theorem zero_notMem_hex (bytes : Bytes) : 0 ∉ hex bytes := by
  intro h
  exact absurd (hexDigit_of_mem_hex h) (by decide)

theorem unhex_hex (bytes : Bytes) : unhex (hex bytes) = bytes := by
  induction bytes with
  | nil => rfl
  | cons b bytes ih =>
      have hlt : b.toNat < 256 := b.toNat_lt
      rw [hex_cons]
      show UInt8.ofNat (16 * digitValue (digit (b.toNat / 16))
        + digitValue (digit (b.toNat % 16))) :: unhex (hex bytes) = b :: bytes
      rw [digitValue_digit (by omega), digitValue_digit (by omega), Nat.div_add_mod,
        UInt8.ofNat_toNat, ih]

theorem hex_injective : Function.Injective hex :=
  Function.LeftInverse.injective unhex_hex

end Lib.Hex
