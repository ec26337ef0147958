import Neroshop.Validator.Rules

/-!
# Validator — the grammar of names

`validate_username` against the rules at the end of `validator.hpp`.

`validateUsername_iff`: it accepts exactly the names that keep these rules, on
every string of bytes.
-/

namespace Neroshop.Validator

open Lib Lib.CStr

/-- `tolower` in the C locale. -/
def toLower (c : Byte) : Byte := if isUpper c then c + 32 else c

/-- A letter, a digit or one of `-`, `_` and `.`. -/
def NameChar (c : Byte) : Prop := isAlnum c ∨ c = 45 ∨ c = 95 ∨ c = 46

instance (c : Byte) : Decidable (NameChar c) := inferInstanceAs (Decidable (_ ∨ _))

/-- The rules for a name. -/
structure NameRules (s : Bytes) : Prop where
  longEnough : 2 ≤ s.length
  shortEnough : s.length ≤ 30
  begins : ∀ c ∈ s.head?, isAlpha c
  ends : ∀ c ∈ s.getLast?, isAlnum c
  chars : ∀ c ∈ s, NameChar c
  -- in no case of the letters
  unreserved : s.map toLower ≠ ascii "guest"

theorem usernameChar_eq_none_iff (c : Byte) : usernameChar c = none ↔ NameChar c := by
  unfold usernameChar NameChar
  split
  case isTrue hspace =>
    have hother : ¬ (isAlnum c ∨ c = 45 ∨ c = 95 ∨ c = 46) := by
      simp only [isSpace, isAlnum, isAlpha, isUpper, isLower, isDigit, Bool.or_eq_true,
        Bool.and_eq_true, decide_eq_true_eq, beq_iff_eq, UInt8.le_iff_toNat_le,
        ← UInt8.toNat_inj, UInt8.reduceToNat] at hspace ⊢
      omega
    exact iff_of_false (Option.some_ne_none _) hother
  case isFalse =>
    split
    case isTrue hsymbol =>
      simp only [Bool.and_eq_true, Bool.not_eq_true', bne_iff_ne] at hsymbol
      refine iff_of_false (Option.some_ne_none _) ?_
      simp [hsymbol]
    case isFalse hsymbol =>
      refine iff_of_true rfl ?_
      by_contra hnone
      simp only [not_or] at hnone
      exact hsymbol (by simp [hnone])

/-- The loop over the characters comes to its end. -/
theorem findSome_usernameChar_iff (s : Bytes) :
    s.findSome? usernameChar = none ↔ ∀ c ∈ s, NameChar c := by
  simp only [List.findSome?_eq_none_iff, usernameChar_eq_none_iff]

/-- `lower` changes the upper case letters of a text in ASCII. -/
def LowersAscii (lower : Bytes → Bytes) : Prop :=
  ∀ s, (∀ c ∈ s, c < 128) → lower s = s.map toLower

theorem nameChar_lt {c : Byte} (h : NameChar c) : c < 128 := by
  simp only [NameChar, isAlnum, isAlpha, isUpper, isLower, isDigit, Bool.or_eq_true,
    Bool.and_eq_true, decide_eq_true_eq, UInt8.le_iff_toNat_le, UInt8.lt_iff_toNat_lt,
    ← UInt8.toNat_inj, UInt8.reduceToNat] at h ⊢
  omega

theorem refused {s : Bytes} {o : Output} (h : ¬ NameRules s) :
    ∃ v, some (refuse o) = some v ∧ (v.accepted = true ↔ NameRules s) :=
  ⟨refuse o, rfl, iff_of_false (Bool.false_ne_true) h⟩

/-- **The names that pass** are those that keep the rules. -/
theorem validateUsername_iff (lower : Bytes → Bytes) (hlower : LowersAscii lower)
    (s : Bytes) :
    ∃ v, validateUsername lower s = some v ∧ (v.accepted = true ↔ NameRules s) := by
  unfold validateUsername
  dsimp only
  split
  case isTrue hshort => exact refused fun h => absurd h.longEnough (by omega)
  case isFalse hlong =>
  split
  case isTrue hlong' => exact refused fun h => absurd h.shortEnough (by omega)
  case isFalse hshort =>
  split
  next o hloop =>
    apply refused
    intro h
    rw [(findSome_usernameChar_iff s).mpr h.chars] at hloop
    cases hloop
  next hloop =>
    have hchars := (findSome_usernameChar_iff s).mp hloop
    have hne : s ≠ [] := by
      rintro rfl
      exact hlong (by decide)
    have hlow : lower s = s.map toLower := hlower s fun c hc => nameChar_lt (hchars c hc)
    rw [charAt_findFirstOf hne, charAt_findLastOf hne, hlow]
    dsimp only [bind, Option.bind]
    have hhead : s.head? = some (s.head hne) := List.head?_eq_some_head hne
    have hlast : s.getLast? = some (s.getLast hne) := List.getLast?_eq_some_getLast hne
    split
    case isTrue hfirst =>
      apply refused
      intro h
      rw [h.begins _ hhead] at hfirst
      cases hfirst
    case isFalse hfirst =>
    split
    case isTrue hend =>
      apply refused
      intro h
      rw [h.ends _ hlast] at hend
      cases hend
    case isFalse hend =>
    split
    case isTrue hguest => exact refused fun h => h.unreserved hguest
    case isFalse hguest =>
      refine ⟨accept, rfl, iff_of_true rfl ?_⟩
      refine ⟨by omega, by omega, ?_, ?_, hchars, hguest⟩
      · intro c hc
        rw [hhead] at hc
        cases hc
        simpa using hfirst
      · intro c hc
        rw [hlast] at hc
        cases hc
        simpa using hend

theorem validateUsername_alice :
    LowersAscii (List.map toLower) ∧
      ∃ v, validateUsername (List.map toLower) (ascii "alice") = some v ∧
        (v.accepted = true ↔ NameRules (ascii "alice")) :=
  ⟨fun _ _ => rfl, validateUsername_iff _ (fun _ _ => rfl) (ascii "alice")⟩

end Neroshop.Validator
