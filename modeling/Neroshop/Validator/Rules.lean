import Neroshop.Lib.CStr
import Neroshop.Lib.Regex

/-!
# Validator — the rules for names and passwords

`validator.cpp`: `validate_username` and `validate_password`, with what they
print. The classes of characters are those of the C locale. `String::lower`
is a parameter.

What is printed is kept with what is answered (`Verdict`), since the messages are
part of what the checks promise.
-/

namespace Neroshop.Validator

open Lib Lib.CStr

/-- What goes to the terminal: a text behind `NEROSHOP_TAG_OUT`, or a text of
`neroshop::print` with its colour code. -/
inductive Output where
  | line (text : Bytes)
  | print (text : Bytes) (code : Nat)
  deriving DecidableEq

/-- What a check answers, and what it prints. -/
structure Verdict where
  accepted : Bool
  printed : List Output
  deriving DecidableEq

/-- The check is passed in silence. -/
def accept : Verdict := ⟨true, []⟩

/-- The check is not passed, for one reason. -/
def refuse (o : Output) : Verdict := ⟨false, [o]⟩

/-! ## `ctype` -/

/-- `std::isspace` in the C locale. -/
def isSpace (c : Byte) : Bool := (9 ≤ c && c ≤ 13) || c == 32

/-- `std::isupper` in the C locale. -/
def isUpper (c : Byte) : Bool := 65 ≤ c && c ≤ 90

/-- `std::islower` in the C locale. -/
def isLower (c : Byte) : Bool := 97 ≤ c && c ≤ 122

/-- `std::isdigit` -/
def isDigit (c : Byte) : Bool := 48 ≤ c && c ≤ 57

/-- `std::isalpha` in the C locale. -/
def isAlpha (c : Byte) : Bool := isUpper c || isLower c

/-- `std::isalnum` in the C locale. -/
def isAlnum (c : Byte) : Bool := isAlpha c || isDigit c

/-! ## Names -/

/-- One turn of the loop over the characters: what it complains about. -/
def usernameChar (c : Byte) : Option Output :=
  if isSpace c then some (.line (ascii "Your username cannot contain any spaces"))
  else if !isAlnum c && c != 45 && c != 95 && c != 46 then
    some (.line (ascii "Your username cannot contain any symbols except (-, _, .): "
      ++ [c]))
  else none

/-- `s.find_first_of(chars)` -/
def findFirstOf (s chars : Bytes) : Option Nat := s.findIdx? chars.contains

/-- `s.find_last_of(chars)` -/
def findLastOf (s chars : Bytes) : Option Nat :=
  (s.reverse.findIdx? chars.contains).map (s.length - 1 - ·)

/-- `s.at(i)`; `none` is `std::out_of_range`, as for `npos`. -/
def charAt (s : Bytes) (i : Option Nat) : Option Byte := i.bind (s[·]?)

/-- `validate_username`; `none` is an exception. -/
def validateUsername (lower : Bytes → Bytes) (username : Bytes) : Option Verdict :=
  let minUserLength := 2
  let maxUserLength := 30
  if username.length < minUserLength then
    some (refuse (.line (ascii "Your username must be at least "
      ++ ascii (toString minUserLength) ++ ascii " characters in length")))
  else if maxUserLength < username.length then
    some (refuse (.line (ascii "Your username must be at least "
      ++ ascii (toString maxUserLength) ++ ascii " characters in length")))
  else
    match username.findSome? usernameChar with
    | some o => some (refuse o)
    | none => do
        let firstChar ← charAt username (findFirstOf username username)
        if !isAlpha firstChar then
          return refuse (.line (ascii "Your username must begin with a letter: "
            ++ [firstChar]))
        let lastChar ← charAt username (findLastOf username username)
        if !isAlnum lastChar then
          return refuse (.line (ascii "Your username must end with a letter or number: "
            ++ [lastChar]))
        if lower username = ascii "guest" then
          return refuse (.print
            (ascii "The name \"Guest\" is reserved for guests ONLY") 0)
        return accept

theorem charAt_findFirstOf {s : Bytes} (h : s ≠ []) :
    charAt s (findFirstOf s s) = some (s.head h) := by
  cases s with
  | nil => exact absurd rfl h
  | cons b s =>
      have hfirst : findFirstOf (b :: s) (b :: s) = some 0 := by
        rw [findFirstOf, List.findIdx?_cons, if_pos (List.contains_iff_mem.mpr
          List.mem_cons_self)]
      rw [hfirst]
      rfl

theorem charAt_findLastOf {s : Bytes} (h : s ≠ []) :
    charAt s (findLastOf s s) = some (s.getLast h) := by
  obtain ⟨pre, b, rfl⟩ : ∃ pre b, s = pre ++ [b] :=
    ⟨_, _, (List.dropLast_append_getLast h).symm⟩
  have hlast : findLastOf (pre ++ [b]) (pre ++ [b]) = some pre.length := by
    rw [findLastOf, List.reverse_concat, List.findIdx?_cons,
      if_pos (List.contains_iff_mem.mpr (List.mem_concat_self))]
    simp
  rw [hlast]
  simp [charAt]

/-- The loop passes only over texts that have a first and a last character. -/
theorem validateUsername_isSome (lower : Bytes → Bytes) (username : Bytes) :
    (validateUsername lower username).isSome := by
  unfold validateUsername
  dsimp only
  split
  · rfl
  · next hlen =>
      have hne : username ≠ [] := by
        rintro rfl
        exact hlen (by decide)
      split
      · rfl
      · split
        · rfl
        · rw [charAt_findFirstOf hne, charAt_findLastOf hne]
          dsimp only [bind, Option.bind]
          split
          · rfl
          · split
            · rfl
            · split <;> rfl

/-! ## Passwords -/

/-- `.`: every character but the line terminators. -/
def anyChar : Regex Byte := .one fun c => c != 10 && c != 13

/-- `[#?!@$%^&*-]` -/
def isSpecial (c : Byte) : Bool := (ascii "#?!@$%^&*-").contains c

/-- `(?=.*?[…])` -/
def contains (is : Byte → Bool) : Regex Byte :=
  .ahead (.seq (.star anyChar) (.one is))

/-- `^(?=.*?[A-Z])(?=.*?[a-z])(?=.*?[0-9])(?=.*?[#?!@$%^&*-]).{8,}$` -/
def passwordPattern : Regex Byte :=
  .seqs [.start, contains isUpper, contains isLower, contains isDigit,
    contains isSpecial, anyChar.atLeast 8, .finish]

/-- A message that is printed when `password.c_str()` does not contain the
class. -/
def missing (password : Bytes) (is : Byte → Bool) (text : String) : List Output :=
  if (contains is).regexSearch (untilZero password) then [] else [.print (ascii text) 1]

/-- `validate_password`: one pattern decides, and five searches explain. -/
def validatePassword (password : Bytes) : Verdict :=
  if !passwordPattern.regexMatch password then
    ⟨false,
      missing password isUpper "Password must have at least one upper case letter"
      ++ missing password isLower "Password must have at least one lower case letter"
      ++ missing password isDigit "Password must have at least one digit"
      ++ missing password isSpecial "Password must have at least one special character"
      ++ if password.length < 8 then
          [.print (ascii "Password must be at least 8 characters long") 1]
        else []⟩
  else accept

end Neroshop.Validator
