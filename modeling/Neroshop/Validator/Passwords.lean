import Neroshop.Validator.Rules

/-!
# Validator — passwords and their explanation

`validate_password` against the rules at the end of `validator.hpp`: which
passwords the look-ahead pattern takes, and which messages the searches print.

* `Explained`: the answer agrees with the rules, and what is printed about a
  password that is refused is which of them it breaks.
* `explained_iff`: it is so exactly for the `Plain` ones. The pattern reads one
  line, and the searches read a C string.
-/

namespace Neroshop.Validator

open Lib Lib.CStr Lib.Regex

/-! ## The rules -/

/-- The five rules. -/
inductive Rule where
  | upperCase
  | lowerCase
  | digit
  | special
  | longEnough
  deriving DecidableEq

/-- Whether a password keeps the rule. -/
def Rule.kept (p : Bytes) : Rule → Bool
  | .upperCase => p.any isUpper
  | .lowerCase => p.any isLower
  | .digit => p.any isDigit
  | .special => p.any isSpecial
  | .longEnough => 8 ≤ p.length

/-- What is printed about a rule that is not met. -/
def Rule.text : Rule → String
  | .upperCase => "Password must have at least one upper case letter"
  | .lowerCase => "Password must have at least one lower case letter"
  | .digit => "Password must have at least one digit"
  | .special => "Password must have at least one special character"
  | .longEnough => "Password must be at least 8 characters long"

/-- The line of it. -/
def Rule.message (r : Rule) : Output := .print (ascii r.text) 1

/-- The rules, in the order in which they are explained. -/
def Rule.all : List Rule := [.upperCase, .lowerCase, .digit, .special, .longEnough]

theorem Rule.mem_all (r : Rule) : r ∈ Rule.all := by
  cases r <;> decide

/-- The messages of the rules that are not kept. -/
def explain (kept : Rule → Bool) : List Output :=
  Rule.all.flatMap fun r => if kept r then [] else [r.message]

/-- The letter by which a message can be told from the others. -/
def Rule.letter : Rule → Byte
  | .upperCase => 117
  | .lowerCase => 108
  | .digit => 100
  | .special => 115
  | .longEnough => 97

theorem Rule.letter_spec (r : Rule) : (ascii r.text)[32]? = some r.letter := by
  cases r <;> rfl

theorem Rule.message_inj {r r' : Rule} (h : r.message = r'.message) : r = r' := by
  injection h with htext
  have hletter : r.letter = r'.letter := by
    apply Option.some.inj
    rw [← r.letter_spec, ← r'.letter_spec, htext]
  revert hletter
  cases r <;> cases r' <;> decide

theorem mem_explain {kept : Rule → Bool} {r : Rule} :
    r.message ∈ explain kept ↔ kept r = false := by
  rw [explain, List.mem_flatMap]
  constructor
  · intro h
    rcases h with ⟨r', -, hr⟩
    split at hr
    case isTrue => exact absurd hr List.not_mem_nil
    case isFalse hkept =>
      rw [Rule.message_inj (List.mem_singleton.mp hr)]
      simpa using hkept
  · intro h
    exact ⟨r, r.mem_all, by simp [h]⟩

theorem explain_inj {kept kept' : Rule → Bool} (h : explain kept = explain kept') (r : Rule) :
    kept r = kept' r := by
  have hiff : kept r = false ↔ kept' r = false := by
    rw [← mem_explain, ← mem_explain, h]
  cases hk : kept r <;> cases hk' : kept' r <;> simp_all

/-! ## The pattern and the searches -/

/-- No line terminator. -/
def OneLine (p : Bytes) : Prop := ∀ c ∈ p, c ≠ 10 ∧ c ≠ 13

instance (p : Bytes) : Decidable (OneLine p) := inferInstanceAs (Decidable (∀ c ∈ p, _))

theorem mem_rests_contains {is : Byte → Bool} {whole : Nat} {s t : Bytes} :
    t ∈ (contains is).rests whole s ↔
      t = s ∧ ∃ u c v, s = u ++ c :: v ∧ (∀ x ∈ u, x ≠ 10 ∧ x ≠ 13) ∧ is c := by
  rw [contains, mem_rests_ahead]
  apply and_congr_right
  intro _
  simp only [mem_rests_seq, anyChar, mem_rests_star_one, mem_rests_one, Bool.and_eq_true,
    bne_iff_ne]
  constructor
  · intro h
    rcases h with ⟨v, w, ⟨u, rfl, hu⟩, c, hc, rfl⟩
    exact ⟨u, c, v, rfl, hu, hc⟩
  · intro h
    rcases h with ⟨u, c, v, rfl, hu, hc⟩
    exact ⟨v, c :: v, ⟨u, rfl, hu⟩, c, hc, rfl⟩

/-- A search finds the class wherever it is: it can start right there. -/
theorem regexSearch_contains (is : Byte → Bool) (s : Bytes) :
    (contains is).regexSearch s = s.any is := by
  rw [Bool.eq_iff_iff, regexSearch_iff, List.any_eq_true]
  simp only [mem_rests_contains]
  constructor
  · intro h
    rcases h with ⟨t, -, hsuffix, -, u, c, v, rfl, -, hc⟩
    exact ⟨c, hsuffix.subset (by simp), hc⟩
  · intro h
    rcases h with ⟨c, hmem, hc⟩
    rcases List.append_of_mem hmem with ⟨u, v, rfl⟩
    exact ⟨c :: v, c :: v, List.suffix_append u _, rfl, [], c, v, rfl, by simp, hc⟩

/-- What the searches find out about the rules: they get the C string. -/
def Rule.seen (p : Bytes) : Rule → Bool
  | .longEnough => Rule.longEnough.kept p
  | r => r.kept (untilZero p)

theorem missing_eq (p : Bytes) (is : Byte → Bool) (text : String) :
    missing p is text = if (untilZero p).any is then [] else [.print (ascii text) 1] := by
  rw [missing, regexSearch_contains]

/-- A look-ahead from the start of a text in one line. -/
theorem ahead_iff {is : Byte → Bool} {p : Bytes} (hone : OneLine p) :
    (∃ u c v, p = u ++ c :: v ∧ (∀ x ∈ u, x ≠ 10 ∧ x ≠ 13) ∧ is c) ↔ p.any is := by
  rw [List.any_eq_true]
  constructor
  · intro h
    rcases h with ⟨u, c, v, rfl, -, hc⟩
    exact ⟨c, by simp, hc⟩
  · intro h
    rcases h with ⟨c, hmem, hc⟩
    rcases List.append_of_mem hmem with ⟨u, v, rfl⟩
    exact ⟨u, c, v, rfl, fun x hx => hone x (List.mem_append_left _ hx), hc⟩

theorem forall_rule (P : Rule → Prop) :
    (∀ r, P r) ↔
      P .upperCase ∧ P .lowerCase ∧ P .digit ∧ P .special ∧ P .longEnough := by
  constructor
  · intro h
    exact ⟨h _, h _, h _, h _, h _⟩
  · intro h r
    rcases h with ⟨hupper, hlower, hdigit, hspecial, hlong⟩
    cases r <;> assumption

/-- **What the pattern takes**: a password in one line that keeps the rules. -/
theorem passwordPattern_iff (p : Bytes) :
    passwordPattern.regexMatch p ↔ OneLine p ∧ ∀ r : Rule, r.kept p := by
  rw [regexMatch_iff, forall_rule]
  simp only [passwordPattern, seqs, anyChar, mem_rests_seq, mem_rests_start,
    mem_rests_contains, mem_rests_atLeast_one, mem_rests_finish, mem_rests_nothing,
    Bool.and_eq_true, bne_iff_ne, Rule.kept, decide_eq_true_eq]
  constructor
  · intro h
    rcases h with ⟨_, ⟨rfl, -⟩, _, ⟨rfl, hupper⟩, _, ⟨rfl, hlower⟩, _, ⟨rfl, hdigit⟩, _,
      ⟨rfl, hspecial⟩, _, ⟨u, hlen, rfl, hu⟩, _, ⟨rfl, rfl⟩, -⟩
    rw [List.append_nil] at *
    have hone : OneLine u := hu
    exact ⟨hone, (ahead_iff hone).mp hupper, (ahead_iff hone).mp hlower,
      (ahead_iff hone).mp hdigit, (ahead_iff hone).mp hspecial, hlen⟩
  · intro h
    rcases h with ⟨hone, hupper, hlower, hdigit, hspecial, hlen⟩
    exact ⟨p, ⟨rfl, trivial⟩, p, ⟨rfl, (ahead_iff hone).mpr hupper⟩, p,
      ⟨rfl, (ahead_iff hone).mpr hlower⟩, p, ⟨rfl, (ahead_iff hone).mpr hdigit⟩, p,
      ⟨rfl, (ahead_iff hone).mpr hspecial⟩, [], ⟨p, hlen, by simp, hone⟩, [],
      ⟨rfl, rfl⟩, rfl⟩

theorem validatePassword_eq (p : Bytes) :
    validatePassword p =
      if passwordPattern.regexMatch p then accept else ⟨false, explain (Rule.seen p)⟩ := by
  unfold validatePassword
  cases passwordPattern.regexMatch p with
  | true => rfl
  | false =>
      have hlong : (if p.length < 8 then
            [Output.print (ascii "Password must be at least 8 characters long") 1]
          else []) = if Rule.longEnough.kept p then [] else [Rule.longEnough.message] := by
        simp only [Rule.kept, decide_eq_true_eq]
        split
        case isTrue h => rw [if_neg (by omega)]; rfl
        case isFalse h => rw [if_pos (by omega)]
      simp only [missing_eq, hlong, Bool.not_false, if_true, Bool.false_eq_true, if_false]
      simp [explain, Rule.all, Rule.seen, Rule.kept, Rule.message, Rule.text]

/-- The searches find no class that the password lacks. -/
theorem Rule.kept_of_seen {p : Bytes} {r : Rule} (h : r.seen p = true) :
    r.kept p = true := by
  have hany : ∀ is : Byte → Bool, (untilZero p).any is = true → p.any is = true := by
    intro is h
    rcases List.any_eq_true.mp h with ⟨c, hc, his⟩
    exact List.any_eq_true.mpr ⟨c, (List.takeWhile_prefix _).subset hc, his⟩
  cases r with
  | longEnough => exact h
  | upperCase | lowerCase | digit | special => exact hany _ h

/-! ## The answer against the rules -/

/-- The password is accepted when it keeps the rules, and else the messages of
the rules that it breaks are printed, at least one. -/
def Explained (p : Bytes) : Prop :=
  let v := validatePassword p
  (v.accepted = true ↔ ∀ r : Rule, r.kept p) ∧
    (v.accepted = false → v.printed = explain (Rule.kept p) ∧ v.printed ≠ [])

/-- A password that keeps the rules is in one line; one that breaks a rule has
each class that it has before its first zero byte. -/
def Plain (p : Bytes) : Prop :=
  ((∀ r : Rule, r.kept p) → OneLine p) ∧
    ((∃ r : Rule, r.kept p = false) → ∀ r : Rule, r.kept p → r.seen p)

/-- **When the answer and its explanation agree with the rules.** -/
theorem explained_iff (p : Bytes) : Explained p ↔ Plain p := by
  unfold Explained Plain
  rw [validatePassword_eq]
  by_cases hall : ∀ r : Rule, r.kept p
  · have hnone : ¬ ∃ r : Rule, r.kept p = false := by
      rintro ⟨r, hr⟩
      rw [hall r] at hr
      cases hr
    by_cases hone : OneLine p
    · rw [if_pos ((passwordPattern_iff p).mpr ⟨hone, hall⟩)]
      simp [accept, hall, hone]
    · rw [if_neg fun h => hone ((passwordPattern_iff p).mp h).1]
      simp [hall, hone]
  · rw [if_neg fun h => hall ((passwordPattern_iff p).mp h).2]
    have hsome : ∃ r : Rule, r.kept p = false := by simpa using hall
    have hprinted : explain (Rule.seen p) = explain (Rule.kept p) ↔
        ∀ r : Rule, r.kept p → r.seen p := by
      constructor
      · intro h r hr
        rw [explain_inj h r]
        exact hr
      · intro h
        have heq : Rule.seen p = Rule.kept p := by
          funext r
          exact Bool.eq_iff_iff.mpr ⟨Rule.kept_of_seen, h r⟩
        rw [heq]
    have hmessage : explain (Rule.kept p) ≠ [] := by
      rcases hsome with ⟨r, hr⟩
      exact List.ne_nil_of_mem (mem_explain.mpr hr)
    dsimp only
    rw [← hprinted]
    constructor
    · intro h
      exact ⟨fun hk => absurd hk hall, fun _ => (h.2 rfl).1⟩
    · intro h
      have heq := h.2 hsome
      exact ⟨iff_of_false Bool.false_ne_true hall, fun _ => ⟨heq, heq ▸ hmessage⟩⟩

/-- A password that keeps the rules and ends in a newline is refused, and
nothing is printed. -/
theorem not_explained_newline : ¬ Explained (ascii "Abcdef1!\n") := by
  intro h
  have hkept : ∀ r : Rule, r.kept (ascii "Abcdef1!\n") := by
    intro r
    cases r <;> decide
  have haccepted := h.1.mpr hkept
  rw [validatePassword_eq, if_neg] at haccepted
  · cases haccepted
  · intro hmatch
    exact absurd ((passwordPattern_iff _).mp hmatch).1 (by decide)

end Neroshop.Validator
