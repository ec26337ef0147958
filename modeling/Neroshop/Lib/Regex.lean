import Mathlib.Data.List.Infix
import Mathlib.Logic.Relation
import Mathlib.Tactic.TypeStar

/-!
# Regular expressions

A backtracking matcher for the expressions of the ECMAScript grammar, as far
as groups are not referred to: which expressions match, not what the groups
hold. The matcher goes through the input from the left; what it answers is
what is left of the input, for each way there is to match. In which order
the ways are tried, the difference between a greedy and a lazy star, does
not show in whether there is one.

`Takes` says what an expression matches, and has a rule for each kind of compound
expression.
-/

namespace Lib

variable {α : Type*}

/-- ECMAScript patterns over the elements of a list. -/
inductive Regex (α : Type*) where
  | nothing
  -- one element of a class
  | one (is : α → Bool)
  | seq (r s : Regex α)
  | alt (r s : Regex α)
  | star (r : Regex α)
  -- `(?=r)`
  | ahead (r : Regex α)
  -- `^`
  | start
  -- `$`
  | finish

namespace Regex

/-- `r+` -/
def plus (r : Regex α) : Regex α := .seq r (.star r)

/-- `r?` -/
def opt (r : Regex α) : Regex α := .alt r .nothing

/-- `r{n,}` -/
def atLeast (r : Regex α) : Nat → Regex α
  | 0 => .star r
  | n + 1 => .seq r (r.atLeast n)

/-- The expressions one after the other. -/
def seqs : List (Regex α) → Regex α
  | [] => .nothing
  | r :: rs => .seq r (seqs rs)

/-- What is left after any number of rounds of `f`, each of which takes
something, within a number of rounds. -/
def iterate (f : List α → List (List α)) : Nat → List α → List (List α)
  | 0, s => [s]
  | n + 1, s =>
      s :: (f s).flatMap fun t => if t.length < s.length then iterate f n t else []

/-- What is left of `s` after a match of the expression at its head, in an
input of the length `whole`. -/
def rests (whole : Nat) : Regex α → List α → List (List α)
  | .nothing, s => [s]
  | .one _, [] => []
  | .one is, c :: s => if is c then [s] else []
  | .seq q r, s => (rests whole q s).flatMap (rests whole r)
  | .alt q r, s => rests whole q s ++ rests whole r s
  -- a round that takes nothing is not one
  | .star r, s => iterate (rests whole r) s.length s
  | .ahead r, s => if (rests whole r s).isEmpty then [] else [s]
  | .start, s => if s.length = whole then [s] else []
  | .finish, s => if s.isEmpty then [s] else []

/-- `std::regex_match`: the expression matches the whole of `s`. -/
def regexMatch (r : Regex α) (s : List α) : Bool :=
  (r.rests s.length s).any List.isEmpty

/-- `std::regex_search`: the expression matches somewhere in `s`. -/
def regexSearch (r : Regex α) (s : List α) : Bool :=
  s.tails.any fun t => !(r.rests s.length t).isEmpty

/-! ## What is left after a match

One lemma per constructor: which texts are left. -/

variable {whole : Nat} {q r : Regex α} {s t : List α}

theorem mem_rests_nothing : t ∈ rests whole .nothing s ↔ t = s := by
  show t ∈ [s] ↔ _
  rw [List.mem_singleton]

theorem mem_rests_one {is : α → Bool} :
    t ∈ rests whole (.one is) s ↔ ∃ c, is c ∧ s = c :: t := by
  cases s with
  | nil =>
      show t ∈ [] ↔ _
      simp
  | cons c s =>
      show t ∈ (if is c then [s] else []) ↔ _
      constructor
      · intro h
        split at h
        case isTrue hc => exact ⟨c, hc, by rw [List.mem_singleton.mp h]⟩
        case isFalse => exact absurd h List.not_mem_nil
      · intro h
        rcases h with ⟨d, hd, heq⟩
        injection heq with hcd hst
        rw [if_pos (hcd ▸ hd), hst]
        exact List.mem_singleton_self t

theorem mem_rests_seq :
    t ∈ rests whole (.seq q r) s ↔ ∃ u ∈ rests whole q s, t ∈ rests whole r u := by
  show t ∈ (rests whole q s).flatMap (rests whole r) ↔ _
  rw [List.mem_flatMap]

theorem mem_rests_alt :
    t ∈ rests whole (.alt q r) s ↔ t ∈ rests whole q s ∨ t ∈ rests whole r s := by
  show t ∈ rests whole q s ++ rests whole r s ↔ _
  rw [List.mem_append]

theorem mem_rests_ahead :
    t ∈ rests whole (.ahead r) s ↔ t = s ∧ ∃ u, u ∈ rests whole r s := by
  show t ∈ (if (rests whole r s).isEmpty then [] else [s]) ↔ _
  cases h : rests whole r s with
  | nil => simp
  | cons u us => simp

theorem mem_rests_start : t ∈ rests whole .start s ↔ t = s ∧ s.length = whole := by
  show t ∈ (if s.length = whole then [s] else []) ↔ _
  split <;> simp_all

theorem mem_rests_finish : t ∈ rests whole .finish s ↔ t = s ∧ s = [] := by
  show t ∈ (if s.isEmpty then [s] else []) ↔ _
  cases s <;> simp

/-- One round of a star. -/
def Round (whole : Nat) (r : Regex α) (s t : List α) : Prop :=
  t ∈ rests whole r s ∧ t.length < s.length

theorem mem_iterate {f : List α → List (List α)} {n : Nat} (hn : s.length ≤ n) :
    t ∈ iterate f n s ↔
      Relation.ReflTransGen (fun s t => t ∈ f s ∧ t.length < s.length) s t := by
  induction n generalizing s with
  | zero =>
      have hs : s = [] := List.length_eq_zero_iff.mp (Nat.le_zero.mp hn)
      subst hs
      rw [iterate, List.mem_singleton, Relation.ReflTransGen.cases_head_iff]
      simp [eq_comm]
  | succ n ih =>
      rw [iterate, List.mem_cons, List.mem_flatMap, Relation.ReflTransGen.cases_head_iff]
      apply or_congr eq_comm
      constructor
      · intro h
        rcases h with ⟨u, hu, ht⟩
        split at ht
        case isTrue hlt => exact ⟨u, ⟨hu, hlt⟩, (ih (by omega)).mp ht⟩
        case isFalse => exact absurd ht List.not_mem_nil
      · intro h
        rcases h with ⟨u, ⟨hu, hlt⟩, ht⟩
        refine ⟨u, hu, ?_⟩
        rw [if_pos hlt]
        exact (ih (by omega)).mpr ht

theorem mem_rests_star :
    t ∈ rests whole (.star r) s ↔ Relation.ReflTransGen (Round whole r) s t := by
  show t ∈ iterate (rests whole r) s.length s ↔ _
  exact mem_iterate (Nat.le_refl _)

/-- A star of a class takes elements of the class. -/
theorem mem_rests_star_one {is : α → Bool} :
    t ∈ rests whole (.star (.one is)) s ↔ ∃ u, s = u ++ t ∧ ∀ c ∈ u, is c := by
  rw [mem_rests_star]
  constructor
  · intro h
    induction h using Relation.ReflTransGen.head_induction_on with
    | refl => exact ⟨[], rfl, by simp⟩
    | head hround _ ih =>
        rcases mem_rests_one.mp hround.1 with ⟨c, hc, rfl⟩
        rcases ih with ⟨u, rfl, hu⟩
        exact ⟨c :: u, rfl, List.forall_mem_cons.mpr ⟨hc, hu⟩⟩
  · intro h
    rcases h with ⟨u, rfl, hu⟩
    induction u with
    | nil => exact .refl
    | cons c u ih =>
        rw [List.forall_mem_cons] at hu
        refine .head ?_ (ih hu.2)
        exact ⟨mem_rests_one.mpr ⟨c, hu.1, rfl⟩, Nat.lt_succ_self _⟩

theorem mem_rests_plus_one {is : α → Bool} :
    t ∈ rests whole (plus (.one is)) s ↔ ∃ u, u ≠ [] ∧ s = u ++ t ∧ ∀ c ∈ u, is c := by
  rw [plus, mem_rests_seq]
  constructor
  · intro h
    rcases h with ⟨v, hv, ht⟩
    rcases mem_rests_one.mp hv with ⟨c, hc, rfl⟩
    rcases mem_rests_star_one.mp ht with ⟨u, rfl, hu⟩
    exact ⟨c :: u, List.cons_ne_nil c u, rfl, List.forall_mem_cons.mpr ⟨hc, hu⟩⟩
  · intro h
    rcases h with ⟨u, hne, rfl, hu⟩
    cases u with
    | nil => exact absurd rfl hne
    | cons c u =>
        rw [List.forall_mem_cons] at hu
        exact ⟨u ++ t, mem_rests_one.mpr ⟨c, hu.1, rfl⟩,
          mem_rests_star_one.mpr ⟨u, rfl, hu.2⟩⟩

theorem mem_rests_atLeast_one {is : α → Bool} {n : Nat} :
    t ∈ rests whole (atLeast (.one is) n) s ↔
      ∃ u, n ≤ u.length ∧ s = u ++ t ∧ ∀ c ∈ u, is c := by
  induction n generalizing s with
  | zero => simp [atLeast, mem_rests_star_one]
  | succ n ih =>
      rw [atLeast, mem_rests_seq]
      constructor
      · intro h
        rcases h with ⟨v, hv, ht⟩
        rcases mem_rests_one.mp hv with ⟨c, hc, rfl⟩
        rcases ih.mp ht with ⟨u, hlen, rfl, hu⟩
        exact ⟨c :: u, Nat.succ_le_succ hlen, rfl, List.forall_mem_cons.mpr ⟨hc, hu⟩⟩
      · intro h
        rcases h with ⟨u, hlen, rfl, hu⟩
        cases u with
        | nil => exact absurd hlen (Nat.not_succ_le_zero n)
        | cons c u =>
            rw [List.forall_mem_cons] at hu
            exact ⟨u ++ t, mem_rests_one.mpr ⟨c, hu.1, rfl⟩,
              ih.mpr ⟨u, Nat.le_of_succ_le_succ hlen, rfl, hu.2⟩⟩

/-- At the head of any text the expression takes just the texts in `P`. -/
def Takes (whole : Nat) (r : Regex α) (P : List α → Prop) : Prop :=
  ∀ s t, t ∈ rests whole r s ↔ ∃ u, P u ∧ s = u ++ t

variable {P Q : List α → Prop}

theorem Takes.congr (hr : Takes whole r P) (hPQ : ∀ u, P u ↔ Q u) : Takes whole r Q := by
  intro s t
  rw [hr s t]
  exact exists_congr fun u => and_congr_left' (hPQ u)

theorem Takes.one (is : α → Bool) :
    Takes whole (.one is) fun u => ∃ c, is c ∧ u = [c] := by
  intro s t
  rw [mem_rests_one]
  constructor
  · intro h
    rcases h with ⟨c, hc, rfl⟩
    exact ⟨[c], ⟨c, hc, rfl⟩, rfl⟩
  · intro h
    rcases h with ⟨u, ⟨c, hc, rfl⟩, rfl⟩
    exact ⟨c, hc, rfl⟩

theorem Takes.star_one (is : α → Bool) :
    Takes whole (.star (.one is)) fun u => ∀ c ∈ u, is c := by
  intro s t
  rw [mem_rests_star_one]
  exact exists_congr fun u => and_comm

theorem Takes.plus_one (is : α → Bool) :
    Takes whole (.plus (.one is)) fun u => u ≠ [] ∧ ∀ c ∈ u, is c := by
  intro s t
  rw [mem_rests_plus_one]
  constructor
  · intro h
    rcases h with ⟨u, hne, heq, hu⟩
    exact ⟨u, ⟨hne, hu⟩, heq⟩
  · intro h
    rcases h with ⟨u, ⟨hne, hu⟩, heq⟩
    exact ⟨u, hne, heq, hu⟩

theorem Takes.nothing : Takes whole (.nothing : Regex α) (· = []) := by
  intro s t
  rw [mem_rests_nothing]
  simp [eq_comm]

theorem Takes.seq (hq : Takes whole q P) (hr : Takes whole r Q) :
    Takes whole (.seq q r) fun w => ∃ u v, P u ∧ Q v ∧ w = u ++ v := by
  intro s t
  rw [mem_rests_seq]
  constructor
  · intro h
    rcases h with ⟨m, hm, ht⟩
    rcases (hq s m).mp hm with ⟨u, hu, rfl⟩
    rcases (hr m t).mp ht with ⟨v, hv, rfl⟩
    exact ⟨u ++ v, ⟨u, v, hu, hv, rfl⟩, (List.append_assoc u v t).symm⟩
  · intro h
    rcases h with ⟨_, ⟨u, v, hu, hv, rfl⟩, rfl⟩
    exact ⟨v ++ t, (hq _ _).mpr ⟨u, hu, List.append_assoc u v t⟩, (hr _ _).mpr ⟨v, hv, rfl⟩⟩

theorem Takes.alt (hq : Takes whole q P) (hr : Takes whole r Q) :
    Takes whole (.alt q r) fun u => P u ∨ Q u := by
  intro s t
  rw [mem_rests_alt, hq s t, hr s t, ← exists_or]
  exact exists_congr fun u => or_and_right.symm

theorem Takes.opt (hr : Takes whole r P) : Takes whole r.opt fun u => P u ∨ u = [] :=
  hr.alt .nothing

/-- A star takes any number of texts, one after the other. -/
theorem Takes.star (hr : Takes whole r P) :
    Takes whole (.star r) fun w =>
      ∃ us : List (List α), (∀ u ∈ us, P u) ∧ w = us.flatten := by
  intro s t
  rw [mem_rests_star]
  constructor
  · intro h
    induction h using Relation.ReflTransGen.head_induction_on with
    | refl => exact ⟨[], ⟨[], by simp, rfl⟩, rfl⟩
    | head hround _ ih =>
        rcases (hr _ _).mp hround.1 with ⟨u, hu, rfl⟩
        rcases ih with ⟨_, ⟨us, hus, rfl⟩, rfl⟩
        refine ⟨(u :: us).flatten, ⟨u :: us, List.forall_mem_cons.mpr ⟨hu, hus⟩, rfl⟩, ?_⟩
        rw [List.flatten_cons, List.append_assoc]
  · intro h
    rcases h with ⟨_, ⟨us, hus, rfl⟩, rfl⟩
    induction us with
    | nil => exact .refl
    | cons u us ih =>
        rw [List.forall_mem_cons] at hus
        rw [List.flatten_cons, List.append_assoc]
        -- a round that takes nothing is left out
        by_cases hnil : u = []
        · rw [hnil, List.nil_append]
          exact ih hus.2
        · refine .head ⟨(hr _ _).mpr ⟨u, hus.1, rfl⟩, ?_⟩ (ih hus.2)
          have hpos := List.length_pos_iff.mpr hnil
          simp only [List.length_append]
          omega

theorem Takes.plus (hr : Takes whole r P) :
    Takes whole r.plus fun w =>
      ∃ us : List (List α), us ≠ [] ∧ (∀ u ∈ us, P u) ∧ w = us.flatten := by
  apply (hr.seq hr.star).congr
  intro w
  constructor
  · intro h
    rcases h with ⟨u, _, hu, ⟨us, hus, rfl⟩, rfl⟩
    exact ⟨u :: us, List.cons_ne_nil u us, List.forall_mem_cons.mpr ⟨hu, hus⟩, rfl⟩
  · intro h
    rcases h with ⟨us, hne, hus, rfl⟩
    cases us with
    | nil => exact absurd rfl hne
    | cons u us =>
        rw [List.forall_mem_cons] at hus
        exact ⟨u, us.flatten, hus.1, ⟨us, hus.2, rfl⟩, rfl⟩

theorem regexMatch_iff : r.regexMatch s ↔ [] ∈ rests s.length r s := by
  simp [regexMatch]

/-- The whole of a text matches when it is one that the expression takes. -/
theorem Takes.regexMatch_iff (hr : Takes s.length r P) : r.regexMatch s ↔ P s := by
  rw [Regex.regexMatch_iff, hr s []]
  simp

theorem regexSearch_iff :
    r.regexSearch s ↔ ∃ t u, t <:+ s ∧ u ∈ rests s.length r t := by
  simp only [regexSearch, List.any_eq_true, List.mem_tails, Bool.not_eq_true',
    List.isEmpty_eq_false_iff_exists_mem]
  grind

end Regex

end Lib
