import Mathlib.Tactic.TypeStar

/-!
# Runs

Runs of a deterministic step over a list of inputs. Whatever the step does
not determine by itself (a system call that fails, a random pick, the next
message of a peer) is part of the input, so a statement about every run is
a statement about every list of inputs.

`Along P` says that every step of a run satisfies `P`, read at the state
BEFORE the step. The rules below are the only inductions over runs that a
user of this module needs.
-/

namespace Lib.Runs

variable {σ ι : Type*} {step : σ → ι → σ} {P Q good : σ → ι → Prop}
  {Inv : σ → Prop}

/-- The state after the inputs `is`. -/
def run (step : σ → ι → σ) (s : σ) (is : List ι) : σ := is.foldl step s

/-- Every step of the run from `s` satisfies `P`. -/
def Along (step : σ → ι → σ) (P : σ → ι → Prop) : σ → List ι → Prop
  | _, [] => True
  | s, i :: is => P s i ∧ Along step P (step s i) is

@[simp] theorem run_nil (s : σ) : run step s [] = s := rfl

@[simp] theorem run_cons (s : σ) (i : ι) (is : List ι) :
    run step s (i :: is) = run step (step s i) is := rfl

@[simp] theorem along_nil (s : σ) : Along step P s [] := trivial

@[simp] theorem along_cons (s : σ) (i : ι) (is : List ι) :
    Along step P s (i :: is) ↔ P s i ∧ Along step P (step s i) is := Iff.rfl

theorem run_append (s : σ) (is js : List ι) :
    run step s (is ++ js) = run step (run step s is) js := List.foldl_append

theorem along_append (s : σ) (is js : List ι) :
    Along step P s (is ++ js) ↔ Along step P s is ∧ Along step P (run step s is) js := by
  induction is generalizing s with
  | nil => exact (and_iff_right trivial).symm
  | cons i is ih =>
      rw [List.cons_append, along_cons, along_cons, run_cons, ih, and_assoc]

instance instDecidableAlong [∀ s i, Decidable (P s i)] :
    ∀ (s : σ) (is : List ι), Decidable (Along step P s is)
  | _, [] => .isTrue trivial
  | s, i :: is =>
      have := instDecidableAlong (step s i) is
      inferInstanceAs (Decidable (P s i ∧ Along step P (step s i) is))

/-- **The run rule**: an invariant kept by every good step holds after
every run of good steps. -/
theorem Along.run_inv {s : σ} {is : List ι} (h : Along step good s is)
    (hstep : ∀ s i, Inv s → good s i → Inv (step s i)) (hs : Inv s) :
    Inv (run step s is) := by
  induction is generalizing s with
  | nil => exact hs
  | cons i is ih =>
      obtain ⟨hgood, hrest⟩ := h
      exact ih hrest (hstep s i hs hgood)

/-- **The run rule, unconditional**: an invariant kept by every step. -/
theorem run_inv (hstep : ∀ s i, Inv s → Inv (step s i)) {s : σ} (hs : Inv s)
    (is : List ι) : Inv (run step s is) := by
  induction is generalizing s with
  | nil => exact hs
  | cons i is ih => exact ih (hstep s i hs)

/-- A state that no step leaves is where its runs stay. -/
theorem run_fixed {s : σ} (h : ∀ i, step s i = s) (is : List ι) : run step s is = s := by
  have hstep : ∀ t i, t = s → step t i = s := by
    rintro t i rfl
    exact h i
  exact run_inv hstep rfl is

/-- What good steps do at states of the invariant holds along every run of
good steps. -/
theorem Along.of_inv {s : σ} {is : List ι} (h : Along step good s is)
    (hstep : ∀ s i, Inv s → good s i → Inv (step s i))
    (hP : ∀ s i, Inv s → good s i → P s i) (hs : Inv s) :
    Along step P s is := by
  induction is generalizing s with
  | nil => trivial
  | cons i is ih =>
      obtain ⟨hgood, hrest⟩ := h
      exact ⟨hP s i hs hgood, ih hrest (hstep s i hs hgood)⟩

/-- **The exactness rule**: where, at states of the invariant, a step
satisfies `P` exactly when it is good, and a step satisfying `P` keeps the
invariant, a run satisfies `P` at each of its steps exactly when all of
them are good. -/
theorem along_iff_of_exact (hexact : ∀ s i, Inv s → (P s i ↔ good s i))
    (hkeep : ∀ s i, Inv s → P s i → Inv (step s i)) {s : σ} (hs : Inv s)
    (is : List ι) : Along step P s is ↔ Along step good s is := by
  induction is generalizing s with
  | nil => exact Iff.rfl
  | cons i is ih =>
      simp only [along_cons]
      constructor
      · intro h
        obtain ⟨hP, hrest⟩ := h
        exact ⟨(hexact s i hs).mp hP, (ih (hkeep s i hs hP)).mp hrest⟩
      · intro h
        obtain ⟨hg, hrest⟩ := h
        have hP := (hexact s i hs).mpr hg
        exact ⟨hP, (ih (hkeep s i hs hP)).mpr hrest⟩

/-- **The last-state rule**: where good steps keep the invariant and one bad
step dooms the run for good, the last state passes `F` exactly when every
step was good. -/
theorem final_iff_along {Doomed F : σ → Prop}
    (hgood : ∀ s i, Inv s → good s i → Inv (step s i))
    (hbad : ∀ s i, Inv s → ¬ good s i → Doomed (step s i))
    (hdoomed : ∀ s i, Doomed s → Doomed (step s i))
    (hF : ∀ s, Inv s → F s) (hnot : ∀ s, Doomed s → ¬ F s) {s : σ} (hs : Inv s)
    (is : List ι) : F (run step s is) ↔ Along step good s is := by
  induction is generalizing s with
  | nil =>
      constructor
      · intro _
        trivial
      · intro _
        exact hF s hs
  | cons i is ih =>
      rw [run_cons, along_cons]
      by_cases hi : good s i
      · rw [ih (hgood s i hs hi)]
        exact (and_iff_right hi).symm
      · have hend := run_inv hdoomed (hbad s i hs hi) is
        constructor
        · intro h
          exact absurd h (hnot _ hend)
        · intro h
          exact absurd h.1 hi

theorem along_const_iff {p : ι → Prop} {s : σ} {is : List ι} :
    Along step (fun _ i => p i) s is ↔ ∀ i ∈ is, p i := by
  induction is generalizing s with
  | nil => simp
  | cons i is ih => simp [ih]

/-- The sum of a cost over the steps of the run from `s`. -/
def total (step : σ → ι → σ) (cost : σ → ι → Nat) : σ → List ι → Nat
  | _, [] => 0
  | s, i :: is => cost s i + total step cost (step s i) is

theorem total_mul (n : Nat) (cost : σ → ι → Nat) (s : σ) (is : List ι) :
    total step (fun s i => n * cost s i) s is = n * total step cost s is := by
  induction is generalizing s with
  | nil => rfl
  | cons i is ih => rw [total, total, ih, Nat.mul_add]

/-- **The ledger rule**: where every good step keeps the balance of what a
measure loses and what it gains, the run keeps it. -/
theorem Along.total_balance {measure : σ → Nat} {lost gained : σ → ι → Nat} {s : σ}
    {is : List ι} (h : Along step good s is)
    (hstep : ∀ s i, Inv s → good s i → Inv (step s i))
    (hbalance : ∀ s i, Inv s → good s i →
      measure (step s i) + lost s i = measure s + gained s i) (hs : Inv s) :
    measure (run step s is) + total step lost s is
      = measure s + total step gained s is := by
  induction is generalizing s with
  | nil => rfl
  | cons i is ih =>
      obtain ⟨hgood, hrest⟩ := h
      have hone := hbalance s i hs hgood
      have hmany := ih hrest (hstep s i hs hgood)
      simp only [run_cons, total]
      omega

end Lib.Runs
