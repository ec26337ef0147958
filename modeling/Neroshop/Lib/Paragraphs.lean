import Mathlib.Data.List.Chain

/-!
# Paragraphs

A paragraph of a list of lines is a maximal run of consecutive non-empty
lines, joined with the line separator. `paragraphs` says so outright;
`collect` is the one-pass form, over an accumulator, that a program runs.
-/

namespace Lib.Paragraphs

variable {α : Type*} {sep : α} {para l m : List α} {ls : List (List α)}

/-- The paragraphs of a list of lines. -/
def paragraphs (sep : α) (ls : List (List α)) : List (List α) :=
  ((ls.splitOnP List.isEmpty).filter (!·.isEmpty)).map (List.intercalate [sep])

/-- The accumulator with one more line. -/
def extend (sep : α) (para line : List α) : List α :=
  if para.isEmpty then line else para ++ sep :: line

/-- The paragraphs of the lines to come, behind an open paragraph `para`. -/
def collect (sep : α) : List α → List (List α) → List (List α)
  | para, [] => if para.isEmpty then [] else [para]
  | para, line :: ls =>
      if line.isEmpty then
        if para.isEmpty then collect sep [] ls else para :: collect sep [] ls
      else collect sep (extend sep para line) ls

@[simp] theorem collect_open_nil (h : para ≠ []) :
    collect sep para [] = [para] := by
  simp [collect, h]

@[simp] theorem collect_nil_nil : collect sep [] [] = [] := rfl

theorem collect_blank (h : para ≠ []) :
    collect sep para ([] :: ls) = para :: collect sep [] ls := by
  simp [collect, h]

@[simp] theorem collect_nil_blank :
    collect sep [] ([] :: ls) = collect sep [] ls := rfl

theorem collect_line (h : l ≠ []) :
    collect sep para (l :: ls) = collect sep (extend sep para l) ls := by
  simp [collect, h]

@[simp] theorem extend_nil : extend sep [] l = l := rfl

theorem extend_ne_nil (h : l ≠ []) : extend sep para l ≠ [] := by
  unfold extend
  split <;> simp [h]

/-! ## The one-pass form -/

theorem intercalate_snoc {run : List (List α)} (hne : run ≠ []) (l : List α) :
    [sep].intercalate (run ++ [l]) = [sep].intercalate run ++ sep :: l := by
  induction run with
  | nil => exact absurd rfl hne
  | cons m run ih =>
      cases run with
      | nil => simp
      | cons m' run =>
          rw [List.intercalate_cons_cons, List.append_assoc, List.append_assoc,
            ← ih (by simp)]
          simp

theorem intercalate_eq_nil {run : List (List α)} (h : ∀ l ∈ run, l ≠ []) :
    [sep].intercalate run = [] ↔ run = [] := by
  cases run with
  | nil => simp
  | cons m run =>
      have hm := h m (by simp)
      cases run <;> simp [hm]

theorem extend_intercalate {run : List (List α)} (h : ∀ l ∈ run, l ≠ [])
    (l : List α) :
    extend sep ([sep].intercalate run) l = [sep].intercalate (run ++ [l]) := by
  by_cases hrun : run = []
  · simp [hrun, extend]
  · have hopen : [sep].intercalate run ≠ [] := mt (intercalate_eq_nil h).mp hrun
    simp [extend, hopen, intercalate_snoc hrun]

/-- **The one-pass form**: an open run is as good as its lines put back. -/
theorem collect_intercalate {run : List (List α)} (h : ∀ l ∈ run, l ≠ [])
    (ls : List (List α)) :
    collect sep ([sep].intercalate run) ls = paragraphs sep (run ++ ls) := by
  have hblank : ∀ l ∈ run, l.isEmpty = false := by simpa using h
  induction ls generalizing run with
  | nil =>
      rw [List.append_nil, paragraphs, List.splitOnP_eq_singleton hblank]
      by_cases hrun : run = []
      · simp [hrun, collect]
      · simp [hrun, collect_open_nil (mt (intercalate_eq_nil h).mp hrun)]
  | cons l ls ih =>
      have hnil : collect sep [] ls = paragraphs sep ls :=
        @ih [] (by simp) (by simp)
      by_cases hl : l = []
      · subst hl
        rw [paragraphs,
          List.splitOnP_append_cons_of_forall_mem hblank [] rfl ls]
        by_cases hrun : run = []
        · subst hrun
          simpa [paragraphs] using hnil
        · rw [collect_blank (mt (intercalate_eq_nil h).mp hrun)]
          simpa [hrun, paragraphs] using hnil
      · have hsnoc : ∀ m ∈ run ++ [l], m ≠ [] := by
          simpa [or_imp, forall_and] using ⟨h, hl⟩
        rw [collect_line hl, extend_intercalate h,
          ih hsnoc (by simpa using hsnoc), List.append_assoc]
        rfl

theorem collect_nil (ls : List (List α)) :
    collect sep [] ls = paragraphs sep ls := by
  exact @collect_intercalate _ sep [] (by simp) ls

/-! ## What is in the paragraphs -/

theorem length_splitOn_le [BEq α] (sep : α) (xs : List α) :
    (xs.splitOn sep).length ≤ xs.length + 1 := by
  induction xs with
  | nil => simp
  | cons x xs ih =>
      rw [List.splitOn_cons_eq_if_modifyHead]
      split <;> simp only [List.length_cons, List.length_modifyHead] <;> omega

section Characters

variable [BEq α] [LawfulBEq α]

theorem not_mem_of_mem_splitOn {xs : List α} (h : l ∈ xs.splitOn sep) :
    sep ∉ l := by
  induction xs generalizing l with
  | nil => simp_all
  | cons x xs ih =>
      obtain ⟨m, ms, hxs⟩ := List.exists_cons_of_ne_nil (List.splitOn_ne_nil sep xs)
      rw [List.splitOn_cons_eq_if_modifyHead] at h
      by_cases hx : x = sep
      · rcases List.mem_cons.mp (by simpa [hx] using h) with rfl | h
        · exact List.not_mem_nil
        · exact ih h
      · rw [if_neg (by simpa using hx), hxs] at h
        rcases List.mem_cons.mp h with rfl | h
        · have hm : sep ∉ m := ih (by simp [hxs])
          simpa [hm] using Ne.symm hx
        · exact ih (by simp [hxs, h])

theorem filter_line (h : sep ∉ l) : l.filter (· != sep) = l := by
  rw [List.filter_eq_self]
  intro b hb
  exact bne_iff_ne.mpr (ne_of_mem_of_not_mem hb h)

theorem filter_extend (h : sep ∉ l) :
    (extend sep para l).filter (· != sep) = para.filter (· != sep) ++ l := by
  unfold extend
  split
  next hp => simp [List.isEmpty_iff.mp hp, filter_line h]
  next => simp [filter_line h]

theorem filter_collect (h : ∀ l ∈ ls, sep ∉ l) (para : List α) :
    (collect sep para ls).flatten.filter (· != sep)
      = para.filter (· != sep) ++ ls.flatten := by
  induction ls generalizing para with
  | nil =>
      by_cases hp : para = []
      · simp [hp]
      · simp [collect_open_nil hp]
  | cons l ls ih =>
      have hl : sep ∉ l := h l (by simp)
      have hls := ih fun m hm => h m (by simp [hm])
      by_cases hl0 : l = []
      · subst hl0
        by_cases hp : para = []
        · simp [hp, hls]
        · simp [collect_blank hp, hls]
      · rw [collect_line hl0, hls, filter_extend hl]
        simp

/-- **Nothing but the lines**: separators apart, the paragraphs hold the
characters of the lines, in order. -/
theorem filter_paragraphs (h : ∀ l ∈ ls, sep ∉ l) :
    (paragraphs sep ls).flatten.filter (· != sep) = ls.flatten := by
  simpa [collect_nil] using filter_collect h []

end Characters

/-! ## How many paragraphs there are -/

/-- No two neighbouring lines are both non-empty. -/
def Isolated (ls : List (List α)) : Prop :=
  ls.IsChain fun l m => l = [] ∨ m = []

theorem isolated_cons : Isolated (l :: ls)
    ↔ (l ≠ [] → ∀ m ∈ ls.head?, m = []) ∧ Isolated ls := by
  unfold Isolated
  rw [List.isChain_cons]
  by_cases hl : l = [] <;> simp [hl]

/-- A bound on the number of paragraphs. -/
def weight (para : List α) (ls : List (List α)) : Nat :=
  (if para.isEmpty then 0 else 1) + ls.countP (!·.isEmpty)

theorem length_collect_le (para : List α) (ls : List (List α)) :
    (collect sep para ls).length ≤ weight para ls := by
  induction ls generalizing para with
  | nil => by_cases hp : para = [] <;> simp [weight, hp]
  | cons l ls ih =>
      by_cases hl : l = []
      · have hls := ih []
        subst hl
        by_cases hp : para = []
        · simpa [weight, hp] using hls
        · simp [weight, hp, collect_blank hp] at hls ⊢
          omega
      · have hls := ih (extend sep para l)
        rw [collect_line hl]
        simp [weight, hl, extend_ne_nil hl] at hls ⊢
        omega

theorem isolated_of_weight_le (h : weight para ls ≤ (collect sep para ls).length) :
    Isolated ls ∧ (para ≠ [] → ∀ m ∈ ls.head?, m = []) := by
  induction ls generalizing para with
  | nil => exact ⟨List.isChain_nil, by simp⟩
  | cons l ls ih =>
      by_cases hl : l = []
      · subst hl
        have hls : weight [] ls ≤ (collect sep [] ls).length := by
          by_cases hp : para = []
          · simpa [weight, hp] using h
          · simp [weight, hp, collect_blank hp] at h ⊢
            omega
        exact ⟨isolated_cons.mpr ⟨by simp, (ih hls).1⟩, by simp⟩
      · rw [collect_line hl] at h
        have hle : (collect sep (extend sep para l) ls).length
            ≤ weight (extend sep para l) ls := length_collect_le _ ls
        have hp : para = [] := by
          by_contra hp
          simp [weight, hp, hl, extend_ne_nil hl] at h hle
          omega
        have hls : weight (extend sep para l) ls
            ≤ (collect sep (extend sep para l) ls).length := by
          simp [weight, hp, hl] at h ⊢
          omega
        obtain ⟨hiso, hhead⟩ := ih hls
        constructor
        · rw [isolated_cons]
          exact ⟨fun _ => hhead (extend_ne_nil hl), hiso⟩
        · intro hne
          exact absurd hp hne

theorem collect_isolated (h : Isolated ls) :
    collect sep [] ls = ls.filter (!·.isEmpty) := by
  induction ls with
  | nil => rfl
  | cons l ls ih =>
      obtain ⟨hhead, hls⟩ := isolated_cons.mp h
      by_cases hl : l = []
      · simpa [hl] using ih hls
      · have hnext : collect sep l ls = l :: collect sep [] ls := by
          cases ls with
          | nil => simp [collect_open_nil hl]
          | cons m ls =>
              obtain rfl : m = [] := hhead hl m (by simp)
              exact collect_blank hl
        rw [collect_line hl, extend_nil, hnext, ih hls]
        simp [hl]

/-- **Lines as paragraphs**: each non-empty line is a paragraph exactly when
the non-empty lines are isolated. -/
theorem paragraphs_eq_filter_iff :
    paragraphs sep ls = ls.filter (!·.isEmpty) ↔ Isolated ls := by
  rw [← collect_nil]
  constructor
  · intro h
    have hw : weight [] ls ≤ (collect sep [] ls).length := by
      rw [h, ← List.countP_eq_length_filter]
      simp [weight]
    exact (isolated_of_weight_le hw).1
  · exact collect_isolated

end Lib.Paragraphs
