import Mathlib.Algebra.Order.BigOperators.Group.List
import Mathlib.Algebra.Order.Field.Basic
import Mathlib.Algebra.Order.Module.Defs
import Mathlib.Tactic.FieldSimp
import Mathlib.Tactic.Positivity

/-!
# Arithmetic means

The mean of a list over an ordered field, and where it lies.
-/

namespace Lib.Mean

theorem exists_extremes {L : Type*} [LinearOrder L] {xs : List L} (hne : xs ≠ []) :
    ∃ lo ∈ xs, ∃ hi ∈ xs, ∀ x ∈ xs, lo ≤ x ∧ x ≤ hi := by
  induction xs with
  | nil => exact absurd rfl hne
  | cons x xs ih =>
      by_cases hxs : xs = []
      · exact ⟨x, by simp, x, by simp, by simp [hxs]⟩
      · obtain ⟨lo, hlo, hi, hhi, h⟩ := ih hxs
        refine ⟨min x lo, ?_, max x hi, ?_, ?_⟩
        · rcases min_choice x lo with h | h <;> simp [h, hlo]
        · rcases max_choice x hi with h | h <;> simp [h, hhi]
        · intro y hy
          rcases List.mem_cons.mp hy with rfl | hy
          · exact ⟨min_le_left _ _, le_max_left _ _⟩
          · exact ⟨(min_le_right _ _).trans (h y hy).1,
              (h y hy).2.trans (le_max_right _ _)⟩

variable {K : Type*} [Field K] [LinearOrder K] [IsStrictOrderedRing K]

/-- The arithmetic mean; of the empty list, zero. -/
def mean (xs : List K) : K := xs.sum / xs.length

theorem length_pos {xs : List K} (hne : xs ≠ []) : (0 : K) < xs.length := by
  exact_mod_cast List.length_pos_iff.mpr hne

theorem mean_pos {xs : List K} (hne : xs ≠ []) (hpos : ∀ x ∈ xs, 0 < x) :
    0 < mean xs := div_pos (List.sum_pos xs hpos hne) (length_pos hne)

theorem le_mean {xs : List K} (hne : xs ≠ []) {lo : K} (h : ∀ x ∈ xs, lo ≤ x) :
    lo ≤ mean xs := by
  rw [mean, le_div_iff₀ (length_pos hne)]
  have hsum := List.card_nsmul_le_sum xs lo h
  rwa [nsmul_eq_mul, mul_comm] at hsum

theorem mean_le {xs : List K} (hne : xs ≠ []) {hi : K} (h : ∀ x ∈ xs, x ≤ hi) :
    mean xs ≤ hi := by
  rw [mean, div_le_iff₀ (length_pos hne)]
  have hsum := List.sum_le_card_nsmul xs hi h
  rwa [nsmul_eq_mul, mul_comm] at hsum

/-- The mean lies between two values of the list, and so do all values. -/
theorem mean_between {xs : List K} (hne : xs ≠ []) :
    ∃ lo ∈ xs, ∃ hi ∈ xs, (∀ x ∈ xs, lo ≤ x ∧ x ≤ hi) ∧ lo ≤ mean xs ∧ mean xs ≤ hi := by
  rcases exists_extremes hne with ⟨lo, hlo, hi, hhi, hall⟩
  have hle : lo ≤ mean xs := le_mean hne fun x hx => (hall x hx).1
  have hge : mean xs ≤ hi := mean_le hne fun x hx => (hall x hx).2
  exact ⟨lo, hlo, hi, hhi, hall, hle, hge⟩

end Lib.Mean
