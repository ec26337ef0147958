import Mathlib.Data.List.Chain

/-!
# Erasing from a list while it is read

The loop over the indices of a list that erases the entry it stands on and
goes to the next index all the same. The entry that moves into the gap is not
looked at: of two neighbours the loop erases one. It leaves nothing behind
exactly when no two neighbours are to be erased.
-/

namespace Lib.Sweep

variable {α : Type*} (p : α → Bool)

/-- `for (i = ...; i < xs.size(); i++) if (p(xs[i])) xs.erase(xs.begin() + i);`
for at most `fuel` turns. -/
def eraseFrom : Nat → Nat → List α → List α
  | 0, _, xs => xs
  | fuel + 1, i, xs =>
      match xs[i]? with
      | none => xs
      | some a => eraseFrom fuel (i + 1) (if p a then xs.eraseIdx i else xs)

/-- The loop from the first index on. A turn goes one index further and the
list never grows: its length is enough turns. -/
def eraseLoop (xs : List α) : List α := eraseFrom p xs.length 0 xs

/-- The entries that at most `fuel` turns of the loop stand on. -/
def visitFrom : Nat → Nat → List α → List α
  | 0, _, _ => []
  | fuel + 1, i, xs =>
      match xs[i]? with
      | none => []
      | some a => a :: visitFrom fuel (i + 1) (if p a then xs.eraseIdx i else xs)

/-- The entries that the loop stands on, in order. -/
def visits (xs : List α) : List α := visitFrom p xs.length 0 xs

/-- What the loop does to the entries it has not yet come to. -/
def sweep : List α → List α
  | [] => []
  | [a] => if p a then [] else [a]
  | a :: b :: xs => if p a then b :: sweep xs else a :: sweep (b :: xs)

/-- `visits`, over the entries that the loop has not yet come to. -/
def visited : List α → List α
  | [] => []
  | [a] => [a]
  | a :: b :: xs => a :: if p a then visited xs else visited (b :: xs)

variable {p}

/-- Behind the last entry the loop is over. -/
theorem from_beyond {fuel i : Nat} {xs : List α} (hi : xs.length ≤ i) :
    eraseFrom p fuel i xs = xs ∧ visitFrom p fuel i xs = [] := by
  cases fuel with
  | zero => exact ⟨rfl, rfl⟩
  | succ fuel => simp [eraseFrom, visitFrom, List.getElem?_eq_none hi]

/-- One turn, standing on the entry after `ys`. -/
theorem from_step {fuel i : Nat} {ys : List α} {a : α} {xs : List α}
    (hi : ys.length = i) (hfuel : (a :: xs).length ≤ fuel) :
    eraseFrom p fuel i (ys ++ a :: xs) =
        eraseFrom p (fuel - 1) (i + 1) (if p a then ys ++ xs else ys ++ a :: xs)
      ∧ visitFrom p fuel i (ys ++ a :: xs) =
        a :: visitFrom p (fuel - 1) (i + 1) (if p a then ys ++ xs else ys ++ a :: xs) := by
  subst hi
  cases fuel with
  | zero => exact absurd hfuel (Nat.not_succ_le_zero xs.length)
  | succ fuel =>
      have hread : (ys ++ a :: xs)[ys.length]? = some a := by simp
      have herase : (ys ++ a :: xs).eraseIdx ys.length = ys ++ xs := by
        simp [List.eraseIdx_append_of_length_le]
      rw [eraseFrom, visitFrom, hread, herase]
      exact ⟨rfl, rfl⟩

/-- **The traversal**: the entries before the index stay; the loop stands on
those after it as `visited` says, and sweeps them. -/
theorem from_eq {fuel i : Nat} {ys xs : List α} (hi : ys.length = i)
    (hfuel : xs.length ≤ fuel) :
    eraseFrom p fuel i (ys ++ xs) = ys ++ sweep p xs
      ∧ visitFrom p fuel i (ys ++ xs) = visited p xs := by
  -- induction as `sweep` recurs: two entries at a time where one is erased
  induction xs using sweep.induct p generalizing fuel i ys with
  | case1 => simp [from_beyond, sweep, visited, hi]
  | case2 a ha =>
      rw [(from_step hi hfuel).1, (from_step hi hfuel).2, if_pos ha, List.append_nil]
      simp [from_beyond, sweep, visited, ha, hi]
  | case3 a ha =>
      rw [(from_step hi hfuel).1, (from_step hi hfuel).2, if_neg ha]
      simp [from_beyond, sweep, visited, ha, hi]
  | case4 a b xs ha ih =>
      rw [(from_step hi hfuel).1, (from_step hi hfuel).2, if_pos ha]
      have hnext : (ys ++ [b]).length = i + 1 := by simp [hi]
      have hrest : xs.length ≤ fuel - 1 := by simp at hfuel; omega
      simpa [sweep, visited, ha] using ih hnext hrest
  | case5 a b xs ha ih =>
      rw [(from_step hi hfuel).1, (from_step hi hfuel).2, if_neg ha]
      have hnext : (ys ++ [a]).length = i + 1 := by simp [hi]
      have hrest : (b :: xs).length ≤ fuel - 1 := by simp at hfuel ⊢; omega
      simpa [sweep, visited, ha] using ih hnext hrest

theorem eraseLoop_eq_sweep (xs : List α) : eraseLoop p xs = sweep p xs :=
  (@from_eq α p xs.length 0 [] xs rfl (Nat.le_refl _)).1

theorem visits_eq_visited (xs : List α) : visits p xs = visited p xs :=
  (@from_eq α p xs.length 0 [] xs rfl (Nat.le_refl _)).2

/-- What is not to be erased stays, in order. -/
theorem eraseLoop_filter (p : α → Bool) (xs : List α) :
    (eraseLoop p xs).filter (!p ·) = xs.filter (!p ·) := by
  rw [eraseLoop_eq_sweep]
  induction xs using sweep.induct p with
  | case1 => rfl
  | case2 a ha => simp [sweep, ha]
  | case3 a ha => simp [sweep, ha]
  | case4 a b xs ha ih => simp [sweep, ha, List.filter_cons, ih]
  | case5 a b xs ha ih => simp [sweep, ha, List.filter_cons, ih]

/-- No two neighbours are to be erased. -/
def Apart (p : α → Bool) (xs : List α) : Prop := xs.IsChain fun a b => ¬ (p a ∧ p b)

instance (xs : List α) : Decidable (Apart p xs) :=
  inferInstanceAs (Decidable (List.IsChain _ xs))

theorem apart_cons_of_not {a : α} (ha : ¬ p a) (xs : List α) :
    Apart p (a :: xs) ↔ Apart p xs := by
  cases xs with
  | nil => simp [Apart]
  | cons b xs => simp [Apart, ha]

/-- **The sweep law**: the loop erases all there is to erase exactly when no
two neighbours are to be erased. -/
theorem eraseLoop_eq_filter_iff (xs : List α) :
    eraseLoop p xs = xs.filter (!p ·) ↔ Apart p xs := by
  rw [eraseLoop_eq_sweep]
  induction xs using sweep.induct p with
  | case1 => simp [sweep, Apart]
  | case2 a ha => simp [sweep, Apart, ha]
  | case3 a ha => simp [sweep, Apart, ha]
  | case4 a b xs ha ih =>
      by_cases hb : p b
      · -- the second of the pair stays, and a filtered list has no such entry
        have hstays : sweep p (a :: b :: xs) ≠ (a :: b :: xs).filter (!p ·) := by
          intro heq
          have hmem : b ∈ (a :: b :: xs).filter (!p ·) := by
            rw [← heq]
            simp [sweep, ha]
          simp [hb] at hmem
        have hpair : ¬ Apart p (a :: b :: xs) := by simp [Apart, ha, hb]
        exact iff_of_false hstays hpair
      · have hapart : Apart p (a :: b :: xs) ↔ Apart p xs := by
          rw [← apart_cons_of_not hb xs]
          simp [Apart, hb]
        rw [hapart, ← ih]
        simp [sweep, ha, hb]
  | case5 a b xs ha ih =>
      rw [apart_cons_of_not ha, ← ih]
      simp [sweep, ha]

/-! ## The entries that the loop looks at -/

theorem visits_sublist (xs : List α) : (visits p xs).Sublist xs := by
  rw [visits_eq_visited]
  induction xs using sweep.induct p with
  | case1 => exact List.Sublist.refl _
  | case2 a ha => exact List.Sublist.refl _
  | case3 a ha => exact List.Sublist.refl _
  | case4 a b xs ha ih =>
      rw [visited, if_pos ha]
      exact (ih.cons b).cons_cons a
  | case5 a b xs ha ih =>
      rw [visited, if_neg ha]
      exact ih.cons_cons a

/-- What the loop erases and what it leaves is what there was. -/
theorem visits_perm (xs : List α) :
    List.Perm ((visits p xs).filter p ++ eraseLoop p xs) xs := by
  rw [visits_eq_visited, eraseLoop_eq_sweep]
  induction xs using sweep.induct p with
  | case1 => exact .refl _
  | case2 a ha => simp [visited, sweep, ha]
  | case3 a ha => simp [visited, sweep, ha]
  | case4 a b xs ha ih =>
      rw [visited, sweep, if_pos ha, if_pos ha, List.filter_cons_of_pos ha, List.cons_append]
      exact (List.perm_middle.trans (ih.cons b)).cons a
  | case5 a b xs ha ih =>
      rw [visited, sweep, if_neg ha, if_neg ha, List.filter_cons_of_neg ha]
      exact List.perm_middle.trans (ih.cons a)

theorem map_eraseLoop {β : Type*} (f : α → β) (p : β → Bool) (xs : List α) :
    (eraseLoop (p ∘ f) xs).map f = eraseLoop p (xs.map f) := by
  rw [eraseLoop_eq_sweep, eraseLoop_eq_sweep]
  induction xs using sweep.induct (p ∘ f) with
  | case1 => rfl
  | case2 a ha => simp_all [sweep]
  | case3 a ha => simp_all [sweep]
  | case4 a b xs ha ih => simp_all [sweep]
  | case5 a b xs ha ih => simp_all [sweep]

end Lib.Sweep
