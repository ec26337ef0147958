import Mathlib.Tactic.TypeStar

/-!
# Loops

`while (true)` with breaks and throws, over an explicit loop state: `loop`
runs the body for at most `fuel` turns and answers `none` when the loop is
still turning, so a loop that never ends is one that answers `none` at
every fuel. And `forTo`, the loop that counts up to a bound. All recursion
is structural.
-/

namespace Lib.Loop

/-- How a turn of a loop ends: with the next state, or behind the loop. -/
inductive Turn (σ α : Type*) where
  | next (s : σ)
  | leave (a : α)

variable {σ α : Type*} {body : σ → Turn σ α}

/-- `while (true) body`, for at most `fuel` turns. -/
def loop (body : σ → Turn σ α) : Nat → σ → Option α
  | 0, _ => none
  | fuel + 1, s =>
      match body s with
      | .next s' => loop body fuel s'
      | .leave a => some a

@[simp] theorem loop_zero (s : σ) : loop body 0 s = none := rfl

theorem loop_next {s s' : σ} (h : body s = .next s') (fuel : Nat) :
    loop body (fuel + 1) s = loop body fuel s' := by
  simp [loop, h]

theorem loop_leave {s : σ} {a : α} (h : body s = .leave a) (fuel : Nat) :
    loop body (fuel + 1) s = some a := by
  simp [loop, h]

/-- **The rule for a loop that never ends**: from every state that `Inv` holds
of, the body goes to another such state. -/
theorem loop_eq_none (Inv : σ → Prop)
    (hturn : ∀ s, Inv s → ∃ s', body s = .next s' ∧ Inv s') (fuel : Nat) {s : σ}
    (hs : Inv s) : loop body fuel s = none := by
  induction fuel generalizing s with
  | zero => rfl
  | succ fuel ih =>
      rcases hturn s hs with ⟨s', hnext, hs'⟩
      rw [loop_next hnext, ih hs']

/-- The state after `n` turns, when none of them leaves the loop. -/
def turns (body : σ → Turn σ α) : Nat → σ → Option σ
  | 0, s => some s
  | n + 1, s =>
      match body s with
      | .next s' => turns body n s'
      | .leave _ => none

theorem turns_next {s s' : σ} (h : body s = .next s') (n : Nat) :
    turns body (n + 1) s = turns body n s' := by
  simp [turns, h]

/-- A loop that is still turning has not ended. -/
theorem loop_eq_none_of_turns {n : Nat} {s s' : σ} (h : turns body n s = some s') :
    loop body n s = none := by
  induction n generalizing s with
  | zero => rfl
  | succ n ih =>
      cases hbody : body s with
      | next t =>
          rw [turns_next hbody] at h
          rw [loop_next hbody, ih h]
      | leave a => simp [turns, hbody] at h

/-- `for (int i = 0; i < n; i++)`, from the state `s`. -/
def forTo (turn : σ → Nat → σ) (s : σ) : Nat → σ
  | 0 => s
  | n + 1 => turn (forTo turn s n) n

/-- **The counting rule**: what a turn carries from its index to the next one
holds at the bound. -/
theorem forTo_inv {turn : σ → Nat → σ} {s : σ} (Inv : Nat → σ → Prop) (n : Nat)
    (hstart : Inv 0 s) (hturn : ∀ i s, i < n → Inv i s → Inv (i + 1) (turn s i)) :
    Inv n (forTo turn s n) := by
  induction n with
  | zero => exact hstart
  | succ n ih =>
      have hn : Inv n (forTo turn s n) := by
        apply ih
        intro i s hi
        exact hturn i s (Nat.lt_succ_of_lt hi)
      exact hturn n _ (Nat.lt_succ_self n) hn

end Lib.Loop
