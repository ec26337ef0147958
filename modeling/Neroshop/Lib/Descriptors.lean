import Mathlib.Data.Finset.Basic
import Mathlib.Data.Int.Order.Basic
import Mathlib.Data.List.Count

/-!
# Descriptors

The descriptors that one party gets from the kernel and gives back: the
calls it has made, the latest first, which descriptors are open under them,
and what it is to use them well. A descriptor number is the kernel's to give
out again once it is closed, so a history counts obtained and closed numbers
and not only whether one was ever closed.
-/

namespace Lib.Descriptors

/-- A system call, and the descriptor it is about. -/
inductive Call where
  -- a system call returned this descriptor
  | obtained (fd : Int)
  | used (fd : Int)
  | closed (fd : Int)
  deriving DecidableEq, Repr

/-- The descriptors obtained and not closed since. -/
def owned : List Call → Finset Int
  | [] => ∅
  | .obtained fd :: cs => insert fd (owned cs)
  | .used _ :: cs => owned cs
  | .closed fd :: cs => (owned cs).erase fd

/-- Every descriptor that was used or closed was owned at that time. -/
def Sound : List Call → Prop
  | [] => True
  | .obtained _ :: cs => Sound cs
  | .used fd :: cs => fd ∈ owned cs ∧ Sound cs
  | .closed fd :: cs => fd ∈ owned cs ∧ Sound cs

instance instDecidableSound : ∀ cs, Decidable (Sound cs)
  | [] => .isTrue trivial
  | .obtained _ :: cs => instDecidableSound cs
  | .used fd :: cs =>
      have := instDecidableSound cs
      inferInstanceAs (Decidable (fd ∈ owned cs ∧ Sound cs))
  | .closed fd :: cs =>
      have := instDecidableSound cs
      inferInstanceAs (Decidable (fd ∈ owned cs ∧ Sound cs))

/-- Every descriptor was closed exactly as often as it was obtained. -/
def Settled (cs : List Call) : Prop :=
  ∀ fd, cs.count (.closed fd) = cs.count (.obtained fd)

/-- Only owned descriptors are used and closed, and each one obtained is
closed exactly once. -/
def Clean (cs : List Call) : Prop := Sound cs ∧ Settled cs

/-- What the kernel promises: a descriptor it returns is not negative and
not open already. -/
def Granted : List Call → Prop
  | [] => True
  | .obtained fd :: cs => 0 ≤ fd ∧ fd ∉ owned cs ∧ Granted cs
  | .used _ :: cs => Granted cs
  | .closed _ :: cs => Granted cs

@[simp] theorem owned_nil : owned [] = ∅ := rfl

@[simp] theorem owned_obtained (fd : Int) (cs : List Call) :
    owned (.obtained fd :: cs) = insert fd (owned cs) := rfl

@[simp] theorem owned_used (fd : Int) (cs : List Call) :
    owned (.used fd :: cs) = owned cs := rfl

@[simp] theorem owned_closed (fd : Int) (cs : List Call) :
    owned (.closed fd :: cs) = (owned cs).erase fd := rfl

@[simp] theorem sound_nil : Sound [] := trivial

@[simp] theorem sound_obtained (fd : Int) (cs : List Call) :
    Sound (.obtained fd :: cs) ↔ Sound cs := Iff.rfl

@[simp] theorem sound_used (fd : Int) (cs : List Call) :
    Sound (.used fd :: cs) ↔ fd ∈ owned cs ∧ Sound cs := Iff.rfl

@[simp] theorem sound_closed (fd : Int) (cs : List Call) :
    Sound (.closed fd :: cs) ↔ fd ∈ owned cs ∧ Sound cs := Iff.rfl

@[simp] theorem granted_nil : Granted [] := trivial

@[simp] theorem granted_obtained (fd : Int) (cs : List Call) :
    Granted (.obtained fd :: cs) ↔ 0 ≤ fd ∧ fd ∉ owned cs ∧ Granted cs := Iff.rfl

@[simp] theorem granted_used (fd : Int) (cs : List Call) :
    Granted (.used fd :: cs) ↔ Granted cs := Iff.rfl

@[simp] theorem granted_closed (fd : Int) (cs : List Call) :
    Granted (.closed fd :: cs) ↔ Granted cs := Iff.rfl

/-- **The balance of a descriptor**: obtained once more than closed while it
is owned, and otherwise as often. -/
theorem count_obtained {cs : List Call} (hg : Granted cs) (hs : Sound cs) (fd : Int) :
    cs.count (.obtained fd)
      = cs.count (.closed fd) + if fd ∈ owned cs then 1 else 0 := by
  induction cs with
  | nil => rfl
  | cons c cs ih =>
      cases c with
      | used fd' =>
          rw [List.count_cons_of_ne (by simp), List.count_cons_of_ne (by simp)]
          exact ih hg hs.2
      | obtained fd' =>
          obtain ⟨-, hnew, hg⟩ := hg
          have h := ih hg hs
          by_cases heq : fd' = fd
          · subst heq
            rw [if_neg hnew] at h
            simp [h]
          · simpa [heq, Ne.symm heq] using h
      | closed fd' =>
          obtain ⟨hin, hs⟩ := hs
          have h := ih hg hs
          by_cases heq : fd' = fd
          · subst heq
            rw [if_pos hin] at h
            simp [h]
          · simpa [heq, Ne.symm heq] using h

/-- **When the books are settled**: of a sound history, exactly when nothing
is owned at its end. -/
theorem settled_iff {cs : List Call} (hg : Granted cs) (hs : Sound cs) :
    Settled cs ↔ owned cs = ∅ := by
  constructor
  · intro h
    apply Finset.eq_empty_of_forall_notMem
    intro fd hfd
    have hcount := count_obtained hg hs fd
    rw [if_pos hfd, h fd] at hcount
    omega
  · intro h fd
    have hcount := count_obtained hg hs fd
    rw [if_neg (by simp [h])] at hcount
    exact hcount.symm

theorem clean_iff {cs : List Call} (hg : Granted cs) :
    Clean cs ↔ Sound cs ∧ owned cs = ∅ := and_congr_right (settled_iff hg)

theorem not_clean_of_owned {cs : List Call} {fd : Int} (hg : Granted cs)
    (h : fd ∈ owned cs) : ¬ Clean cs := by
  intro hclean
  have hempty := ((clean_iff hg).mp hclean).2
  rw [hempty] at h
  exact absurd h (Finset.notMem_empty fd)

theorem nonneg_of_owned {cs : List Call} {fd : Int} (hg : Granted cs)
    (h : fd ∈ owned cs) : 0 ≤ fd := by
  induction cs with
  | nil => exact absurd h (Finset.notMem_empty fd)
  | cons c cs ih =>
      cases c with
      | used _ => exact ih hg h
      | closed _ => exact ih hg (Finset.mem_of_mem_erase h)
      | obtained fd' =>
          obtain ⟨hpos, -, hg⟩ := hg
          rcases Finset.mem_insert.mp h with rfl | hrest
          · exact hpos
          · exact ih hg hrest

/-- What a system call that wants a new descriptor gets, when the kernel
offers `fd`; `none` is a call that fails. -/
def grant (cs : List Call) (fd : Int) : Option Int :=
  if 0 ≤ fd ∧ fd ∉ owned cs then some fd else none

theorem grant_eq_some {cs : List Call} {fd fd' : Int} :
    grant cs fd = some fd' ↔ fd = fd' ∧ 0 ≤ fd' ∧ fd' ∉ owned cs := by
  unfold grant
  split
  · next h =>
      constructor
      · intro heq
        cases heq
        exact ⟨rfl, h⟩
      · intro h'
        rw [h'.1]
  · next h =>
      constructor
      · intro heq
        cases heq
      · intro h'
        obtain ⟨rfl, hgrant⟩ := h'
        exact absurd hgrant h

end Lib.Descriptors
