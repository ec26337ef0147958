import Mathlib.Tactic.TypeStar

/-!
# Programs with state and exceptions

Evaluation of `EStateM` programs, in which the changes made before an
exception stay made. Each rule says what one operation does when the program
is run from a given state; with them `simp` runs a program.
-/

namespace Lib.EState

variable {ε σ α β : Type}

/-- The state in which a program ends, an exception or not. -/
def after (x : EStateM ε σ α) (s : σ) : σ :=
  match x s with
  | .ok _ s' => s'
  | .error _ s' => s'

@[simp] theorem bind_apply (x : EStateM ε σ α) (f : α → EStateM ε σ β) (s : σ) :
    (x >>= f) s = match x s with
      | .ok a s' => f a s'
      | .error e s' => .error e s' := rfl

@[simp] theorem map_apply (f : α → β) (x : EStateM ε σ α) (s : σ) :
    (f <$> x) s = match x s with
      | .ok a s' => .ok (f a) s'
      | .error e s' => .error e s' := rfl

@[simp] theorem pure_apply (a : α) (s : σ) :
    (pure a : EStateM ε σ α) s = .ok a s := rfl

@[simp] theorem throw_apply (e : ε) (s : σ) :
    (throw e : EStateM ε σ α) s = .error e s := rfl

@[simp] theorem get_apply (s : σ) :
    (get : EStateM ε σ σ) s = .ok s s := rfl

@[simp] theorem set_apply (s s' : σ) :
    (set s' : EStateM ε σ PUnit) s = .ok ⟨⟩ s' := rfl

@[simp] theorem modify_apply (f : σ → σ) (s : σ) :
    (modify f : EStateM ε σ PUnit) s = .ok ⟨⟩ (f s) := rfl

@[simp] theorem if_apply (p : Prop) [Decidable p] (x y : EStateM ε σ α) (s : σ) :
    (if p then x else y) s = if p then x s else y s := by
  split <;> rfl

theorem after_ok {x : EStateM ε σ α} {s s' : σ} {a : α} (h : x s = .ok a s') :
    after x s = s' := by
  simp [after, h]

theorem after_error {x : EStateM ε σ α} {s s' : σ} {e : ε}
    (h : x s = .error e s') : after x s = s' := by
  simp [after, h]

theorem after_bind_ok {x : EStateM ε σ α} {f : α → EStateM ε σ β} {s s' : σ} {a : α}
    (h : x s = .ok a s') : after (x >>= f) s = after (f a) s' := by
  simp [after, h]

theorem after_bind_error {x : EStateM ε σ α} {f : α → EStateM ε σ β} {s s' : σ}
    {e : ε} (h : x s = .error e s') : after (x >>= f) s = s' := by
  simp [after, h]

theorem after_bind_pure (x : EStateM ε σ α) (f : α → β) (s : σ) :
    after (x >>= fun a => pure (f a)) s = after x s := by
  cases h : x s <;> simp [after, h]

theorem bind_ok {x : EStateM ε σ α} {f : α → EStateM ε σ β} {s s' : σ} {a : α}
    (h : x s = .ok a s') : (x >>= f) s = f a s' := by
  rw [bind_apply, h]

/-! ## What a program returns -/

/-- The program returns, with a value and a state that satisfy `Q`. -/
def Returns (x : EStateM ε σ α) (s : σ) (Q : α → σ → Prop) : Prop :=
  ∃ a s', x s = .ok a s' ∧ Q a s'

theorem Returns.pure {s : σ} {Q : α → σ → Prop} {a : α} (h : Q a s) :
    Returns (pure a : EStateM ε σ α) s Q := ⟨a, s, rfl, h⟩

theorem Returns.modify {s : σ} {Q : PUnit → σ → Prop} {f : σ → σ} (h : Q ⟨⟩ (f s)) :
    Returns (modify f : EStateM ε σ PUnit) s Q := ⟨⟨⟩, f s, rfl, h⟩

/-- **The sequence rule**: the second part starts from what the first part
promises. -/
theorem Returns.bind {x : EStateM ε σ α} {f : α → EStateM ε σ β} {s : σ}
    {P : α → σ → Prop} {Q : β → σ → Prop} (hx : Returns x s P)
    (hf : ∀ a s', P a s' → Returns (f a) s' Q) : Returns (x >>= f) s Q := by
  obtain ⟨a, s', hx, hP⟩ := hx
  obtain ⟨b, s'', hfa, hQ⟩ := hf a s' hP
  refine ⟨b, s'', ?_, hQ⟩
  rw [bind_apply, hx]
  exact hfa

theorem Returns.mono {x : EStateM ε σ α} {s : σ} {P Q : α → σ → Prop}
    (hx : Returns x s P) (h : ∀ a s', P a s' → Q a s') : Returns x s Q := by
  obtain ⟨a, s', hx, hP⟩ := hx
  exact ⟨a, s', hx, h a s' hP⟩

/-! ## Relations kept by a program -/

/-- Every run of the program relates its first state to its last. -/
def Keeps (R : σ → σ → Prop) (x : EStateM ε σ α) : Prop := ∀ s, R s (after x s)

variable {R : σ → σ → Prop}

/-- **The sequence rule** for a transitive relation. -/
theorem Keeps.bind {x : EStateM ε σ α} {f : α → EStateM ε σ β} (hx : Keeps R x)
    (htrans : ∀ s t u, R s t → R t u → R s u) (hf : ∀ a, Keeps R (f a)) :
    Keeps R (x >>= f) := by
  intro s
  have hs := hx s
  cases h : x s with
  | ok a s' =>
      rw [after_ok h] at hs
      rw [after_bind_ok h]
      exact htrans _ _ _ hs (hf a s')
  | error e s' =>
      rw [after_error h] at hs
      rw [after_bind_error h]
      exact hs

theorem Keeps.pure (hrefl : ∀ s, R s s) (a : α) :
    Keeps R (pure a : EStateM ε σ α) := hrefl

theorem Keeps.ite {p : Prop} [Decidable p] {x y : EStateM ε σ α} (hx : Keeps R x)
    (hy : Keeps R y) : Keeps R (if p then x else y) := by
  split
  · exact hx
  · exact hy

/-! ## Programs with exceptions only -/

theorem bind_eq_ok {x : Except ε α} {f : α → Except ε β} {b : β} :
    x >>= f = .ok b ↔ ∃ a, x = .ok a ∧ f a = .ok b := by
  cases x <;> simp [bind, Except.bind]

/-- A result of a loop over a list comes from one of its turns. -/
theorem exists_of_mem_mapM {f : α → Except ε β} {xs : List α} {ys : List β}
    (h : xs.mapM f = .ok ys) {y : β} (hy : y ∈ ys) : ∃ x ∈ xs, f x = .ok y := by
  induction xs generalizing ys with
  | nil =>
      cases h
      simp at hy
  | cons x xs ih =>
      simp only [List.mapM_cons, bind_eq_ok] at h
      obtain ⟨b, hx, bs, hxs, hbs⟩ := h
      cases hbs
      rcases List.mem_cons.mp hy with rfl | hy
      · exact ⟨x, List.mem_cons_self, hx⟩
      · obtain ⟨k, hk, hfk⟩ := ih hxs hy
        exact ⟨k, List.mem_cons_of_mem x hk, hfk⟩

end Lib.EState
