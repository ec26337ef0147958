import Mathlib.Data.List.Nodup
import Neroshop.Lib.EState
import Neroshop.Lib.Runs

/-!
# Handles

Objects that a program makes, uses and frees by their handles, as a C library
hands them out. Each object is numbered when it is made, and no number comes
back, so a use after the free and a second free are misuse.

`Owns own x Q E` is the triple of the programs: whatever else is live, `x`
started with the objects `own` does not misuse a handle, leaves everything
else alone, and ends with objects for which `Q` holds, or with an error of its
own for which `E` holds.
-/

namespace Lib.Handles

open Lib.EState Lib.Runs

variable {K ε α β : Type}

/-- The live objects by their numbers. -/
structure Heap (K : Type) where
  live : List (Nat × K)
  next : Nat
  below : ∀ o ∈ live, o.1 < next
  distinct : (live.map Prod.fst).Nodup

/-- Nothing is allocated yet. -/
def Heap.start : Heap K := ⟨[], 0, nofun, List.nodup_nil⟩

/-- How a program stops. -/
inductive Fault (ε : Type) where
  -- an object is used or freed that is not live
  | misuse
  -- an error of the program itself
  | stop (e : ε)
  deriving DecidableEq

/-- A program over a heap. -/
abbrev Prog (K ε : Type) := EStateM (Fault ε) (Heap K)

/-- An object under a new number. -/
def Heap.new (h : Heap K) (k : K) : Heap K where
  live := h.live ++ [(h.next, k)]
  next := h.next + 1
  below := by
    intro o ho
    rcases List.mem_append.mp ho with ho | ho
    · exact Nat.lt_succ_of_lt (h.below o ho)
    · rw [List.mem_singleton.mp ho]
      exact Nat.lt_succ_self h.next
  distinct := by
    rw [List.map_append, List.nodup_append]
    refine ⟨h.distinct, by simp, ?_⟩
    intro i hi j hj heq
    obtain ⟨o, ho, rfl⟩ := List.mem_map.mp hi
    have hlt := h.below o ho
    rw [List.map_singleton, List.mem_singleton] at hj
    omega

/-- The object of this number is gone. -/
def Heap.free (h : Heap K) (i : Nat) : Heap K where
  live := h.live.filter (·.1 != i)
  next := h.next
  below := fun o ho => h.below o (List.mem_of_mem_filter ho)
  distinct := (List.filter_sublist.map Prod.fst).nodup h.distinct

/-- An allocation. -/
def new (k : K) : Prog K ε Nat := fun h => .ok h.next (h.new k)

/-- A use of an object: it has to be live. -/
def use (i : Nat) : Prog K ε Unit := fun h =>
  if i ∈ h.live.map Prod.fst then .ok () h else .error .misuse h

/-- A free: the object has to be live. -/
def free (i : Nat) : Prog K ε Unit := fun h =>
  if i ∈ h.live.map Prod.fst then .ok () (h.free i) else .error .misuse h

/-- The program ends in an error of its own. -/
def stop (e : ε) : Prog K ε α := throw (.stop e)

/-! ## The triple -/

/-- The program works on its own objects: run on a heap that holds them it never
misuses one, leaves the others alone, and ends with objects and a result of `Q`,
or stops with an error of `E`. -/
def Owns (own : List (Nat × K)) (x : Prog K ε α) (Q : α → List (Nat × K) → Prop)
    (E : ε → Prop) : Prop :=
  ∀ (h : Heap K) (frame : List (Nat × K)), h.live = frame ++ own →
    match x h with
    | .ok a h' => ∃ own', h'.live = frame ++ own' ∧ Q a own'
    | .error .misuse _ => False
    | .error (.stop e) _ => E e

variable {own : List (Nat × K)} {x : Prog K ε α} {f : α → Prog K ε β}
  {P : α → List (Nat × K) → Prop} {Q : β → List (Nat × K) → Prop} {E : ε → Prop}

theorem Owns.pure {a : α} (h : P a own) : Owns own (pure a : Prog K ε α) P E :=
  fun _ _ hlive => ⟨own, hlive, h⟩

theorem Owns.stop {e : ε} (h : E e) : Owns own (stop e : Prog K ε α) P E :=
  fun _ _ _ => h

/-- **The sequence rule.** -/
theorem Owns.bind (hx : Owns own x P E) (hf : ∀ a own', P a own' → Owns own' (f a) Q E) :
    Owns own (x >>= f) Q E := by
  intro h frame hlive
  have hx := hx h frame hlive
  rw [bind_apply]
  cases hrun : x h with
  | ok a h' =>
      rw [hrun] at hx
      obtain ⟨own', hlive', hP⟩ := hx
      exact hf a own' hP h' frame hlive'
  | error e h' =>
      rw [hrun] at hx
      cases e with
      | misuse => exact hx
      | stop e => exact hx

/-- **The rule of consequence.** -/
theorem Owns.mono {P' : α → List (Nat × K) → Prop} {E' : ε → Prop} (hx : Owns own x P E)
    (hP : ∀ a own', P a own' → P' a own') (hE : ∀ e, E e → E' e) : Owns own x P' E' := by
  intro h frame hlive
  have hx := hx h frame hlive
  cases hrun : x h with
  | ok a h' =>
      rw [hrun] at hx
      obtain ⟨own', hlive', hown⟩ := hx
      exact ⟨own', hlive', hP a own' hown⟩
  | error e h' =>
      rw [hrun] at hx
      cases e with
      | misuse => exact hx
      | stop e => exact hE e hx

theorem Owns.new {k : K} {P : Nat → List (Nat × K) → Prop} (h : ∀ i, P i (own ++ [(i, k)])) :
    Owns own (new k : Prog K ε Nat) P E := by
  intro heap frame hlive
  refine ⟨own ++ [(heap.next, k)], ?_, h heap.next⟩
  show heap.live ++ [(heap.next, k)] = _
  rw [hlive, List.append_assoc]

theorem Owns.use {i : Nat} {P : Unit → List (Nat × K) → Prop} (hi : i ∈ own.map Prod.fst)
    (h : P () own) : Owns own (use i : Prog K ε Unit) P E := by
  intro heap frame hlive
  have hin : i ∈ heap.live.map Prod.fst := by
    rw [hlive, List.map_append]
    exact List.mem_append_right _ hi
  rw [Handles.use, if_pos hin]
  exact ⟨own, hlive, h⟩

theorem filter_ne {o : Nat × K} {l r : List (Nat × K)}
    (h : ((l ++ o :: r).map Prod.fst).Nodup) :
    (l ++ o :: r).filter (·.1 != o.1) = l ++ r := by
  rw [List.map_append, List.map_cons, List.nodup_middle, List.nodup_cons] at h
  have hkeep : ∀ p ∈ l ++ r, (p.1 != o.1) = true := by
    intro p hp
    rw [bne_iff_ne]
    rintro heq
    apply h.1
    rw [← List.map_append, ← heq]
    exact List.mem_map_of_mem hp
  rw [List.filter_append, List.filter_cons_of_neg (by simp), ← List.filter_append]
  exact List.filter_eq_self.mpr hkeep

theorem Owns.free {i : Nat} {k : K} {l r : List (Nat × K)}
    {P : Unit → List (Nat × K) → Prop} (h : P () (l ++ r)) :
    Owns (l ++ (i, k) :: r) (free i : Prog K ε Unit) P E := by
  intro heap frame hlive
  have hin : i ∈ heap.live.map Prod.fst := by
    simp [hlive]
  rw [Handles.free, if_pos hin]
  refine ⟨l ++ r, ?_, h⟩
  have hdistinct := heap.distinct
  show heap.live.filter (·.1 != i) = _
  rw [hlive, ← List.append_assoc] at hdistinct ⊢
  rw [filter_ne hdistinct, List.append_assoc]

/-! ## One operation, and what follows it -/

theorem Owns.new_bind {k : K} {g : Nat → Prog K ε β}
    (h : ∀ i, Owns (own ++ [(i, k)]) (g i) Q E) : Owns own (Handles.new k >>= g) Q E := by
  have hnew : Owns own (Handles.new k : Prog K ε Nat) (fun i own' => own' = own ++ [(i, k)]) E :=
    Owns.new fun _ => rfl
  refine hnew.bind ?_
  intro i own' hown
  exact hown ▸ h i

theorem Owns.use_bind {i : Nat} {g : Unit → Prog K ε β} (hi : i ∈ own.map Prod.fst)
    (h : Owns own (g ()) Q E) : Owns own (Handles.use i >>= g) Q E := by
  have huse : Owns own (Handles.use i : Prog K ε Unit) (fun _ own' => own' = own) E :=
    Owns.use hi rfl
  refine huse.bind ?_
  intro _ own' hown
  exact hown ▸ h

theorem Owns.free_bind {i : Nat} {k : K} {l r : List (Nat × K)} {g : Unit → Prog K ε β}
    (h : Owns (l ++ r) (g ()) Q E) : Owns (l ++ (i, k) :: r) (Handles.free i >>= g) Q E := by
  have hfree : Owns (l ++ (i, k) :: r) (Handles.free i : Prog K ε Unit)
      (fun _ own' => own' = l ++ r) E := Owns.free rfl
  refine hfree.bind ?_
  intro _ own' hown
  exact hown ▸ h

theorem mem_last (own : List (Nat × K)) (i : Nat) (k : K) :
    i ∈ (own ++ [(i, k)]).map Prod.fst := by simp

/-- The object made last is freed again. -/
theorem Owns.free_last {i : Nat} {k : K} {g : Unit → Prog K ε β}
    (h : Owns own (g ()) Q E) : Owns (own ++ [(i, k)]) (Handles.free i >>= g) Q E :=
  Owns.free_bind (by rwa [List.append_nil])

/-! ## What a program leaves -/

/-- The objects before, and more of these kinds. -/
def Leaves (own : List (Nat × K)) (leak : List K) (own' : List (Nat × K)) : Prop :=
  ∃ more, own' = own ++ more ∧ more.map Prod.snd = leak

theorem leaves_nil (own : List (Nat × K)) : Leaves own [] own :=
  ⟨[], (List.append_nil own).symm, rfl⟩

theorem leaves_one (own : List (Nat × K)) (i : Nat) (k : K) :
    Leaves own [k] (own ++ [(i, k)]) := ⟨[(i, k)], rfl, rfl⟩

theorem leaves_two (own : List (Nat × K)) (i j : Nat) (k l : K) :
    Leaves own [k, l] (own ++ [(i, k)] ++ [(j, l)]) :=
  ⟨[(i, k), (j, l)], List.append_assoc _ _ _, rfl⟩

theorem Owns.discard {leak : List K} {R : α → Prop}
    (hx : Owns own x (fun a own' => R a ∧ Leaves own leak own') E) :
    Owns own (do let _ ← x) (fun _ own' => Leaves own leak own') E := by
  refine hx.bind ?_
  rintro a own' ⟨-, hleaves⟩
  exact .pure hleaves

/-! ## Runs of calls -/

/-- The heap, or the fault that has ended the program. -/
abbrev Session (K ε : Type) := Except (Fault ε) (Heap K)

/-- The next program of a session, if it goes on. -/
def callStep {C : Type} (exec : C → Prog K ε Unit) (s : Session K ε) (call : C) :
    Session K ε :=
  match s with
  | .error f => .error f
  | .ok h =>
      match exec call h with
      | .ok _ h' => .ok h'
      | .error f _ => .error f

section Calls

variable {C : Type} {exec : C → Prog K ε Unit} {leak : C → List K} {Stops : C → ε → Prop}

variable (hcalls : ∀ call own,
  Owns own (exec call) (fun _ own' => Leaves own (leak call) own') (Stops call))

include hcalls

theorem run_live (h : Heap K) (calls : List C) :
    match run (callStep exec) (.ok h) calls with
    | .ok h' => h'.live.map Prod.snd = h.live.map Prod.snd ++ calls.flatMap leak
    | .error .misuse => False
    | .error (.stop e) => ∃ call ∈ calls, Stops call e := by
  induction calls generalizing h with
  | nil => simp
  | cons call calls ih =>
      have hcall := hcalls call h.live h [] rfl
      rw [run_cons, callStep]
      cases hexec : exec call h with
      | ok a h' =>
          rw [hexec] at hcall
          obtain ⟨own', hlive, more, rfl, hmore⟩ := hcall
          rw [List.nil_append] at hlive
          have hrest := ih h'
          cases hrun : run (callStep exec) (.ok h') calls with
          | ok h'' =>
              rw [hrun] at hrest
              show h''.live.map Prod.snd = _
              rw [hrest, hlive, List.map_append, hmore, List.flatMap_cons, List.append_assoc]
          | error f =>
              rw [hrun] at hrest
              cases f with
              | misuse => exact hrest
              | stop e =>
                  obtain ⟨call', hmem, hstops⟩ := hrest
                  exact ⟨call', List.mem_cons_of_mem call hmem, hstops⟩
      | error f h' =>
          rw [hexec] at hcall
          rw [run_fixed fun _ => rfl]
          cases f with
          | misuse => exact hcall
          | stop e => exact ⟨call, List.mem_cons_self, hcall⟩

/-- **The run rule**: calls that each misuse nothing and leave known objects
misuse nothing together, and leave all of these. -/
theorem run_calls (calls : List C) :
    run (callStep exec) (.ok .start) calls ≠ .error .misuse
      ∧ ((∀ call ∈ calls, ∀ e, ¬ Stops call e) →
          ∃ h, run (callStep exec) (.ok .start) calls = .ok h)
      ∧ ∀ h, run (callStep exec) (.ok .start) calls = .ok h →
          h.live.map Prod.snd = calls.flatMap leak := by
  have hrun := run_live hcalls .start calls
  cases h : run (callStep exec) (.ok .start) calls with
  | error f =>
      rw [h] at hrun
      cases f with
      | misuse => exact hrun.elim
      | stop e =>
          refine ⟨nofun, ?_, nofun⟩
          intro hnone
          obtain ⟨call, hmem, hstops⟩ := hrun
          exact absurd hstops (hnone call hmem e)
  | ok h' =>
      rw [h] at hrun
      refine ⟨nofun, fun _ => ⟨h', rfl⟩, ?_⟩
      intro h'' heq
      cases heq
      exact hrun

end Calls

end Lib.Handles
