import Mathlib.Data.Finset.Erase
import Mathlib.Data.Finset.Insert
import Mathlib.Data.Multiset.AddSub
import Mathlib.Data.Multiset.UnionInter
import Neroshop.Lib.Runs

/-!
# Owners

Objects, and the smart pointers that are made for them from plain references.
Every such pointer takes itself for the only owner: when it goes, it frees its
object, whether or not another one holds the object too. The objects are
numbered, and a freed one does not come back.

A store is sound while each object that is held is live and held once. That is
what it takes: a run of events and the end of all owners misuse no object
exactly when each event of the run keeps the store sound.
-/

namespace Lib.Owners

open Lib.Runs

/-- What happens to the objects. -/
inductive Event where
  -- a new object
  | make
  -- an owner takes the object
  | hold (i : Nat)
  -- the object is read or written
  | use (i : Nat)
  -- an owner goes, and the object with it
  | drop (i : Nat)
  -- the object is freed by somebody else
  | delete (i : Nat)
  deriving DecidableEq

/-- The objects that are live, and one entry for each owner of an object. -/
structure Store where
  next : Nat
  live : Finset Nat
  held : Multiset Nat
  live_below : ∀ i ∈ live, i < next
  held_below : ∀ i ∈ held, i < next

/-- No objects yet. -/
def Store.start : Store := ⟨0, ∅, 0, nofun, nofun⟩

/-- A new object, under the next number. -/
def Store.make (s : Store) : Store where
  next := s.next + 1
  live := insert s.next s.live
  held := s.held
  live_below := by
    intro i hi
    rcases Finset.mem_insert.mp hi with rfl | hi
    · exact Nat.lt_succ_self _
    · exact Nat.lt_succ_of_lt (s.live_below i hi)
  held_below := fun i hi => Nat.lt_succ_of_lt (s.held_below i hi)

/-- One more owner of a live object. -/
def Store.hold (s : Store) (i : Nat) (h : i ∈ s.live) : Store where
  next := s.next
  live := s.live
  held := i ::ₘ s.held
  live_below := s.live_below
  held_below := by
    intro j hj
    rcases Multiset.mem_cons.mp hj with rfl | hj
    · exact s.live_below j h
    · exact s.held_below j hj

/-- The object is gone; its owners are not. -/
def Store.delete (s : Store) (i : Nat) : Store where
  next := s.next
  live := s.live.erase i
  held := s.held
  live_below := fun j hj => s.live_below j (Finset.mem_of_mem_erase hj)
  held_below := s.held_below

/-- An owner is gone, and the object with it. -/
def Store.drop (s : Store) (i : Nat) : Store where
  next := s.next
  live := s.live.erase i
  held := s.held.erase i
  live_below := fun j hj => s.live_below j (Finset.mem_of_mem_erase hj)
  held_below := fun j hj => s.held_below j (Multiset.mem_of_mem_erase hj)

/-- One event; `none` is the misuse of an object that is not live. -/
def Store.next? (s : Store) : Event → Option Store
  | .make => some s.make
  | .hold i => if h : i ∈ s.live then some (s.hold i h) else none
  | .use i => if i ∈ s.live then some s else none
  | .drop i => if i ∈ s.live then some (s.drop i) else none
  | .delete i => if i ∈ s.live then some (s.delete i) else none

/-- One event; `none` is the state behind a use of something that is gone. -/
def step (o : Option Store) (e : Event) : Option Store := o.bind (·.next? e)

/-- Each object that is held is live, and held once. -/
structure Sound (s : Store) : Prop where
  once : s.held.Nodup
  live : ∀ i ∈ s.held, i ∈ s.live

/-- The events that keep a store sound. -/
def Fair (s : Store) : Event → Prop
  | .make => True
  | .hold i => i ∈ s.live ∧ i ∉ s.held
  | .use i => i ∈ s.live
  | .drop i => i ∈ s.live
  | .delete i => i ∈ s.live ∧ i ∉ s.held

/-- The run has misused nothing, and its store is sound. -/
def Safe (o : Option Store) : Prop := ∃ s, o = some s ∧ Sound s

/-- The run has misused an object, or is going to when its owners end. -/
def Doomed (o : Option Store) : Prop := ∀ s, o = some s → ¬ Sound s

theorem not_safe_iff {o : Option Store} : ¬ Safe o ↔ Doomed o := by
  constructor
  · intro h s hs hsound
    exact h ⟨s, hs, hsound⟩
  · rintro h ⟨s, hs, hsound⟩
    exact h s hs hsound

theorem sound_start : Sound .start := ⟨Multiset.nodup_zero, nofun⟩

/-! ## One event -/

section Step

variable {s : Store} {i : Nat}

theorem safe_some {t : Store} : Safe (some t) ↔ Sound t := by
  constructor
  · rintro ⟨_, ⟨⟩, h⟩
    exact h
  · intro h
    exact ⟨t, rfl, h⟩

theorem not_safe_none : ¬ Safe none := by
  rintro ⟨_, ⟨⟩, -⟩

theorem safe_ite {p : Prop} [Decidable p] {t : Store} :
    Safe (if p then some t else none) ↔ p ∧ Sound t := by
  by_cases hp : p
  · rw [if_pos hp, safe_some, and_iff_right hp]
  · rw [if_neg hp]
    exact iff_of_false not_safe_none fun h => hp h.1

theorem Sound.make_iff : Sound s.make ↔ Sound s := by
  constructor
  · intro h
    refine ⟨h.once, ?_⟩
    intro i hi
    refine (Finset.mem_insert.mp (h.live i hi)).resolve_left ?_
    exact Nat.ne_of_lt (s.held_below i hi)
  · intro h
    exact ⟨h.once, fun i hi => Finset.mem_insert_of_mem (h.live i hi)⟩

theorem Sound.hold_iff (hi : i ∈ s.live) : Sound (s.hold i hi) ↔ Sound s ∧ i ∉ s.held := by
  constructor
  · intro h
    have honce := Multiset.nodup_cons.mp h.once
    exact ⟨⟨honce.2, fun j hj => h.live j (Multiset.mem_cons_of_mem hj)⟩, honce.1⟩
  · rintro ⟨h, hnew⟩
    refine ⟨Multiset.nodup_cons.mpr ⟨hnew, h.once⟩, ?_⟩
    intro j hj
    rcases Multiset.mem_cons.mp hj with rfl | hj
    · exact hi
    · exact h.live j hj

theorem Sound.delete_iff : Sound (s.delete i) ↔ Sound s ∧ i ∉ s.held := by
  constructor
  · intro h
    refine ⟨⟨h.once, fun j hj => Finset.mem_of_mem_erase (h.live j hj)⟩, ?_⟩
    intro hheld
    exact Finset.notMem_erase i s.live (h.live i hheld)
  · rintro ⟨h, hother⟩
    refine ⟨h.once, ?_⟩
    intro j hj
    refine Finset.mem_erase.mpr ⟨?_, h.live j hj⟩
    rintro rfl
    exact hother hj

/-- The end of one owner takes no unsoundness away: another owner of the same
object is left without it. -/
theorem Sound.drop_iff (hi : i ∈ s.live) : Sound (s.drop i) ↔ Sound s := by
  constructor
  · intro h
    have hnone : i ∉ s.held.erase i := fun hheld =>
      Finset.notMem_erase i s.live (h.live i hheld)
    constructor
    · by_cases hheld : i ∈ s.held
      · rw [← Multiset.cons_erase hheld]
        exact Multiset.nodup_cons.mpr ⟨hnone, h.once⟩
      · exact Multiset.erase_of_notMem hheld ▸ h.once
    · intro j hj
      by_cases heq : j = i
      · exact heq ▸ hi
      · exact Finset.mem_of_mem_erase (h.live j ((Multiset.mem_erase_of_ne heq).mpr hj))
  · intro h
    refine ⟨h.once.erase i, ?_⟩
    intro j hj
    have hne := (Multiset.Nodup.mem_erase_iff h.once).mp hj
    exact Finset.mem_erase.mpr ⟨hne.1, h.live j hne.2⟩

/-- **The event rule**: a store is sound after an event exactly when it was
sound before and the event was fair. -/
theorem safe_next?_iff (s : Store) (e : Event) : Safe (s.next? e) ↔ Sound s ∧ Fair s e := by
  cases e with
  | make => rw [Store.next?, safe_some, Sound.make_iff, Fair, and_true]
  | hold i =>
      show Safe (if h : i ∈ s.live then some (s.hold i h) else none)
        ↔ Sound s ∧ i ∈ s.live ∧ i ∉ s.held
      by_cases hi : i ∈ s.live
      · rw [dif_pos hi, safe_some, Sound.hold_iff, and_iff_right hi]
      · rw [dif_neg hi]
        exact iff_of_false not_safe_none fun h => hi h.2.1
  | use i => rw [Store.next?, safe_ite, and_comm, Fair]
  | drop i =>
      rw [Store.next?, safe_ite, and_comm, Fair]
      exact and_congr_left Sound.drop_iff
  | delete i => rw [Store.next?, safe_ite, Sound.delete_iff, Fair, and_left_comm]

end Step

/-! ## Runs -/

/-- The event is fair, and the run has come to it. -/
def FairStep (o : Option Store) (e : Event) : Prop := ∃ s, o = some s ∧ Fair s e

theorem Safe.step {o : Option Store} {e : Event} (ho : Safe o) (he : FairStep o e) :
    Safe (step o e) := by
  obtain ⟨s, rfl, hfair⟩ := he
  exact (safe_next?_iff s e).mpr ⟨safe_some.mp ho, hfair⟩

theorem Safe.doomed_step {o : Option Store} {e : Event} (ho : Safe o) (he : ¬ FairStep o e) :
    Doomed (Owners.step o e) := by
  obtain ⟨s, rfl, -⟩ := ho
  rw [← not_safe_iff]
  intro hnext
  exact he ⟨s, rfl, ((safe_next?_iff s e).mp hnext).2⟩

theorem Doomed.step {o : Option Store} {e : Event} (ho : Doomed o) : Doomed (step o e) := by
  rw [← not_safe_iff]
  intro hnext
  cases o with
  | none => exact not_safe_none hnext
  | some s => exact ho s rfl ((safe_next?_iff s e).mp hnext).1

/-- **The run rule**: from a sound store, a run is safe exactly when each of
its events is fair. -/
theorem safe_run_iff {o : Option Store} (ho : Safe o) (es : List Event) :
    Safe (run step o es) ↔ Along step FairStep o es :=
  final_iff_along (fun _ _ => Safe.step) (fun _ _ => Safe.doomed_step)
    (fun _ _ => Doomed.step) (fun _ => id) (fun _ => not_safe_iff.mpr) ho es

section Fair

variable {s : Store} {i : Nat} {es : List Event}

theorem fairStep_some {e : Event} : FairStep (some s) e ↔ Fair s e := by
  constructor
  · rintro ⟨_, ⟨⟩, h⟩
    exact h
  · intro h
    exact ⟨s, rfl, h⟩

theorem along_use : Along step FairStep (some s) (.use i :: es)
    ↔ i ∈ s.live ∧ Along step FairStep (some s) es := by
  rw [along_cons, fairStep_some]
  refine and_congr_right fun hi => ?_
  rw [show step (some s) (.use i) = some s from if_pos hi]

theorem along_hold : Along step FairStep (some s) (.hold i :: es)
    ↔ ∃ hi : i ∈ s.live, i ∉ s.held ∧ Along step FairStep (some (s.hold i hi)) es := by
  rw [along_cons, fairStep_some]
  constructor
  · rintro ⟨⟨hi, hnew⟩, hrest⟩
    exact ⟨hi, hnew, (show step (some s) (.hold i) = some (s.hold i hi) from dif_pos hi) ▸ hrest⟩
  · rintro ⟨hi, hnew, hrest⟩
    exact ⟨⟨hi, hnew⟩,
      (show step (some s) (.hold i) = some (s.hold i hi) from dif_pos hi).symm ▸ hrest⟩

theorem along_drop : Along step FairStep (some s) (.drop i :: es)
    ↔ i ∈ s.live ∧ Along step FairStep (some (s.drop i)) es := by
  rw [along_cons, fairStep_some]
  refine and_congr_right fun hi => ?_
  rw [show step (some s) (.drop i) = some (s.drop i) from if_pos hi]

end Fair

theorem Doomed.run {o : Option Store} (ho : Doomed o) (es : List Event) :
    Doomed (run Owners.step o es) := run_inv (fun _ _ => Doomed.step) ho es

/-! ## The objects that are held -/

/-- What an event does to the objects that are held. -/
def Event.held (held : Multiset Nat) : Event → Multiset Nat
  | .hold i => i ::ₘ held
  | .drop i => held.erase i
  | _ => held

theorem held_next? {s s' : Store} {e : Event} (h : s.next? e = some s') :
    s'.held = e.held s.held := by
  cases e with
  | make =>
      cases h
      rfl
  | hold i =>
      unfold Store.next? at h
      dsimp only at h
      split at h
      · cases h
        rfl
      · cases h
  | use i | drop i | delete i =>
      unfold Store.next? at h
      dsimp only at h
      split at h
      · cases h
        rfl
      · cases h

theorem run_none (es : List Event) : run step none es = none := run_fixed (fun _ => rfl) es

theorem held_run {s s' : Store} {es : List Event} (h : run step (some s) es = some s') :
    s'.held = es.foldl Event.held s.held := by
  induction es generalizing s with
  | nil =>
      cases h
      rfl
  | cons e es ih =>
      rw [run_cons] at h
      cases hnext : s.next? e with
      | none =>
          rw [show step (some s) e = none from hnext, run_none] at h
          cases h
      | some t =>
          rw [show step (some s) e = some t from hnext] at h
          rw [ih h, List.foldl_cons, held_next? hnext]

/-! ## The end of the owners -/

/-- The owners end one after the other. -/
def ends (is : List Nat) : List Event := is.map .drop

theorem foldl_ends (is : List Nat) (held : Multiset Nat) :
    (ends is).foldl Event.held held = held - (is : Multiset Nat) := by
  induction is generalizing held with
  | nil => exact (Multiset.sub_zero held).symm
  | cons i is ih =>
      rw [ends, List.map_cons, List.foldl_cons]
      exact (ih (held.erase i)).trans (Multiset.sub_cons i held is).symm

section Ends

variable {s : Store} {i : Nat} {is : List Nat}

theorem held_drop (h : s.held = (i :: is : List Nat)) : (s.drop i).held = is := by
  show s.held.erase i = _
  rw [h]
  exact Multiset.erase_cons_head i is

theorem Sound.safe_ends (hs : Sound s) (h : s.held = is) :
    Safe (run Owners.step (some s) (ends is)) := by
  induction is generalizing s with
  | nil => exact safe_some.mpr hs
  | cons i is ih =>
      have hi : i ∈ s.live := hs.live i (h ▸ Multiset.mem_cons_self i is)
      show Safe (run Owners.step (s.next? (.drop i)) (ends is))
      rw [show s.next? (.drop i) = some (s.drop i) from if_pos hi]
      exact ih ((Sound.drop_iff hi).mpr hs) (held_drop h)

theorem sound_of_ends (hne : run step (some s) (ends is) ≠ none) (h : s.held = is) :
    Sound s := by
  induction is generalizing s with
  | nil =>
      refine ⟨h ▸ Multiset.nodup_zero, ?_⟩
      rw [h]
      exact nofun
  | cons i is ih =>
      change run step (s.next? (.drop i)) (ends is) ≠ none at hne
      by_cases hi : i ∈ s.live
      · rw [show s.next? (.drop i) = some (s.drop i) from if_pos hi] at hne
        exact (Sound.drop_iff hi).mp (ih hne (held_drop h))
      · rw [show s.next? (.drop i) = none from if_neg hi, run_none] at hne
        exact absurd rfl hne

end Ends

/-- **The closing rule**: the end of all owners misuses nothing exactly when
the run before it is safe. -/
theorem run_ends_iff {o : Option Store} {is : List Nat} (h : ∀ s, o = some s → s.held = is) :
    run step o (ends is) ≠ none ↔ Safe o := by
  cases o with
  | none =>
      rw [run_none]
      exact iff_of_false (fun hne => hne rfl) not_safe_none
  | some s =>
      rw [safe_some]
      constructor
      · intro hne
        exact sound_of_ends hne (h s rfl)
      · intro hs
        obtain ⟨t, ht, -⟩ := hs.safe_ends (h s rfl)
        rw [ht]
        exact nofun

/-! ## Programs

A program of calls: each makes events, which its state decides, and leads to
the next state. `pointers` are the owners that there are in a state. -/

section Programs

variable {σ ι : Type} (call : σ → ι → List Event × σ) (pointers : σ → List Nat)

/-- The next call, with the events it makes. -/
def callStep (s : Option Store × σ) (i : ι) : Option Store × σ :=
  let r := call s.2 i
  (run step s.1 r.1, r.2)

/-- The calls, and the end of all owners behind them, misuse nothing. -/
def Closes (c : σ) (is : List ι) : Prop :=
  let s := run (callStep call) (some .start, c) is
  run step s.1 (ends (pointers s.2)) ≠ none

/-- The call is one of those, and the run has come to it. -/
def FineStep (Fine : Store → σ → ι → Prop) (s : Option Store × σ) (i : ι) : Prop :=
  ∃ store, s.1 = some store ∧ Fine store s.2 i

/-- A call does to the owners what its events do to the objects that are held. -/
def Tracks : Prop :=
  ∀ c i, (call c i).1.foldl Event.held (pointers c : Multiset Nat) = pointers (call c i).2

/-- The owners are those that hold the objects. -/
def Holds (s : Option Store × σ) : Prop := ∀ store, s.1 = some store → store.held = pointers s.2

variable {call pointers}

theorem Holds.step (htracks : Tracks call pointers) {s : Option Store × σ}
    (h : Holds pointers s) (i : ι) : Holds pointers (callStep call s i) := by
  intro store' hstore'
  cases hs : s.1 with
  | none =>
      have hnone : run Owners.step s.1 (call s.2 i).1 = none := by rw [hs, run_none]
      cases hnone.symm.trans hstore'
  | some store =>
      have hrun : run Owners.step (some store) (call s.2 i).1 = some store' := hs ▸ hstore'
      rw [held_run hrun, h store hs]
      exact htracks s.2 i

/-- **The program rule**: where, from sound stores, the events of a call are
fair exactly when the call is fine, a run of calls closes exactly when each of
its calls is fine. -/
theorem closes_iff (htracks : Tracks call pointers) {Fine : Store → σ → ι → Prop}
    (hfine : ∀ store c i, Sound store → store.held = pointers c →
      (Along Owners.step FairStep (some store) (call c i).1 ↔ Fine store c i))
    {c : σ} (hc : pointers c = []) (is : List ι) :
    Closes call pointers c is
      ↔ Along (callStep call) (FineStep Fine) (some .start, c) is := by
  let Inv : Option Store × σ → Prop := fun s => Safe s.1 ∧ Holds pointers s
  let Lost : Option Store × σ → Prop := fun s => Doomed s.1
  have hstart : Inv (some .start, c) := by
    refine ⟨safe_some.mpr sound_start, ?_⟩
    rintro _ ⟨⟩
    rw [hc]
    rfl
  have hcall : ∀ s i, Inv s → (Safe (callStep call s i).1 ↔ FineStep Fine s i) := by
    rintro ⟨_, c⟩ i ⟨⟨store, rfl, hs⟩, hholds⟩
    show Safe (run Owners.step (some store) (call c i).1) ↔ _
    rw [safe_run_iff (safe_some.mpr hs), hfine store c i hs (hholds store rfl)]
    constructor
    · intro h
      exact ⟨store, rfl, h⟩
    · rintro ⟨_, ⟨⟩, h⟩
      exact h
  have hgood : ∀ s i, Inv s → FineStep Fine s i → Inv (callStep call s i) :=
    fun s i h hfine => ⟨(hcall s i h).mpr hfine, h.2.step htracks i⟩
  have hbad : ∀ s i, Inv s → ¬ FineStep Fine s i → Lost (callStep call s i) := by
    intro s i h hnot
    exact not_safe_iff.mp fun hsafe => hnot ((hcall s i h).mp hsafe)
  have hlost : ∀ s i, Lost s → Lost (callStep call s i) := fun s i h => h.run _
  have hholds : Holds pointers (run (callStep call) (some .start, c) is) :=
    run_inv (fun _ i h => h.step htracks i) hstart.2 is
  rw [Closes, run_ends_iff hholds]
  have hsafe : ∀ s, Inv s → Safe s.1 := fun s h => h.1
  exact final_iff_along hgood hbad hlost hsafe (fun s h => not_safe_iff.mpr h) hstart is

end Programs

end Lib.Owners
