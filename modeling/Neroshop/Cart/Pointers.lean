import Mathlib.Algebra.Order.Group.Multiset
import Neroshop.Cart.Change
import Neroshop.Lib.Owners

/-!
# Cart — who owns the items

`cart.cpp` once more, with the pointers. `load` makes a `std::shared_ptr` of
the reference it is given, and the item goes when the entry is erased; the
loop of `remove_from_guest_cart` reads the item again after that. The
accessors that are stubs so far answer anything at each call.

* `Shared`: the cart of `Cart.Remove` with the objects behind its entries.
* `Fine`: the calls that are about live items, hold each item once, and free
  nothing that is still in use.
-/

namespace Neroshop.Cart.Pointers

open Lib.CStr Lib.Owners Lib.Runs Lib.Sweep

/-- The items that have been made, by their numbers, and the cart with the
pointers that it holds. -/
structure Shared where
  made : List Item
  entries : List (Nat × Item)
  state : State
  contents_eq : state.contents = entries.map Prod.snd

/-- The objects that the cart holds. -/
def Shared.pointers (c : Shared) : List Nat := c.entries.map Prod.fst

/-- An empty cart, before any item is made. -/
def Shared.start (quantity : UInt32 → UInt32) : Shared :=
  ⟨[], [], ⟨[], quantity, [], []⟩, rfl⟩

/-- The calls, and what the program does with its items. -/
inductive Op where
  | make (item : Item)
  -- an item is read through a pointer to it
  | read (i : Nat)
  | load (i : Nat) (quantity : UInt32)
  | remove (i : Nat) (quantity : Int32)
  | change (i : Nat) (quantity : Int32)
  | empty
  -- an item is freed by somebody else than the cart
  | delete (i : Nat)

section Calls

variable (limits : Limits) (acc : Accessors) (item : Item)

/-- `remove_from_guest_cart` comes to the loop over the entries. -/
def emptied (quantity : Int32) (s : State) : Bool :=
  acc.inCart item.id && s.getQuantity item ≤ quantity.toUInt32

/-- `change_quantity` comes to `remove_from_guest_cart`. -/
def removes (quantity : Int32) (s : State) : Bool :=
  acc.inCart item.id && acc.inStock item.id &&
    let (quantity, s) := withinStock acc item quantity s
    let itemQty := s.getQuantity item
    quantity.toUInt32 ≠ itemQty && !(isFull limits acc s && quantity > 0)
      && (withinCart limits acc itemQty (clamp limits quantity) s).1 ≤ 0

/-- The entry, with the item that it points to, is one of the item. -/
def namedEntry (entry : Nat × Item) : Bool := named item entry.2

/-- A turn of the loop: `item.get_id() == contents[i]->get_id()`, and the
`erase`. -/
def turn (i : Nat) (entry : Nat × Item) : List Event :=
  .use i :: .use entry.1 :: if namedEntry item entry then [.drop entry.1] else []

/-- The loop, and `remove_db(item.get_id())`. -/
def eraseEvents (i : Nat) (entries : List (Nat × Item)) : List Event :=
  (visits (namedEntry item) entries).flatMap (turn item i) ++ [.use i]

/-- The objects that the loop frees. -/
def erased (entries : List (Nat × Item)) : List Nat :=
  ((visits (namedEntry item) entries).filter (namedEntry item)).map Prod.fst

theorem contents_load (quantity : UInt32) (s : State) :
    (load acc item quantity s).contents =
      if acc.inStock item.id then s.contents ++ [item] else s.contents := by
  unfold load
  cases acc.inStock item.id <;> rfl

theorem contents_remove (quantity : Int32) (s : State) :
    (removeFromGuestCart acc item quantity s).contents =
      if emptied acc item quantity s then eraseLoop (named item) s.contents
      else s.contents := by
  unfold emptied
  cases hin : acc.inCart item.id with
  | false =>
      unfold removeFromGuestCart
      rw [hin]
      rfl
  | true =>
      rw [(removeFromGuestCart_eq quantity s hin).2]
      refine if_congr ?_ rfl rfl
      rw [Bool.true_and, decide_eq_true_iff, UInt32.le_iff_toNat_le]
      exact Nat.sub_eq_zero_iff_le

/-- Only the contents and the quantity of the item decide. -/
theorem contents_remove_same {quantity : Int32} {s t : State} (h : Same item s t) :
    (removeFromGuestCart acc item quantity t).contents =
      if emptied acc item quantity s then eraseLoop (named item) s.contents
      else s.contents := by
  rw [contents_remove, emptied, emptied, h.1, h.2]

theorem contents_change (quantity : Int32) (s : State) :
    (changeQuantity limits acc item quantity s).contents =
      if removes limits acc item quantity s
          && emptied acc item limits.maxQuantity.toInt32 s
      then eraseLoop (named item) s.contents else s.contents := by
  unfold changeQuantity removes
  cases acc.inCart item.id with
  | false => rfl
  | true =>
  cases acc.inStock item.id with
  | false => rfl
  | true =>
  have hsame := same_withinStock acc item quantity s
  simp only [Bool.not_true, Bool.false_eq_true, if_false, Bool.true_and]
  generalize withinStock acc item quantity s = w at hsame
  obtain ⟨q, t⟩ := w
  dsimp only at hsame ⊢
  by_cases hq : q.toUInt32 = t.getQuantity item
  · rw [if_pos hq]
    simp [hq, hsame.2]
  rw [if_neg hq]
  by_cases hfull : isFull limits acc t = true ∧ q > 0
  · rw [if_pos hfull]
    simp [hfull, hsame.2]
  rw [if_neg hfull]
  have hfull' : (isFull limits acc t && decide (q > 0)) = false := by
    simpa using hfull
  have hsame' := same_withinCart limits acc item (clamp limits q) t
    (t.getQuantity item)
  generalize withinCart limits acc (t.getQuantity item) (clamp limits q) t = w at hsame' ⊢
  obtain ⟨q', u⟩ := w
  dsimp only at hsame' ⊢
  have hu : Same item s u := ⟨hsame'.1.trans hsame.1, hsame'.2.trans hsame.2⟩
  rw [settle]
  by_cases hq' : q' ≤ 0
  · rw [if_pos hq', contents_remove_same acc item hu]
    simp [hq, hfull', hq']
  · rw [if_neg hq']
    simp [hq', hu.2]

variable (c : Shared) (i : Nat)

/-! Each call, as what it does to the objects and the cart behind it. -/

/-- `Cart::load`: the item is read, and held when it is in stock. -/
def Shared.load (quantity : UInt32) : List Event × Shared :=
  (.use i :: if acc.inStock item.id then [.hold i, .use i] else [],
    { c with
      entries := if acc.inStock item.id then c.entries ++ [(i, item)] else c.entries
      state := Cart.load acc item quantity c.state
      contents_eq := by
        rw [contents_load, c.contents_eq]
        split
        · rw [List.map_append]
          rfl
        · rfl })

/-- The loop, where the calls before it come to it. -/
def Shared.erase (b : Bool) (state : State)
    (h : state.contents =
      if b then eraseLoop (named item) c.state.contents else c.state.contents) :
    List Event × Shared :=
  (.use i :: if b then eraseEvents item i c.entries else [],
    { c with
      entries := if b then eraseLoop (namedEntry item) c.entries else c.entries
      state := state
      contents_eq := by
        rw [h, c.contents_eq]
        split
        · exact (map_eraseLoop Prod.snd (named item) c.entries).symm
        · rfl })

/-- `Cart::remove_from_guest_cart` -/
def Shared.remove (quantity : Int32) : List Event × Shared :=
  c.erase item i (emptied acc item quantity c.state)
    (removeFromGuestCart acc item quantity c.state) (contents_remove acc item quantity c.state)

/-- `Cart::change_quantity`: the items of the entries go when it comes to the
erasing loop. -/
def Shared.change (quantity : Int32) : List Event × Shared :=
  c.erase item i (removes limits acc item quantity c.state
      && emptied acc item limits.maxQuantity.toInt32 c.state)
    (changeQuantity limits acc item quantity c.state)
    (contents_change limits acc item quantity c.state)

/-- The entries go one after the other. -/
def Shared.empty : List Event × Shared :=
  (ends c.pointers,
    { c with entries := [], state := { c.state with contents := [] }, contents_eq := rfl })

/-- A call about the item that is numbered `i`. -/
def Shared.about (f : Item → List Event × Shared) : List Event × Shared :=
  match c.made[i]? with
  | none => ([.use i], c)
  | some item => f item

/-- What a call does to the objects, and the cart it leaves. -/
def Shared.call : Op → List Event × Shared
  | .make item => ([.make], { c with made := c.made ++ [item] })
  | .read i => ([.use i], c)
  | .load i quantity => c.about i fun item => c.load acc item i quantity
  | .remove i quantity => c.about i fun item => c.remove acc item i quantity
  | .change i quantity => c.about i fun item => c.change limits acc item i quantity
  | .empty => c.empty
  | .delete i => ([.delete i], c)

end Calls

/-! ## One call -/

/-- What is read or freed is live. An item is not loaded while the cart holds
it, not erased through the pointer that the cart holds, and not freed by others
while the cart holds it. -/
def Fine (limits : Limits) (store : Store) (c : Shared) : Accessors × Op → Prop
  | (_, .make _) => True
  | (_, .read i) => i ∈ store.live
  | (acc, .load i _) => i ∈ store.live ∧ ∀ item, c.made[i]? = some item →
      acc.inStock item.id = true → i ∉ c.pointers
  | (acc, .remove i quantity) => i ∈ store.live ∧ ∀ item, c.made[i]? = some item →
      emptied acc item quantity c.state = true → i ∉ erased item c.entries
  | (acc, .change i quantity) => i ∈ store.live ∧ ∀ item, c.made[i]? = some item →
      removes limits acc item quantity c.state = true →
      emptied acc item limits.maxQuantity.toInt32 c.state = true → i ∉ erased item c.entries
  | (_, .empty) => True
  | (_, .delete i) => i ∈ store.live ∧ i ∉ c.pointers

/-! ### The loop -/

section Loop

variable {item : Item} {i : Nat} {store : Store} {vs : List (Nat × Item)}

/-- The item is read again after the loop: no turn may free it. -/
theorem along_turns (hs : Sound store) (hheld : ∀ e ∈ vs, e.1 ∈ store.held)
    (hnodup : (vs.map Prod.fst).Nodup) :
    Along Lib.Owners.step FairStep (some store) (vs.flatMap (turn item i) ++ [.use i])
      ↔ i ∈ store.live ∧ i ∉ (vs.filter (namedEntry item)).map Prod.fst := by
  induction vs generalizing store with
  | nil =>
      show Along Lib.Owners.step FairStep (some store) [.use i] ↔ _
      rw [along_use]
      simp
  | cons e vs ih =>
      have hlive : e.1 ∈ store.live := hs.live e.1 (hheld e List.mem_cons_self)
      rw [List.map_cons, List.nodup_cons] at hnodup
      rw [List.flatMap_cons, turn, List.append_assoc, List.cons_append, along_use,
        List.cons_append, along_use, and_iff_right hlive]
      by_cases hnamed : namedEntry item e = true
      · have hsound : Sound (store.drop e.1) := (Sound.drop_iff hlive).mpr hs
        have hrest : ∀ e' ∈ vs, e'.1 ∈ (store.drop e.1).held := by
          intro e' he'
          have hne : e'.1 ≠ e.1 := fun heq => hnodup.1 (heq ▸ List.mem_map_of_mem he')
          exact (Multiset.mem_erase_of_ne hne).mpr (hheld e' (List.mem_cons_of_mem e he'))
        rw [if_pos hnamed, List.cons_append, along_drop, and_iff_right hlive,
          List.nil_append, ih hsound hrest hnodup.2, List.filter_cons_of_pos hnamed,
          List.map_cons, List.mem_cons, not_or]
        show i ∈ store.live ∧ i ∈ store.live.erase e.1 ∧ _ ↔ _
        rw [Finset.mem_erase]
        tauto
      · rw [if_neg hnamed, List.nil_append, List.filter_cons_of_neg hnamed,
          ih hs (fun e' he' => hheld e' (List.mem_cons_of_mem e he')) hnodup.2]
        tauto

theorem foldl_turns (held : Multiset Nat) :
    (vs.flatMap (turn item i)).foldl Event.held held
      = held - ((vs.filter (namedEntry item)).map Prod.fst : Multiset Nat) := by
  induction vs generalizing held with
  | nil => exact (Multiset.sub_zero held).symm
  | cons e vs ih =>
      rw [List.flatMap_cons, List.foldl_append, ih, turn]
      by_cases hnamed : namedEntry item e = true
      · rw [if_pos hnamed, List.filter_cons_of_pos hnamed]
        exact (Multiset.sub_cons e.1 held _).symm
      · rw [if_neg hnamed, List.filter_cons_of_neg hnamed]
        rfl

/-- The loop leaves the cart with what its entries point to. -/
theorem foldl_erase (entries : List (Nat × Item)) :
    (eraseEvents item i entries).foldl Event.held (entries.map Prod.fst : Multiset Nat)
      = ((eraseLoop (namedEntry item) entries).map Prod.fst : Multiset Nat) := by
  rw [eraseEvents, List.foldl_append, foldl_turns]
  show (entries.map Prod.fst : Multiset Nat) - (erased item entries : Multiset Nat) = _
  have hperm := List.Perm.map Prod.fst (@visits_perm _ (namedEntry item) entries)
  rw [List.map_append] at hperm
  rw [← Multiset.coe_eq_coe.mpr hperm, ← Multiset.coe_add]
  exact add_tsub_cancel_left _ _

theorem along_erase {entries : List (Nat × Item)} (hs : Sound store)
    (hheld : store.held = (entries.map Prod.fst : Multiset Nat)) :
    Along Lib.Owners.step FairStep (some store) (eraseEvents item i entries)
      ↔ i ∈ store.live ∧ i ∉ erased item entries := by
  have hsub := visits_sublist (p := namedEntry item) entries
  have hnodup : (entries.map Prod.fst).Nodup := Multiset.coe_nodup.mp (hheld ▸ hs.once)
  refine along_turns hs ?_ ((hsub.map Prod.fst).nodup hnodup)
  intro e he
  rw [hheld]
  exact List.mem_map_of_mem (hsub.subset he)

end Loop

/-! ### The calls -/

section Calls

variable {limits : Limits} {acc : Accessors} {item : Item} {i : Nat} {c : Shared}
  {s : Session}

/-- The call does to the entries what its events do to the objects. -/
def Keeps (c : Shared) (r : List Event × Shared) : Prop :=
  r.1.foldl Event.held (c.pointers : Multiset Nat) = r.2.pointers

theorem keeps_erase {b : Bool} {state : State} {h} : Keeps c (c.erase item i b state h) := by
  cases b with
  | false => rfl
  | true => exact foldl_erase c.entries

theorem keeps_about {f : Item → List Event × Shared} (h : ∀ item, Keeps c (f item)) :
    Keeps c (c.about i f) := by
  unfold Shared.about
  split
  · rfl
  · exact h _

theorem keeps_load (quantity : UInt32) : Keeps c (c.load acc item i quantity) := by
  show List.foldl Event.held (c.pointers : Multiset Nat)
      (.use i :: if acc.inStock item.id then [.hold i, .use i] else [])
    = ((if acc.inStock item.id then c.entries ++ [(i, item)] else c.entries).map Prod.fst
      : Multiset Nat)
  split
  · show i ::ₘ (c.pointers : Multiset Nat) = _
    rw [List.map_append, Multiset.cons_coe]
    exact Multiset.coe_eq_coe.mpr (List.perm_append_singleton i c.pointers).symm
  · rfl

theorem keeps_empty : Keeps c c.empty := by
  show (ends c.pointers).foldl Event.held _ = _
  rw [foldl_ends]
  exact (congrArg (· - _) (Multiset.add_zero _)).symm.trans (add_tsub_cancel_left _ 0)

theorem tracks_call (limits : Limits) :
    Tracks (fun c (call : Accessors × Op) => c.call limits call.1 call.2) Shared.pointers := by
  intro c call
  obtain ⟨acc, op⟩ := call
  cases op with
  | make item => rfl
  | read i => rfl
  | load i quantity => exact keeps_about fun item => keeps_load quantity
  | remove i quantity => exact keeps_about fun item => keeps_erase
  | change i quantity => exact keeps_about fun item => keeps_erase
  | empty => exact keeps_empty
  | delete i => rfl

/-- A call about an item, where it is made, and where it is not. -/
theorem along_about {store : Store} {f : Item → List Event × Shared} {P : Item → Prop}
    (h : ∀ item, Along Lib.Owners.step FairStep (some store) (f item).1
      ↔ i ∈ store.live ∧ P item) :
    Along Lib.Owners.step FairStep (some store) (c.about i f).1
      ↔ i ∈ store.live ∧ ∀ item, c.made[i]? = some item → P item := by
  unfold Shared.about
  cases hmade : c.made[i]? with
  | none =>
      show Along Lib.Owners.step FairStep (some store) [.use i] ↔ _
      rw [along_use]
      simp
  | some item =>
      show Along Lib.Owners.step FairStep (some store) (f item).1 ↔ _
      rw [h item]
      simp

theorem along_call_erase {store : Store} (hs : Sound store)
    (hheld : store.held = (c.pointers : Multiset Nat)) {b : Bool} {state : State} {h} :
    Along Lib.Owners.step FairStep (some store) (c.erase item i b state h).1
      ↔ i ∈ store.live ∧ (b = true → i ∉ erased item c.entries) := by
  show Along Lib.Owners.step FairStep (some store)
    (.use i :: if b = true then eraseEvents item i c.entries else []) ↔ _
  rw [along_use]
  split
  · next hb =>
      rw [along_erase hs hheld]
      tauto
  · next hb => simp [hb]

theorem along_load {store : Store} (hheld : store.held = (c.pointers : Multiset Nat))
    (quantity : UInt32) :
    Along Lib.Owners.step FairStep (some store) (c.load acc item i quantity).1
      ↔ i ∈ store.live ∧ (acc.inStock item.id = true → i ∉ c.pointers) := by
  show Along Lib.Owners.step FairStep (some store)
    (.use i :: if acc.inStock item.id = true then [.hold i, .use i] else []) ↔ _
  rw [along_use]
  refine and_congr_right fun hi => ?_
  split
  · next hstock =>
      rw [along_hold, exists_prop_of_true hi]
      show (i ∉ store.held ∧ Along Lib.Owners.step FairStep _ [.use i]) ↔ _
      rw [along_use, hheld]
      simp [hstock, Store.hold, hi]
  · next hstock => simp [hstock]

/-- The calls whose events are fair. -/
theorem along_call (limits : Limits) (store : Store) (c : Shared) (call : Accessors × Op)
    (hs : Sound store) (hheld : store.held = (c.pointers : Multiset Nat)) :
    Along Lib.Owners.step FairStep (some store) (c.call limits call.1 call.2).1
      ↔ Fine limits store c call := by
  obtain ⟨acc, op⟩ := call
  cases op with
  | make item =>
      show Along Lib.Owners.step FairStep (some store) [.make] ↔ True
      rw [along_cons, fairStep_some]
      exact iff_true_intro ⟨trivial, trivial⟩
  | read i =>
      show Along Lib.Owners.step FairStep (some store) [.use i] ↔ i ∈ store.live
      rw [along_use]
      exact and_iff_left trivial
  | load i quantity => exact along_about fun item => along_load hheld quantity
  | remove i quantity => exact along_about fun item => along_call_erase hs hheld
  | change i quantity =>
      refine along_about fun item => ?_
      rw [Shared.change, along_call_erase hs hheld, Bool.and_eq_true, and_imp]
  | empty =>
      show Along Lib.Owners.step FairStep (some store) (ends c.pointers) ↔ True
      rw [iff_true, ← safe_run_iff (safe_some.mpr hs)]
      exact hs.safe_ends hheld
  | delete i =>
      show Along Lib.Owners.step FairStep (some store) [.delete i]
        ↔ i ∈ store.live ∧ i ∉ c.pointers
      rw [along_cons, fairStep_some, Fair, hheld]
      exact and_iff_left trivial

end Calls

/-! ## Whole runs -/

/-- **Who owns the items of a cart**: whatever the accessors answer, a run of
calls with the end of the cart behind it reads and frees live items only
exactly when each of its calls is fine. No item is loaded while the cart holds
it, and no item is removed to its last piece through the pointer that the cart
holds: the loop frees it and goes on to read it. -/
theorem pointers_iff (limits : Limits) (quantity : UInt32 → UInt32)
    (calls : List (Accessors × Op)) :
    Closes (fun c call => c.call limits call.1 call.2) Shared.pointers (.start quantity) calls
      ↔ Along (callStep fun c call => c.call limits call.1 call.2)
        (FineStep (Fine limits)) (some .start, .start quantity) calls :=
  closes_iff (tracks_call limits) (along_call limits) rfl calls

end Neroshop.Cart.Pointers
