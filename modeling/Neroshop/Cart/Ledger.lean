import Mathlib.Algebra.Ring.Nat
import Neroshop.Cart.Change
import Neroshop.Lib.Runs

/-!
# Cart — what it holds over whole runs

`cart.cpp`: any order of `load`, `remove_from_guest_cart`, `change_quantity`
and `empty`.

Four accessors are stubs so far: `in_cart` answers true, `in_stock` false, and
`get_stock_quantity` and `get_total_quantity` answer 0 (`stubs`). With these
nothing is ever loaded. The invariant is about what they are documented to
answer, over the entries of the cart and the stock at that moment
(`documented`).

* `WellFormed`: what a cart promises of its entries.
* `Fits`: the calls after which it still does.
* `Frame`: the items that a call is not about.
-/

namespace Neroshop.Cart

open Lib.CStr Lib.Runs Lib.Sweep Lib.Words

/-- The pieces of some entries. -/
def State.pieces (s : State) (entries : List Item) : Nat :=
  (entries.map fun entry => (s.getQuantity entry).toNat).sum

/-- The number of pieces that the stock has of each item. -/
abbrev Stock := UInt32 → UInt32

/-- What the accessors are documented to answer, in place of their stubs. -/
def documented (stock : Stock) (s : State) : Accessors :=
  { inCart := fun id => s.contents.any fun entry => entry.id == id
    inStock := fun id => decide (0 < stock id)
    getStockQuantity := stock
    getTotalQuantity := UInt32.ofNat (s.pieces s.contents) }

/-- `empty` -/
def empty (s : State) : State := { s with contents := [] }

/-- The calls on a cart. -/
inductive Op where
  | load (item : Item) (quantity : UInt32)
  | remove (item : Item) (quantity : Int32)
  | change (item : Item) (quantity : Int32)
  | empty

/-- One call, with what the accessors answer. -/
def call (limits : Limits) (acc : Accessors) (s : State) : Op → State
  | .load item quantity => load acc item quantity s
  | .remove item quantity => removeFromGuestCart acc item quantity s
  | .change item quantity => changeQuantity limits acc item quantity s
  | .empty => Cart.empty s

/-- One call, with the stock at that moment and accessors as documented. -/
def step (limits : Limits) (s : State) (c : Stock × Op) : State :=
  call limits (documented c.1 s) s c.2

/-- The entries are of different items, with at least one piece each, and
they are no more than the cart can hold. -/
structure WellFormed (limits : Limits) (s : State) : Prop where
  distinct : (s.contents.map Item.id).Nodup
  positive : ∀ entry ∈ s.contents, 0 < (s.getQuantity entry).toNat
  entries : s.contents.length ≤ limits.maxItems.toNat
  pieces : s.pieces s.contents ≤ limits.maxQuantity.toNat

/-- What `load` takes of the amount. -/
def loadedQuantity (stock : Stock) (item : Item) (quantity : UInt32) : UInt32 :=
  if quantity ≥ stock item.id then stock item.id else quantity

/-- A `load` for which the cart has room: of an item that has no entry, and of
at least one piece if the item is in stock. Every other call is free. -/
def Fits (limits : Limits) (s : State) : Stock × Op → Prop
  | (stock, .load item quantity) =>
      let n := (loadedQuantity stock item quantity).toNat
      item.id ∉ s.contents.map Item.id
        ∧ (0 < stock item.id → 0 < n ∧ s.contents.length < limits.maxItems.toNat
          ∧ s.pieces s.contents + n ≤ limits.maxQuantity.toNat)
  | _ => True

section Pieces

variable {s t : State} {item : Item} {entries : List Item}

theorem pieces_congr (h : ∀ entry ∈ entries, t.getQuantity entry = s.getQuantity entry) :
    t.pieces entries = s.pieces entries := by
  unfold State.pieces
  congr 1
  apply List.map_congr_left
  intro entry hentry
  rw [h entry hentry]

/-- The entries of other items. -/
def others (item : Item) (entries : List Item) : List Item := entries.filter (!named item ·)

theorem mem_others {entry : Item} :
    entry ∈ others item entries ↔ entry ∈ entries ∧ entry.id ≠ item.id := by
  rw [others, List.mem_filter, Bool.not_eq_true', named, beq_eq_false_iff_ne, ne_comm]

theorem others_eq_self (h : item.id ∉ entries.map Item.id) : others item entries = entries := by
  apply List.filter_eq_self.mpr
  intro entry hentry
  have hne : item.id ≠ entry.id := by
    intro heq
    exact h (heq ▸ List.mem_map_of_mem hentry)
  simp [named, hne]

/-- An item has one entry, so its pieces are those of that entry. -/
theorem pieces_others (s : State) (hnodup : (entries.map Item.id).Nodup)
    (hitem : item.id ∈ entries.map Item.id) :
    s.pieces entries = s.pieces (others item entries) + (s.getQuantity item).toNat := by
  induction entries with
  | nil => cases hitem
  | cons entry entries ih =>
      rw [List.map_cons, List.nodup_cons] at hnodup
      obtain ⟨hnew, hrest⟩ := hnodup
      have hcons : ∀ xs, s.pieces (entry :: xs) = (s.getQuantity entry).toNat + s.pieces xs :=
        fun xs => List.sum_cons
      by_cases heq : item.id = entry.id
      · have hothers : others item (entry :: entries) = entries := by
          rw [others, List.filter_cons_of_neg (by simp [named, heq])]
          exact others_eq_self (heq ▸ hnew)
        have hquantity : s.getQuantity entry = s.getQuantity item := by
          rw [State.getQuantity, State.getQuantity, heq]
        rw [hothers, hcons, hquantity, Nat.add_comm]
      · have hothers : others item (entry :: entries) = entry :: others item entries :=
          List.filter_cons_of_pos (by simp [named, heq])
        have hin : item.id ∈ entries.map Item.id :=
          (List.mem_cons.mp hitem).resolve_left heq
        rw [hothers, hcons, hcons, ih hrest hin, Nat.add_assoc]

theorem apart_of_distinct (item : Item) (h : (entries.map Item.id).Nodup) :
    Apart (named item) entries := by
  have hpairs : entries.Pairwise fun a b => a.id ≠ b.id := List.pairwise_map.mp h
  apply List.Pairwise.isChain
  apply hpairs.imp
  intro a b hne hnamed
  simp only [named, beq_iff_eq] at hnamed
  exact hne (hnamed.1.symm.trans hnamed.2)

theorem eraseLoop_others (h : (entries.map Item.id).Nodup) :
    eraseLoop (named item) entries = others item entries :=
  (eraseLoop_eq_filter_iff entries).mpr (apart_of_distinct item h)

end Pieces

theorem toNat_eq_zero {k : UInt32} : k.toNat = 0 ↔ k = 0 := by
  rw [← UInt32.toNat_inj, UInt32.toNat_zero]

/-! ## One call -/

section Calls

variable {limits : Limits} {acc : Accessors} {stock : Stock} {item : Item} {q : Int32}
  {s s' : State}

/-- The call leaves the items other than `item` as they are. -/
def Frame (item : Item) (s s' : State) : Prop :=
  (∀ id, id ≠ item.id → s'.quantity id = s.quantity id)
    ∧ others item s'.contents = others item s.contents

theorem frame_refl (item : Item) (s : State) : Frame item s s := ⟨fun _ _ => rfl, rfl⟩

theorem Frame.trans {s'' : State} (h : Frame item s s') (h' : Frame item s' s'') :
    Frame item s s'' :=
  ⟨fun id hid => (h'.1 id hid).trans (h.1 id hid), h'.2.trans h.2⟩

theorem frame_setQuantity (item : Item) (s : State) (quantity : UInt32) :
    Frame item s (s.setQuantity item quantity) :=
  ⟨fun _ hid => if_neg hid, rfl⟩

theorem frame_erase (item : Item) (s : State) : Frame item s (s.erase item) := by
  refine ⟨fun _ hid => if_neg hid, ?_⟩
  show others item (eraseLoop (named item) s.contents) = _
  exact eraseLoop_filter (named item) s.contents

theorem frame_reduce (item : Item) (q : Int32) (s : State) : Frame item s (s.reduce item q) := by
  unfold State.reduce
  dsimp only
  split
  · exact frame_setQuantity item s _
  · exact frame_refl item s

theorem frame_remove (acc : Accessors) (item : Item) (q : Int32) (s : State) :
    Frame item s (removeFromGuestCart acc item q s) := by
  have hreduce := frame_reduce item (cut (s.getQuantity item) q) s
  unfold removeFromGuestCart
  split
  · exact frame_refl item s
  · dsimp only
    generalize s.reduce item (cut (s.getQuantity item) q) = r at hreduce
    have herase : Frame item s (if r.getQuantity item ≤ 0 then r.erase item else r) := by
      split
      · exact hreduce.trans (frame_erase item r)
      · exact hreduce
    generalize (if r.getQuantity item ≤ 0 then r.erase item else r) = t at herase
    split <;> exact herase

theorem frame_change (limits : Limits) (acc : Accessors) (item : Item) (q : Int32)
    (s : State) : Frame item s (changeQuantity limits acc item q s) := by
  have hstock : Frame item s (withinStock acc item q s).2 := by
    unfold withinStock
    dsimp only
    split <;> exact frame_refl item s
  unfold changeQuantity
  split
  · exact frame_refl item s
  split
  · exact frame_refl item s
  generalize withinStock acc item q s = r at hstock
  obtain ⟨w, t⟩ := r
  dsimp only at hstock ⊢
  split
  · exact hstock
  split
  · exact hstock
  · have hcart : Frame item t
        (withinCart limits acc (t.getQuantity item) (clamp limits w) t).2 := by
      unfold withinCart
      dsimp only
      split <;> exact frame_refl item t
    generalize withinCart limits acc (t.getQuantity item) (clamp limits w) t = u at hcart
    refine (hstock.trans hcart).trans ?_
    unfold settle
    split
    · exact frame_remove acc item _ u.2
    · exact frame_setQuantity item u.2 _

/-- A change leaves the entries, or it is a removal. -/
theorem contents_changeQuantity (h : Documented limits acc item s) (q : Int32)
    (hk : s.getQuantity item ≠ 0) :
    (changeQuantity limits acc item q s).contents
      = if (changeQuantity limits acc item q s).getQuantity item = 0
        then eraseLoop (named item) s.contents else s.contents := by
  split
  case isTrue hzero => exact contents_changeQuantity_of_zero h q hk hzero
  case isFalse hne =>
    rcases changeQuantity_cases h q with ⟨-, hsame⟩ | ⟨-, u, t, hsame, heq⟩
    · exact hsame.2
    · rw [heq] at hne ⊢
      unfold settle at hne ⊢
      split
      case isTrue ha =>
        rw [if_pos ha] at hne
        exact absurd (removeAll (hsame.documented h)).1 hne
      case isFalse => exact hsame.2

/-- Whatever is asked for, the item ends with an amount that fits beside the
rest of the cart. -/
theorem outcome_fits {room total k : Nat} {full : Prop} [Decidable full] {w : Int}
    (htotal : total ≤ room) :
    (total : Int) - k + outcome room total k full w ≤ room := by
  unfold outcome
  dsimp only
  split
  · omega
  · split <;> omega

variable (h : WellFormed limits s)

theorem inCart_iff {stock : Stock} {s : State} {item : Item} :
    (documented stock s).inCart item.id = true ↔ item.id ∈ s.contents.map Item.id := by
  simp [documented]

include h

theorem WellFormed.toNat_total (stock : Stock) :
    (documented stock s).getTotalQuantity.toNat = s.pieces s.contents := by
  have hfits := limits.fits
  have hpieces := h.pieces
  show (UInt32.ofNat (s.pieces s.contents)).toNat = _
  apply UInt32.toNat_ofNat_of_lt'
  show s.pieces s.contents < 4294967296
  omega

theorem WellFormed.answers (hin : item.id ∈ s.contents.map Item.id) (hstock : 0 < stock item.id) :
    Documented limits (documented stock s) item s := by
  have htotal := h.toNat_total stock
  refine ⟨inCart_iff.mpr hin, decide_eq_true hstock, UInt32.lt_iff_toNat_lt.mp hstock, ?_, ?_⟩
  · rw [htotal, pieces_others s h.distinct hin]
    omega
  · rw [htotal]
    exact h.pieces

/-- A call that leaves the other items, and gives this one a quantity that
fits, keeps the cart well formed. -/
theorem WellFormed.of_frame (hframe : Frame item s s')
    (hin : item.id ∈ s.contents.map Item.id)
    (hcontents : s'.contents =
      if s'.getQuantity item = 0 then others item s.contents else s.contents)
    (hpieces : s.pieces (others item s.contents) + (s'.getQuantity item).toNat
      ≤ limits.maxQuantity.toNat) : WellFormed limits s' := by
  have hother : ∀ entry, entry.id ≠ item.id → s'.getQuantity entry = s.getQuantity entry :=
    fun entry hne => hframe.1 entry.id hne
  have hsame : s'.pieces (others item s.contents) = s.pieces (others item s.contents) :=
    pieces_congr fun entry hentry => hother entry (mem_others.mp hentry).2
  by_cases hzero : s'.getQuantity item = 0
  · rw [if_pos hzero] at hcontents
    have hsub : (others item s.contents).Sublist s.contents := List.filter_sublist
    refine ⟨?_, ?_, ?_, ?_⟩
    · rw [hcontents]
      exact (hsub.map Item.id).nodup h.distinct
    · intro entry hentry
      rw [hcontents, mem_others] at hentry
      rw [hother entry hentry.2]
      exact h.positive entry hentry.1
    · rw [hcontents]
      exact Nat.le_trans hsub.length_le h.entries
    · rw [hcontents, hsame]
      omega
  · rw [if_neg hzero] at hcontents
    refine ⟨hcontents ▸ h.distinct, ?_, hcontents ▸ h.entries, ?_⟩
    · intro entry hentry
      rw [hcontents] at hentry
      by_cases hid : entry.id = item.id
      · have hpos : s'.getQuantity entry = s'.getQuantity item := by
          rw [State.getQuantity, State.getQuantity, hid]
        rw [hpos, Nat.pos_iff_ne_zero, ne_eq, toNat_eq_zero]
        exact hzero
      · rw [hother entry hid]
        exact h.positive entry hentry
    · rw [hcontents, pieces_others s' h.distinct hin, hsame]
      exact hpieces

theorem WellFormed.remove (stock : Stock) (item : Item) (q : Int32) :
    WellFormed limits (removeFromGuestCart (documented stock s) item q s) := by
  by_cases hin : item.id ∈ s.contents.map Item.id
  · obtain ⟨hquantity, hcontents⟩ := removeFromGuestCart_eq q s (inCart_iff.mpr hin)
    refine h.of_frame (frame_remove _ item q s) hin ?_ ?_
    · rw [hcontents, ← hquantity, eraseLoop_others h.distinct]
      simp only [toNat_eq_zero]
    · have hpieces := h.pieces
      rw [pieces_others s h.distinct hin] at hpieces
      omega
  · have hout : (documented stock s).inCart item.id = false := by
      rw [← Bool.not_eq_true, inCart_iff]
      exact hin
    rw [removeFromGuestCart, hout]
    exact h

theorem WellFormed.change (stock : Stock) (item : Item) (q : Int32) :
    WellFormed limits (changeQuantity limits (documented stock s) item q s) := by
  by_cases hin : item.id ∈ s.contents.map Item.id
  · by_cases hstock : 0 < stock item.id
    · have hanswers := h.answers hin hstock
      obtain ⟨entry, hentry, hid⟩ := List.mem_map.mp hin
      have hk : s.getQuantity item ≠ 0 := by
        have hpos := h.positive entry hentry
        rw [State.getQuantity, hid, Nat.pos_iff_ne_zero, ne_eq, toNat_eq_zero] at hpos
        exact hpos
      refine h.of_frame (frame_change limits _ item q s) hin ?_ ?_
      · rw [contents_changeQuantity hanswers q hk, eraseLoop_others h.distinct]
      · have houtcome := changeQuantity_outcome hanswers q
        have hbound := @outcome_fits _ _ (s.getQuantity item).toNat
          (isFull limits (documented stock s) s = true) _
          (withinStock (documented stock s) item q s).1.toInt hanswers.total_le
        rw [← houtcome, h.toNat_total stock] at hbound
        have hpieces := pieces_others s h.distinct hin
        omega
    · have hout : (documented stock s).inStock item.id = false := decide_eq_false hstock
      rw [changeQuantity, inCart_iff.mpr hin, hout]
      exact ⟨h.distinct, h.positive, h.entries, h.pieces⟩
  · have hout : (documented stock s).inCart item.id = false := by
      rw [← Bool.not_eq_true, inCart_iff]
      exact hin
    rw [changeQuantity, hout]
    exact h

end Calls

/-! ## Runs -/

variable {limits : Limits} {s : State}

/-- `Cart::Cart()`, beside whatever quantities the items have. -/
def State.start (quantity : UInt32 → UInt32) : State := ⟨[], quantity, [], []⟩

end Neroshop.Cart
