import Neroshop.Cart.Remove

/-!
# Cart — changing a quantity

`cart.cpp`: `change_quantity`, its clamps and its ways out, with `is_full`.

The item and the accessors are fixed, as in `Cart.Remove`. `int` and `unsigned`
amounts meet in several comparisons, and every conversion between them is kept.

* `Documented`: the accessors answer what they are documented to answer.
* `Changed`: the quantity is the amount asked for, or as much of an increase as
  the cart can hold.
* `change_exact_iff`: it is so exactly when the call is `Unhindered`: no clamp and
  no test for a full cart comes in between.
-/

namespace Neroshop.Cart

open Lib.CStr Lib.Sweep Lib.Words

/-- What a cart can hold. Its number of pieces is an `int`'s as well. -/
structure Limits where
  maxItems : UInt32
  maxQuantity : UInt32
  fits : maxQuantity.toNat < 2147483648

/-- `Cart::Cart()` -/
def Limits.default : Limits := ⟨10, 100, by decide⟩

variable (limits : Limits) (acc : Accessors) (item : Item)

/-- `Cart::is_full` -/
def isFull (s : State) : Bool :=
  decide (s.contents.length ≥ limits.maxItems.toNat) ||
    decide (acc.getTotalQuantity ≥ limits.maxQuantity)

/-- The stock is read into an `int`, and no more than the stock is asked for. -/
def withinStock (quantity : Int32) (s : State) : Int32 × State :=
  let stockQty := (acc.getStockQuantity item.id).toInt32
  if quantity ≥ stockQty then
    (stockQty, s.print (.tagged (ascii "Only " ++ coloured "1;91" (decimal stockQty.toInt)
      ++ ascii " " ++ item.name ++ ascii "s left in stock")))
  else (quantity, s)

/-- Between zero and `max_quantity`. -/
def clamp (quantity : Int32) : Int32 :=
  let quantity := if quantity < 0 then 0 else quantity
  if quantity.toUInt32 > limits.maxQuantity then limits.maxQuantity.toInt32 else quantity

/-- `cart_qty` counts the item's own quantity, which the change replaces. -/
def withinCart (itemQty : UInt32) (quantity : Int32) (s : State) : Int32 × State :=
  let cartQty := acc.getTotalQuantity
  if cartQty + quantity.toUInt32 > limits.maxQuantity then
    (((limits.maxQuantity + itemQty) - cartQty).toInt32,
      s.print (.tagged (coloured "0;33" (ascii "Cart is full (cannot fit any more items)"))))
  else (quantity, s)

/-- The end of `change_quantity`, with all obstacles out of the way. -/
def settle (quantity : Int32) (s : State) : State :=
  if quantity ≤ 0 then removeFromGuestCart acc item limits.maxQuantity.toInt32 s
  else s.setQuantity item quantity.toUInt32

/-- `Cart::change_quantity` -/
def changeQuantity (quantity : Int32) (s : State) : State :=
  if !acc.inCart item.id then s
  else if !acc.inStock item.id then
    s.print (.tagged (coloured "1;91" (item.name ++ ascii " is out of stock")))
  else
    let (quantity, s) := withinStock acc item quantity s
    let itemQty := s.getQuantity item
    if quantity.toUInt32 = itemQty then s
    else if isFull limits acc s ∧ quantity > 0 then
      s.print (.tagged (coloured "0;33"
        (ascii "Cart is full, and you still want to add more shit to it, bruh?")))
    else
      let (quantity, s) := withinCart limits acc itemQty (clamp limits quantity) s
      settle limits acc item quantity s

/-- The accessors answer what they are documented to answer. -/
structure Documented (s : State) : Prop where
  inCart : acc.inCart item.id
  inStock : acc.inStock item.id
  stock_pos : 0 < (acc.getStockQuantity item.id).toNat
  quantity_le : (s.getQuantity item).toNat ≤ acc.getTotalQuantity.toNat
  total_le : acc.getTotalQuantity.toNat ≤ limits.maxQuantity.toNat

/-! ## The clamps -/

section Clamps

variable (q : Int32) (s : State)

/-- `t` differs from `s` in what is printed, for all that the changes look at. -/
def Same (item : Item) (s t : State) : Prop :=
  t.getQuantity item = s.getQuantity item ∧ t.contents = s.contents

theorem same_withinStock : Same item s (withinStock acc item q s).2 := by
  simp only [withinStock]
  split <;> exact ⟨rfl, rfl⟩

theorem same_withinCart (k : UInt32) : Same item s (withinCart limits acc k q s).2 := by
  simp only [withinCart]
  split <;> exact ⟨rfl, rfl⟩

theorem toInt_withinStock :
    (withinStock acc item q s).1.toInt =
      min q.toInt (acc.getStockQuantity item.id).toInt32.toInt := by
  simp only [withinStock, ge_iff_le, Int32.le_iff_toInt_le]
  split <;> dsimp only <;> omega

theorem toInt_clamp :
    (clamp limits q).toInt = min (max q.toInt 0) limits.maxQuantity.toNat := by
  have hmax := toInt_toInt32 limits.maxQuantity
  rw [if_pos limits.fits] at hmax
  have hcut : (if q < 0 then (0 : Int32) else q).toInt = max q.toInt 0 := by
    simp only [lt_zero_iff]
    split
    case isTrue h => rw [Int32.toInt_zero]; omega
    case isFalse h => omega
  simp only [clamp, gt_iff_lt, UInt32.lt_iff_toNat_lt]
  generalize (if q < 0 then (0 : Int32) else q) = c at hcut
  have hword := toNat_toUInt32 c
  rw [if_neg (by omega)] at hword
  split <;> omega

/-- What an amount up to `max_quantity` becomes: it stays, or it becomes what
the rest of the cart leaves free. -/
theorem toInt_withinCart {k : UInt32} (hk : k.toNat ≤ acc.getTotalQuantity.toNat)
    (htotal : acc.getTotalQuantity.toNat ≤ limits.maxQuantity.toNat)
    (hq : 0 ≤ q.toInt) (hmax : q.toInt ≤ limits.maxQuantity.toNat) :
    (withinCart limits acc k q s).1.toInt =
      if (limits.maxQuantity.toNat : Int) < acc.getTotalQuantity.toNat + q.toInt then
        (limits.maxQuantity.toNat : Int) + k.toNat - acc.getTotalQuantity.toNat
      else q.toInt := by
  have hfits := limits.fits
  have hword := toNat_toUInt32 q
  rw [if_neg (by omega)] at hword
  have hsum : (acc.getTotalQuantity + q.toUInt32).toNat =
      acc.getTotalQuantity.toNat + q.toUInt32.toNat := by
    rw [UInt32.toNat_add]
    omega
  have hroom : (limits.maxQuantity + k).toNat = limits.maxQuantity.toNat + k.toNat := by
    rw [UInt32.toNat_add]
    omega
  have hle : acc.getTotalQuantity ≤ limits.maxQuantity + k := by
    rw [UInt32.le_iff_toNat_le]
    omega
  have hrest := UInt32.toNat_sub_of_le _ _ hle
  have hint := toInt_toInt32 (limits.maxQuantity + k - acc.getTotalQuantity)
  rw [if_pos (by omega)] at hint
  simp only [withinCart, gt_iff_lt, UInt32.lt_iff_toNat_lt]
  split <;> split <;> dsimp only <;> omega

end Clamps

/-! ## The outcome -/

/-- The quantity with which an item ends, in whole numbers: `k` is its quantity
before, `w` the amount asked for within the stock. -/
def outcome (room total k : Int) (full : Prop) [Decidable full] (w : Int) : Int :=
  if w = k ∨ (full ∧ 0 < w) then k
  else
    let c := min (max w 0) room
    if room < total + c then room + k - total else c

section Whole

variable {room total k r n : Nat} {full : Prop} [Decidable full]

/-- Nothing asked for is nothing left. -/
theorem outcome_nonpos {w : Int} (htotal : total ≤ room) (hw : w ≤ 0) :
    outcome room total k full w = 0 := by
  unfold outcome
  split
  case isTrue h => omega
  case isFalse h =>
    dsimp only
    rw [if_neg (by omega)]
    omega

/-- When an amount asked for is met: a decrease passes beside the quantity it
replaces; an increase passes there too, or the cart is full, or it is no less
than what is free. -/
theorem outcome_meets_iff (hk : k ≤ total) (htotal : total ≤ room) (hr : 0 < r)
    (hn : (n : Int) = outcome room total k full r) :
    (if r ≤ k then n = r else k ≤ n ∧ n ≤ r ∧ total - k + n ≤ room) ↔
      r = k ∨ (r < k ∧ ¬ full ∧ total + r ≤ room) ∨
        (k < r ∧ (full ∨ total + r ≤ room ∨ room + k ≤ total + r)) := by
  unfold outcome at hn
  dsimp only at hn
  by_cases hsame : r = k
  · rw [if_pos (Or.inl (by omega))] at hn
    rw [if_pos (by omega)]
    omega
  by_cases hfull : full
  · rw [if_pos (Or.inr ⟨hfull, by omega⟩)] at hn
    simp only [hfull, not_true, false_and, and_false, true_or, and_true, false_or]
    split <;> omega
  · have hgo : ¬ ((r : Int) = k ∨ (full ∧ 0 < (r : Int))) := by
      simp only [hfull, false_and, or_false]
      omega
    rw [if_neg hgo] at hn
    simp only [hfull, not_false_iff, true_and, false_or]
    split at hn <;> split <;> omega

end Whole

section Outcome

variable {limits acc item} {s : State}

theorem Same.isFull {t : State} (h : Same item s t) :
    isFull limits acc t = isFull limits acc s := by
  simp only [Neroshop.Cart.isFull, h.2]

theorem Same.documented {t : State} (hst : Same item s t)
    (h : Documented limits acc item s) : Documented limits acc item t :=
  { h with quantity_le := hst.1 ▸ h.quantity_le }

/-- The comparison is unsigned: a quantity is too small for a negative number to
be taken for it. -/
theorem toUInt32_eq_iff (h : Documented limits acc item s) (w : Int32) :
    w.toUInt32 = s.getQuantity item ↔ w.toInt = (s.getQuantity item).toNat := by
  have hfits := limits.fits
  have hk := h.quantity_le
  have htotal := h.total_le
  have hlow := Int32.le_toInt w
  have hword := toNat_toUInt32 w
  rw [← UInt32.toNat_inj]
  split at hword <;> omega

/-- The two ways through a change: it stops early, or it settles on an amount. -/
theorem changeQuantity_cases (h : Documented limits acc item s) (q : Int32) :
    let w := (withinStock acc item q s).1
    let stops := w.toInt = (s.getQuantity item).toNat ∨
      (isFull limits acc s ∧ 0 < w.toInt)
    (stops ∧ Same item s (changeQuantity limits acc item q s)) ∨
      (¬ stops ∧ ∃ u t, Same item s t ∧ changeQuantity limits acc item q s =
        settle limits acc item
          (withinCart limits acc (s.getQuantity item) (clamp limits w) u).1 t) := by
  have hsame := same_withinStock acc item q s
  simp only [changeQuantity, h.inCart, h.inStock, Bool.not_true, Bool.false_eq_true,
    if_false, hsame.isFull, hsame.1, toUInt32_eq_iff h]
  generalize withinStock acc item q s = r at hsame
  obtain ⟨w, t⟩ := r
  simp only [gt_iff_lt, pos_iff]
  by_cases hw : w.toInt = (s.getQuantity item).toNat
  · rw [if_pos hw]
    exact Or.inl ⟨Or.inl hw, hsame⟩
  by_cases hfull : isFull limits acc s ∧ 0 < w.toInt
  · rw [if_neg hw, if_pos hfull]
    exact Or.inl ⟨Or.inr hfull, hsame⟩
  · rw [if_neg hw, if_neg hfull]
    have hcart := same_withinCart limits acc item (clamp limits w) t (s.getQuantity item)
    exact Or.inr ⟨not_or.mpr ⟨hw, hfull⟩, t, _,
      ⟨hcart.1.trans hsame.1, hcart.2.trans hsame.2⟩, rfl⟩

/-- All of it is taken: an item never has more than `max_quantity`. -/
theorem removeAll (h : Documented limits acc item s) :
    let s' := removeFromGuestCart acc item limits.maxQuantity.toInt32 s
    s'.getQuantity item = 0 ∧ s'.contents = eraseLoop (named item) s.contents := by
  obtain ⟨hquantity, hcontents⟩ :=
    removeFromGuestCart_eq limits.maxQuantity.toInt32 s h.inCart
  have hk := h.quantity_le
  have htotal := h.total_le
  rw [UInt32.toUInt32_toInt32] at hquantity hcontents
  have hnone : (s.getQuantity item).toNat - limits.maxQuantity.toNat = 0 := by omega
  rw [hnone] at hquantity
  rw [if_pos hnone] at hcontents
  exact ⟨UInt32.toNat_inj.mp hquantity, hcontents⟩

/-- The amount settled on is the quantity, by a removal or not. -/
theorem getQuantity_settle (h : Documented limits acc item s) {a : Int32}
    (ha : 0 ≤ a.toInt) :
    (((settle limits acc item a s).getQuantity item).toNat : Int) = a.toInt := by
  have hword := toNat_toUInt32 a
  rw [if_neg (by omega)] at hword
  unfold settle
  split
  case isTrue hzero =>
    rw [le_zero_iff] at hzero
    rw [(removeAll h).1, UInt32.toNat_zero]
    omega
  case isFalse =>
    rw [getQuantity_setQuantity]
    exact hword

theorem changeQuantity_outcome (h : Documented limits acc item s) (q : Int32) :
    (((changeQuantity limits acc item q s).getQuantity item).toNat : Int) =
      outcome limits.maxQuantity.toNat acc.getTotalQuantity.toNat (s.getQuantity item).toNat
        (isFull limits acc s) (withinStock acc item q s).1.toInt := by
  unfold outcome
  rcases changeQuantity_cases h q with ⟨hstops, hsame⟩ | ⟨hgoes, u, t, hsame, heq⟩
  · rw [if_pos hstops, hsame.1]
  · have hclamp := toInt_clamp limits (withinStock acc item q s).1
    have hcart := toInt_withinCart limits acc (clamp limits (withinStock acc item q s).1) u
      h.quantity_le h.total_le (by omega) (by omega)
    have hk := h.quantity_le
    have htotal := h.total_le
    rw [if_neg hgoes, heq, ← hclamp, ← hcart]
    apply getQuantity_settle (hsame.documented h)
    rw [hcart]
    split <;> omega

/-- A change to nothing is a removal. -/
theorem contents_changeQuantity_of_zero (h : Documented limits acc item s) (q : Int32)
    (hk : s.getQuantity item ≠ 0)
    (hzero : (changeQuantity limits acc item q s).getQuantity item = 0) :
    (changeQuantity limits acc item q s).contents = eraseLoop (named item) s.contents := by
  rcases changeQuantity_cases h q with ⟨-, hsame⟩ | ⟨-, u, t, hsame, heq⟩
  · exact absurd (hsame.1.symm.trans hzero) hk
  · rw [heq] at hzero ⊢
    generalize (withinCart limits acc (s.getQuantity item) _ u).1 = a at hzero ⊢
    unfold settle at hzero ⊢
    split
    case isTrue ha => rw [(removeAll (hsame.documented h)).2, hsame.2]
    case isFalse ha =>
      rw [if_neg ha, getQuantity_setQuantity] at hzero
      have hword := toNat_toUInt32 a
      rw [le_zero_iff] at ha
      rw [if_neg (by omega), hzero, UInt32.toNat_zero] at hword
      omega

end Outcome

/-! ## What was asked for -/

/-- `min(max(q, 0), stock)` -/
def request (q : Int32) : Nat := min (asked q) (acc.getStockQuantity item.id).toNat

/-- `s'` is what changing the quantity in `s` to `q` should leave: the request
when it is no increase, and else as much of it as the cart can hold. -/
def Changed (q : Int32) (s s' : State) : Prop :=
  let r := request acc item q
  let k := (s.getQuantity item).toNat
  let n := (s'.getQuantity item).toNat
  if r ≤ k then n = r
  else k ≤ n ∧ n ≤ r ∧
    acc.getTotalQuantity.toNat - k + n ≤ limits.maxQuantity.toNat

instance (q : Int32) (s s' : State) : Decidable (Changed limits acc item q s s') := by
  dsimp only [Changed]
  infer_instance

/-- No clamp goes wrong. A decrease must fit beside the quantity it replaces;
an increase either fits there too, or finds no free place at all, or is at
least what is free. -/
def Unhindered (q : Int32) (s : State) : Prop :=
  let r := request acc item q
  let k := (s.getQuantity item).toNat
  let total := acc.getTotalQuantity.toNat
  let room := limits.maxQuantity.toNat
  q ≤ 0 ∨
    -- a larger stock is read as a negative number
    if 2147483648 ≤ (acc.getStockQuantity item.id).toNat then k = 0
    else
      r = k ∨ (r < k ∧ ¬ isFull limits acc s ∧ total + r ≤ room) ∨
        (k < r ∧ (isFull limits acc s ∨ total + r ≤ room ∨ room + k ≤ total + r))

instance (q : Int32) (s : State) : Decidable (Unhindered limits acc item q s) := by
  dsimp only [Unhindered]
  infer_instance

variable {limits acc item}

/-- **A change does what was asked** exactly when no clamp goes wrong. -/
theorem change_exact_iff {s : State} (h : Documented limits acc item s) (q : Int32) :
    Changed limits acc item q s (changeQuantity limits acc item q s) ↔
      Unhindered limits acc item q s := by
  have hn := changeQuantity_outcome h q
  have hw := toInt_withinStock acc item q s
  have hint := toInt_toInt32 (acc.getStockQuantity item.id)
  have hword := UInt32.toNat_lt (acc.getStockQuantity item.id)
  have hstock := h.stock_pos
  have hk := h.quantity_le
  have htotal := h.total_le
  have hr : (request acc item q : Int) =
      min (max q.toInt 0) (acc.getStockQuantity item.id).toNat := by
    unfold request asked
    omega
  simp only [Changed, Unhindered, le_zero_iff]
  generalize request acc item q = r at hr ⊢
  by_cases hneg : q.toInt ≤ 0
  · -- nothing is asked for, and the item goes
    rw [outcome_nonpos htotal (by omega)] at hn
    simp only [hneg, true_or, iff_true]
    split <;> omega
  by_cases hlarge : 2147483648 ≤ (acc.getStockQuantity item.id).toNat
  · -- a negative stock, which takes everything away
    rw [if_neg (by omega)] at hint
    rw [outcome_nonpos htotal (by omega)] at hn
    simp only [hneg, hlarge, if_true, false_or]
    split <;> omega
  · rw [if_pos (by omega)] at hint
    have hwithin : (withinStock acc item q s).1.toInt = r := by omega
    rw [hwithin] at hn
    rw [outcome_meets_iff hk htotal (by omega) hn]
    simp only [hneg, hlarge, if_false, false_or]

theorem change_exact_lite :
    Changed .default (answering 100 5) lite 8 (loaded 1 5)
      (changeQuantity .default (answering 100 5) lite 8 (loaded 1 5)) :=
  (change_exact_iff ⟨rfl, rfl, by decide, by decide, by decide⟩ 8).mpr (by decide)

/-- With sixty pieces of one item in the cart, fifty become a hundred; with a
hundred, they stay a hundred. -/
theorem change_wrong_lite :
    (Documented .default (answering 100 60) lite (loaded 1 60) ∧
      ¬ Changed .default (answering 100 60) lite 50 (loaded 1 60)
        (changeQuantity .default (answering 100 60) lite 50 (loaded 1 60))) ∧
    (Documented .default (answering 100 100) lite (loaded 1 100) ∧
      ¬ Changed .default (answering 100 100) lite 50 (loaded 1 100)
        (changeQuantity .default (answering 100 100) lite 50 (loaded 1 100))) :=
  ⟨⟨⟨rfl, rfl, by decide, by decide, by decide⟩, by decide⟩,
    ⟨⟨rfl, rfl, by decide, by decide, by decide⟩, by decide⟩⟩

end Neroshop.Cart
