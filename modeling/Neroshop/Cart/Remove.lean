import Neroshop.Lib.CStr
import Neroshop.Lib.Sweep
import Neroshop.Lib.Words

/-!
# Cart — removing

`cart.cpp`: `load` and `remove_from_guest_cart`. The accessors whose bodies are
stubs so far are parameters; the quantity of an item is one cell, which
`set_quantity` writes and `get_quantity(0)` reads.

Entries are values here: what a call leaves in the cart, and how many pieces.
The objects behind the entries, and who frees them, are in `Cart.Pointers`.
-/

namespace Neroshop.Cart

open Lib.CStr Lib.Sweep Lib.Words

/-- What the cart reads of an `Item` itself. -/
structure Item where
  id : UInt32
  name : Bytes
  deriving DecidableEq

/-- The answers of the accessors that are stubs, by item id. -/
structure Accessors where
  inCart : UInt32 → Bool
  inStock : UInt32 → Bool
  getStockQuantity : UInt32 → UInt32
  getTotalQuantity : UInt32

/-- What the cart prints. -/
inductive Output where
  -- `NEROSHOP_TAG_OUT`, then the text and the end of the line
  | tagged (text : Bytes)
  -- `neroshop::print`
  | print (text : Bytes)
  deriving DecidableEq

/-- A cart, with what its calls print and delete. -/
structure State where
  contents : List Item
  -- by item id
  quantity : UInt32 → UInt32
  -- the calls of `remove_db`
  removed : List UInt32
  printed : List Output

/-- `item.get_quantity()` -/
def State.getQuantity (s : State) (item : Item) : UInt32 := s.quantity item.id

/-- `item.set_quantity(quantity)` -/
def State.setQuantity (s : State) (item : Item) (quantity : UInt32) : State :=
  { s with quantity := fun id => if id = item.id then quantity else s.quantity id }

/-- Something is printed. -/
def State.print (s : State) (o : Output) : State := { s with printed := s.printed ++ [o] }

@[simp] theorem getQuantity_setQuantity (s : State) (item : Item) (quantity : UInt32) :
    (s.setQuantity item quantity).getQuantity item = quantity := by
  simp [State.getQuantity, State.setQuantity]

@[simp] theorem contents_setQuantity (s : State) (item : Item) (quantity : UInt32) :
    (s.setQuantity item quantity).contents = s.contents := rfl

@[simp] theorem getQuantity_print (s : State) (item : Item) (o : Output) :
    (s.print o).getQuantity item = s.getQuantity item := rfl

@[simp] theorem contents_print (s : State) (o : Output) :
    (s.print o).contents = s.contents := rfl

/-- The text between a colour code of the terminal and the code that ends it. -/
def coloured (code : String) (text : Bytes) : Bytes :=
  ascii "\x1b[" ++ ascii code ++ ascii "m" ++ text ++ ascii "\x1b[0m"

/-- `std::to_string` -/
def decimal (n : Int) : Bytes := ascii (toString n)

/-- `name (quantity)` -/
def amount (item : Item) (quantity : Int) : Bytes :=
  item.name ++ ascii " (" ++ decimal quantity ++ ascii ")"

/-- `remove_db(item)` -/
def State.removeDb (s : State) (item : Item) : State :=
  { s with removed := s.removed ++ [item.id] }

/-- `load`: one more entry, whether or not the item has one already. -/
def load (acc : Accessors) (item : Item) (quantity : UInt32) (s : State) : State :=
  if !acc.inStock item.id then
    let s := s.print (.tagged (coloured "1;91" (item.name ++ ascii " is out of stock")))
    let s := (s.setQuantity item 0).removeDb item
    s.print (.tagged (coloured "1;91"
      (amount item quantity.toNat ++ ascii " removed from cart")))
  else
    let stockQty := acc.getStockQuantity item.id
    let quantity := if quantity ≥ stockQty then stockQty else quantity
    let s := { s with contents := s.contents ++ [item] }
    (s.setQuantity item quantity).print (.tagged (coloured "1;32"
      (item.name ++ ascii " (id: " ++ decimal item.id.toNat ++ ascii ", qty: "
        ++ decimal quantity.toNat ++ ascii ") has been loaded into cart")))

/-- The entry is one of the item. -/
def named (item entry : Item) : Bool := item.id == entry.id

/-- The removal of an item that has no quantity left. -/
def State.erase (s : State) (item : Item) : State :=
  let s := s.setQuantity item 0
  { s with contents := eraseLoop (named item) s.contents }.removeDb item

/-- `quantity` after the comparison with the item's own, which is unsigned. -/
def cut (itemQty : UInt32) (quantity : Int32) : Int32 :=
  if quantity.toUInt32 ≥ itemQty then itemQty.toInt32 else quantity

/-- What is taken off an item that has a quantity. -/
def State.reduce (s : State) (item : Item) (quantity : Int32) : State :=
  let itemQty := s.getQuantity item
  if itemQty > 0 then
    (s.setQuantity item (itemQty - quantity.toUInt32)).print
      (.tagged (coloured "0;91" (amount item quantity.toInt ++ ascii " removed from cart")))
  else s

/-- `remove_from_guest_cart` -/
def removeFromGuestCart (acc : Accessors) (item : Item) (quantity : Int32) (s : State) :
    State :=
  if !acc.inCart item.id then s
  else
    let quantity := cut (s.getQuantity item) quantity
    let s := s.reduce item quantity
    let s := if s.getQuantity item ≤ 0 then s.erase item else s
    if s.contents.isEmpty then s.print (.print (ascii "Cart is empty")) else s

/-! ## What a removal does -/

section Removal

variable (acc : Accessors) (item : Item) (q : Int32) (s : State)

theorem toNat_cut (k : UInt32) :
    (cut k q).toUInt32.toNat = min k.toNat q.toUInt32.toNat := by
  unfold cut
  split
  case isTrue h =>
    have hle : k.toNat ≤ q.toUInt32.toNat := UInt32.le_iff_toNat_le.mp h
    rw [UInt32.toUInt32_toInt32]
    omega
  case isFalse h =>
    have hlt : q.toUInt32.toNat < k.toNat := by
      rw [ge_iff_le, UInt32.le_iff_toNat_le] at h
      omega
    omega

@[simp] theorem getQuantity_erase : (s.erase item).getQuantity item = 0 := by
  show ((s.setQuantity item 0).getQuantity item) = 0
  exact getQuantity_setQuantity s item 0

@[simp] theorem contents_erase :
    (s.erase item).contents = eraseLoop (named item) s.contents := rfl

@[simp] theorem contents_reduce : (s.reduce item q).contents = s.contents := by
  simp only [State.reduce]
  split <;> rfl

theorem quantity_reduce_cut :
    ((s.reduce item (cut (s.getQuantity item) q)).getQuantity item).toNat =
      (s.getQuantity item).toNat - q.toUInt32.toNat := by
  have hcut := toNat_cut q (s.getQuantity item)
  simp only [State.reduce]
  split
  case isTrue h =>
    have hle : (cut (s.getQuantity item) q).toUInt32 ≤ s.getQuantity item := by
      rw [UInt32.le_iff_toNat_le]
      omega
    simp only [getQuantity_print, getQuantity_setQuantity]
    rw [UInt32.toNat_sub_of_le _ _ hle]
    omega
  case isFalse h =>
    have hzero : (s.getQuantity item).toNat = 0 := by
      simpa [UInt32.lt_iff_toNat_lt] using h
    omega

variable {acc item}

/-- The quantity goes down by the argument read as an `unsigned int`, and the
entries go when nothing is left. -/
theorem removeFromGuestCart_eq (hin : acc.inCart item.id) :
    let k := (s.getQuantity item).toNat
    let left := k - q.toUInt32.toNat
    let s' := removeFromGuestCart acc item q s
    (s'.getQuantity item).toNat = left ∧
      s'.contents = if left = 0 then eraseLoop (named item) s.contents else s.contents := by
  have hreduce := quantity_reduce_cut item q s
  have hcontents := contents_reduce item (cut (s.getQuantity item) q) s
  simp only [removeFromGuestCart, hin, Bool.not_true, Bool.false_eq_true, if_false]
  generalize s.reduce item (cut (s.getQuantity item) q) = r at hreduce hcontents
  have hempty : r.getQuantity item ≤ 0 ↔
      (s.getQuantity item).toNat - q.toUInt32.toNat = 0 := by
    rw [UInt32.le_iff_toNat_le, ← hreduce]
    simp
  split
  case isTrue h =>
    rw [if_pos (hempty.mp h), hempty.mp h, ← hcontents]
    split <;> simp
  case isFalse h =>
    rw [if_neg fun hz => h (hempty.mpr hz), ← hcontents]
    split <;> simp [hreduce]

/-- `max(q, 0)` -/
def asked (q : Int32) : Nat := q.toInt.toNat

theorem toNat_toUInt32_of_nonneg {q : Int32} (hq : ¬ q < 0) :
    q.toUInt32.toNat = asked q := by
  have h := toNat_toUInt32 q
  rw [lt_zero_iff] at hq
  unfold asked
  omega

/-- A negative argument asks for nothing and is read as a positive amount. -/
theorem of_neg {q : Int32} (hq : q < 0) : asked q = 0 ∧ 0 < q.toUInt32.toNat := by
  have h := toNat_toUInt32 q
  have hlow := Int32.le_toInt q
  rw [lt_zero_iff] at hq
  unfold asked
  omega

theorem filter_other (item : Item) (contents : List Item) :
    (contents.filter fun entry => entry.id != item.id) =
      contents.filter (!named item ·) := by
  congr 1
  funext entry
  simp [named, bne, BEq.comm]

/-- `s'` is what removing `q` of the item from `s` should leave. -/
def Removed (item : Item) (q : Int32) (s s' : State) : Prop :=
  let k := (s.getQuantity item).toNat
  let left := k - min (asked q) k
  (s'.getQuantity item).toNat = left ∧
    s'.contents =
      if left = 0 then s.contents.filter fun entry => entry.id != item.id
      else s.contents

instance (s' : State) : Decidable (Removed item q s s') :=
  inferInstanceAs (Decidable (_ ∧ _))

/-- **A removal is right** exactly when it is not given a negative number for
an item that has a quantity, and two neighbouring entries of the item do not
wait to be erased. -/
theorem removal_exact_iff (hin : acc.inCart item.id) :
    Removed item q s (removeFromGuestCart acc item q s) ↔
      (q < 0 → s.getQuantity item = 0) ∧
        ((s.getQuantity item).toNat ≤ asked q → Apart (named item) s.contents) := by
  obtain ⟨hquantity, hcontents⟩ := removeFromGuestCart_eq q s hin
  have hzero : s.getQuantity item = 0 ↔ (s.getQuantity item).toNat = 0 := by
    rw [← UInt32.toNat_inj, UInt32.toNat_zero]
  simp only [Removed, hquantity, hcontents, filter_other, hzero]
  rw [← eraseLoop_eq_filter_iff]
  generalize (s.getQuantity item).toNat = k
  by_cases hq : q < 0
  · obtain ⟨hasked, hread⟩ := of_neg hq
    by_cases hk : k = 0
    · simp [hk]
    · have hmore : k - q.toUInt32.toNat ≠ k - min (asked q) k := by omega
      simp [hmore, hq, hk]
  · have hleft : k - q.toUInt32.toNat = k - min (asked q) k := by
      rw [toNat_toUInt32_of_nonneg hq]
      omega
    have hnone : k - min (asked q) k = 0 ↔ k ≤ asked q := by omega
    simp only [hleft, hnone, hq, true_and, false_imp_iff]
    split
    case isTrue h => simp [h]
    case isFalse h => simp [h]

end Removal

/-- Accessors that answer what is documented, for a cart that holds `total`. -/
def answering (stock total : UInt32) : Accessors :=
  ⟨fun _ => true, fun _ => true, fun _ => stock, total⟩

/-- An item. -/
def lite : Item := ⟨1, ascii "lite"⟩

/-- The item is loaded `n` times with the quantity. -/
def loaded (n : Nat) (quantity : UInt32) : State :=
  (load (answering 100 quantity) lite quantity)^[n] ⟨[], fun _ => 0, [], []⟩

/-- Two of five pieces are taken. -/
theorem removal_exact_lite :
    Removed lite 2 (loaded 1 5)
      (removeFromGuestCart (answering 100 5) lite 2 (loaded 1 5)) :=
  (removal_exact_iff 2 (loaded 1 5) rfl).mpr (by decide)

/-- Removing -1 of five takes all five; removing all of an item that has two
entries leaves one. -/
theorem removal_wrong_lite :
    ¬ Removed lite (-1) (loaded 1 5)
        (removeFromGuestCart (answering 100 5) lite (-1) (loaded 1 5)) ∧
      ¬ Removed lite 5 (loaded 2 5)
        (removeFromGuestCart (answering 100 5) lite 5 (loaded 2 5)) := by
  decide

end Neroshop.Cart
