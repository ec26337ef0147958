import Neroshop.Lib.CStr
import Neroshop.Lib.Ints
import Neroshop.Lib.StdVector

/-!
# The indexed accessors

`Cart::get_item`, `User::get_order` and `get_favorite`, `Message::get_button`
and `get_edit`, and `Seller::get_customer_order`, each behind a comparison of
the index with `size() - 1`. A smart pointer of a vector may hold no object.

`guarded` is the shape of the first five: on a list without elements `size() - 1`
is the largest number of 64 bits, so every index passes and there is nothing to
read. `Reads` says what an accessor should do, and `accessors_read_iff` on which
containers it does. `get_customer_order` asks for the empty list first.
-/

namespace Neroshop.Accessors

open Lib Lib.CStr Lib.Ints

/-- What an accessor throws. -/
inductive Exception where
  | outOfRange (what : Bytes)
  | runtimeError (what : Bytes)

/-- How a call of an accessor ends. -/
inductive Access (α : Type) where
  | thrown (e : Exception)
  -- `operator[]` where there is no element
  | undefined
  | returned (value : α) (printed : List (Bytes × Nat))

variable {α : Type}

/-- `if(index > (list.size() - 1)) throw e; return list[index];`, with what is
printed about the element. -/
def guarded (list : StdVector α) (index : UInt64) (e : Exception)
    (report : α → List (Bytes × Nat)) : Access α :=
  if index > list.size - 1 then .thrown e
  else
    match list.get index with
    | none => .undefined
    | some value => .returned value (report value)

/-- Nothing is printed. -/
def quiet (_ : α) : List (Bytes × Nat) := []

/-- `print(name + " " + std::to_string(index) + " is nullptr", 1)` -/
def reportNull (name : Bytes) (index : Int32) (pointer : Option α) : List (Bytes × Nat) :=
  if pointer.isNone then
    [(name ++ ascii " " ++ ascii (toString index.toInt) ++ ascii " is nullptr", 1)]
  else []

/-! ## The accessors -/

/-- `Cart::get_item` -/
def getItem (contents : StdVector (Option α)) (index : UInt32) : Access (Option α) :=
  guarded contents index.toUInt64
    (.outOfRange (ascii "\x1b[0;31m"
      ++ ascii "(neroshop::Cart::get_item): attempting to access invalid index"
      ++ ascii "\x1b[0m"))
    quiet

/-- `User::get_order` -/
def getOrder (orderList : StdVector (Option α)) (index : UInt32) : Access (Option α) :=
  guarded orderList index.toUInt64
    (.outOfRange (ascii "neroshop::User::get_order(): attempt to access invalid index"))
    quiet

/-- `User::get_favorite` -/
def getFavorite (favoritesList : StdVector (Option α)) (index : UInt32) :
    Access (Option α) :=
  guarded favoritesList index.toUInt64
    (.outOfRange (ascii "neroshop::User::get_favorites(): attempt to access invalid index"))
    quiet

/-- `Message::get_button` -/
def getButton (buttonList : StdVector (Option α)) (index : Int32) : Access (Option α) :=
  guarded buttonList (toSize index)
    (.runtimeError (ascii "\x1b[0;91m"
      ++ ascii "neroshop::Message::get_button(int): attempting to access invalid index"
      ++ ascii "\x1b[0m"))
    (reportNull (ascii "button") index)

/-- `Message::get_edit` -/
def getEdit (editList : StdVector (Option α)) (index : Int32) : Access (Option α) :=
  guarded editList (toSize index)
    (.runtimeError (ascii "\x1b[0;91m"
      ++ ascii "neroshop::Message::get_edit(int): attempting to access invalid index"
      ++ ascii "\x1b[0m"))
    (reportNull (ascii "edit") index)

/-- A conversion of the value that is returned. -/
def Access.map {β : Type} (f : α → β) : Access α → Access β
  | .thrown e => .thrown e
  | .undefined => .undefined
  | .returned value printed => .returned (f value) printed

/-- `Seller::get_customer_order`, of a vector of `int`. -/
def getCustomerOrder (customerOrderList : StdVector Int32) (index : UInt32) : Access UInt32 :=
  if customerOrderList.toList.isEmpty then .returned 0 []
  else
    (guarded customerOrderList index.toUInt64
      (.outOfRange
        (ascii "neroshop::Seller::get_customer_order(): attempt to access invalid index"))
      quiet).map Int32.toUInt32

/-! ## What they read -/

variable {list : StdVector α} {index : UInt64} {e : Exception}
  {report : α → List (Bytes × Nat)}

theorem guarded_empty (h : list.toList = []) : guarded list index e report = .undefined := by
  rw [guarded, if_neg (StdVector.not_size_sub_one_lt h), StdVector.get, h]
  rfl

theorem guarded_outside (hne : list.toList ≠ []) (h : list.toList.length ≤ index.toNat) :
    guarded list index e report = .thrown e :=
  if_pos ((StdVector.size_sub_one_lt_iff hne).mpr h)

theorem guarded_inside (h : index.toNat < list.toList.length) :
    guarded list index e report =
      .returned list.toList[index.toNat] (report list.toList[index.toNat]) := by
  have hne : list.toList ≠ [] := List.length_pos_iff.mp (Nat.zero_lt_of_lt h)
  have hguard : ¬ index > list.size - 1 := by
    rw [gt_iff_lt, StdVector.size_sub_one_lt_iff hne]
    exact Nat.not_le.mpr h
  rw [guarded, if_neg hguard, StdVector.get, List.getElem?_eq_getElem h]

/-- The accessor throws for an index that is no position, answers with the
element at one that is, and reads nothing else. -/
structure Reads (list : StdVector α) (i : Int) (run : Access α) : Prop where
  thrown_iff : (∃ e, run = .thrown e) ↔ ¬ (0 ≤ i ∧ i < list.toList.length)
  returned : 0 ≤ i → ∀ value, list.toList[i.toNat]? = some value →
    ∃ printed, run = .returned value printed
  defined : run ≠ .undefined

theorem reads_thrown {i : Int} (hout : ¬ (0 ≤ i ∧ i < list.toList.length)) :
    Reads list i (.thrown e) := by
  refine ⟨iff_of_true ⟨e, rfl⟩ hout, ?_, nofun⟩
  intro hpos value hvalue
  have hlt := (List.getElem?_eq_some_iff.mp hvalue).1
  omega

theorem reads_returned {i : Nat} (h : i < list.toList.length) (printed : List (Bytes × Nat)) :
    Reads list i (.returned list.toList[i] printed) := by
  refine ⟨iff_of_false nofun (by omega), ?_, nofun⟩
  intro _ value hvalue
  rw [Int.toNat_natCast, List.getElem?_eq_getElem h] at hvalue
  cases hvalue
  exact ⟨printed, rfl⟩

/-- A vector with elements is read right, and one without is read where it has
no element, whatever the index. -/
theorem guarded_reads_iff {i : Int} (hlow : -2147483648 ≤ i)
    (hindex : (index.toNat : Int) = if 0 ≤ i then i else 18446744073709551616 + i) :
    Reads list i (guarded list index e report) ↔ list.toList ≠ [] := by
  constructor
  · intro h hempty
    exact h.defined (guarded_empty hempty)
  · intro hne
    have hle := list.length_le
    by_cases hin : index.toNat < list.toList.length
    · have hi : i = index.toNat := by
        split at hindex <;> omega
      rw [guarded_inside hin, hi]
      exact reads_returned hin _
    · rw [guarded_outside hne (Nat.le_of_not_lt hin)]
      apply reads_thrown
      intro h
      rw [if_pos h.1] at hindex
      omega

theorem guarded_unsigned_iff (index : UInt32) :
    Reads list index.toNat (guarded list index.toUInt64 e report) ↔ list.toList ≠ [] := by
  apply guarded_reads_iff
  · omega
  · rw [UInt32.toNat_toUInt64, if_pos (Int.natCast_nonneg _)]

theorem guarded_signed_iff (index : Int32) :
    Reads list index.toInt (guarded list (toSize index) e report) ↔
      list.toList ≠ [] :=
  guarded_reads_iff index.le_toInt (toNat_toSize index)

/-- **When the accessors read what they should**: on every container that
holds something, and on no empty one. -/
theorem accessors_read_iff {Item Order Button Edit : Type} :
    (∀ (contents : StdVector (Option Item)) (index : UInt32),
        Reads contents index.toNat (getItem contents index) ↔ contents.toList ≠ [])
      ∧ (∀ (orderList : StdVector (Option Order)) (index : UInt32),
        Reads orderList index.toNat (getOrder orderList index) ↔ orderList.toList ≠ [])
      ∧ (∀ (favoritesList : StdVector (Option Item)) (index : UInt32),
        Reads favoritesList index.toNat (getFavorite favoritesList index) ↔
          favoritesList.toList ≠ [])
      ∧ (∀ (buttonList : StdVector (Option Button)) (index : Int32),
        Reads buttonList index.toInt (getButton buttonList index) ↔ buttonList.toList ≠ [])
      ∧ (∀ (editList : StdVector (Option Edit)) (index : Int32),
        Reads editList index.toInt (getEdit editList index) ↔ editList.toList ≠ []) :=
  ⟨fun _ index => guarded_unsigned_iff index, fun _ index => guarded_unsigned_iff index,
    fun _ index => guarded_unsigned_iff index, fun _ index => guarded_signed_iff index,
    fun _ index => guarded_signed_iff index⟩

/-- The first item of an empty cart. -/
theorem not_reads_empty_cart :
    ¬ Reads (.empty : StdVector (Option Nat)) (0 : UInt32).toNat (getItem .empty 0) := by
  intro h
  exact h.defined (guarded_empty rfl)

/-- The accessor of the seller asks for the empty vector first. -/
theorem getCustomerOrder_defined (customerOrderList : StdVector Int32) (index : UInt32) :
    getCustomerOrder customerOrderList index ≠ .undefined := by
  unfold getCustomerOrder
  split
  · nofun
  · next hne =>
      have hne : customerOrderList.toList ≠ [] := by simpa using hne
      by_cases hin : index.toUInt64.toNat < customerOrderList.toList.length
      · rw [guarded_inside hin]
        nofun
      · rw [guarded_outside hne (Nat.le_of_not_lt hin)]
        nofun

end Neroshop.Accessors
