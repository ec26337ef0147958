import Mathlib.Algebra.Order.Group.Multiset
import Mathlib.Data.List.Perm.Basic
import Mathlib.Data.List.ReduceOption
import Neroshop.Lib.Owners

/-!
# Seller — who owns the wallets

`seller.cpp` with the pointers: `set_wallet` makes a `std::unique_ptr` of the
reference it is given, and the wallet that the seller had goes. Several sellers
may be given the same wallet.

`wallets_iff`: over whole runs, no wallet is used after its free exactly when each
call is `Fine`.
-/

namespace Neroshop.Sellers

open Lib.Owners Lib.Runs

/-- `Seller::wallet`: the number of the wallet, or `nullptr`. -/
abbrev Seller := Option Nat

/-- The wallets that the sellers hold. -/
def pointers (sellers : List Seller) : List Nat := sellers.reduceOption

/-- The calls of the sellers, and what the program does with its wallets. -/
inductive Op where
  -- a new wallet
  | make
  -- a wallet is read through a pointer to it
  | read (i : Nat)
  -- a wallet is freed by somebody else than a seller
  | delete (i : Nat)
  -- `Seller::Seller`
  | seller
  | setWallet (k i : Nat)
  | hasWallet (k : Nat)
  -- `opened`: the wallet has its `monero_wallet_full`
  | hasWalletSynced (k : Nat) (opened : Bool)
  | onOrderReceived (k : Nat) (opened synced : Bool)
  -- `Seller::~Seller`
  | destroy (k : Nat)

/-- The seller's wallet goes. -/
def drops (wallet : Seller) : List Lib.Owners.Event := wallet.toList.map .drop

/-- The seller's wallet is read so many times. -/
def reads (n : Nat) (wallet : Seller) : List Lib.Owners.Event :=
  wallet.toList.flatMap fun i => List.replicate n (.use i)

/-- `Seller::set_wallet`: the move assignment takes the new wallet, and frees
the old one behind that. -/
def setWallet (i : Nat) (wallet : Seller) : List Lib.Owners.Event := .hold i :: drops wallet

/-- `has_wallet` -/
def hasWallet (wallet : Seller) : List Lib.Owners.Event := reads 1 wallet

/-- `has_wallet_synced` -/
def hasWalletSynced (opened : Bool) (wallet : Seller) : List Lib.Owners.Event :=
  reads (if opened then 2 else 1) wallet

/-- `Seller::on_order_received`: the checks, ten `address_new` and
`address_unused`. -/
def onOrderReceived (opened synced : Bool) (wallet : Seller) : List Lib.Owners.Event :=
  reads (if opened then if synced then 2 + 10 + 1 else 2 else 1) wallet

/-- A member function of the seller numbered `k`, and what it leaves of it. -/
def member (sellers : List Seller) (k : Nat) (f : Seller → List Lib.Owners.Event)
    (rest : List Seller → List Seller) : List Lib.Owners.Event × List Seller :=
  match sellers[k]? with
  | none => ([], sellers)
  | some wallet => (f wallet, rest sellers)

/-- What a call does to the wallets, and the sellers it leaves. -/
def call (sellers : List Seller) : Op → List Lib.Owners.Event × List Seller
  | .make => ([.make], sellers)
  | .read i => ([.use i], sellers)
  | .delete i => ([.delete i], sellers)
  | .seller => ([], sellers ++ [none])
  | .setWallet k i => member sellers k (setWallet i) (·.set k (some i))
  | .hasWallet k => member sellers k hasWallet id
  | .hasWalletSynced k opened => member sellers k (hasWalletSynced opened) id
  | .onOrderReceived k opened synced => member sellers k (onOrderReceived opened synced) id
  | .destroy k => member sellers k drops (·.eraseIdx k)

/-- What is read is live, and a wallet that a seller is given or that others
free is live and held by no seller. -/
def Fine (store : Store) (sellers : List Seller) : Op → Prop
  | .read i => i ∈ store.live
  | .delete i => i ∈ store.live ∧ i ∉ pointers sellers
  | .setWallet k i => k < sellers.length → i ∈ store.live ∧ i ∉ pointers sellers
  | _ => True

/-! ## What a call does to the owners -/

section Owners

variable {sellers : List Seller} {k i : Nat} {wallet : Seller}

/-- The wallets of the sellers, with that of one of them in front. -/
theorem pointers_perm (h : sellers[k]? = some wallet) :
    (wallet.toList ++ pointers (sellers.eraseIdx k)).Perm (pointers sellers) := by
  obtain ⟨hk, rfl⟩ := List.getElem?_eq_some_iff.mp h
  have hperm := (List.getElem_cons_eraseIdx_perm hk).filterMap id
  cases hw : sellers[k] with
  | none => rwa [hw] at hperm
  | some j => rwa [hw] at hperm

theorem pointers_set (h : sellers[k]? = some wallet) :
    (pointers (sellers.set k (some i))).Perm (i :: pointers (sellers.eraseIdx k)) := by
  obtain ⟨hk, -⟩ := List.getElem?_eq_some_iff.mp h
  exact (List.set_perm_cons_eraseIdx hk (some i)).filterMap id

theorem foldl_drops (h : sellers[k]? = some wallet) (is : List Nat) :
    (drops wallet).foldl Lib.Owners.Event.held (is ++ pointers sellers : List Nat)
      = (is ++ pointers (sellers.eraseIdx k) : List Nat) := by
  show (ends wallet.toList).foldl Lib.Owners.Event.held _ = _
  rw [foldl_ends, ← Multiset.coe_add, ← Multiset.coe_add,
    ← Multiset.coe_eq_coe.mpr (pointers_perm h), ← Multiset.coe_add, add_left_comm]
  exact add_tsub_cancel_left _ _

theorem foldl_reads (n : Nat) (held : Multiset Nat) :
    (reads n wallet).foldl Lib.Owners.Event.held held = held := by
  cases wallet with
  | none => rfl
  | some j =>
      rw [reads, Option.toList_some, List.flatMap_singleton]
      induction n with
      | zero => rfl
      | succ n ih => exact ih

/-- The call does to the sellers what its events do to the wallets. -/
def Keeps (sellers : List Seller) (r : List Lib.Owners.Event × List Seller) : Prop :=
  r.1.foldl Lib.Owners.Event.held (pointers sellers : Multiset Nat) = pointers r.2

theorem keeps_member {f : Seller → List Lib.Owners.Event} {rest : List Seller → List Seller}
    (h : ∀ wallet, sellers[k]? = some wallet → Keeps sellers (f wallet, rest sellers)) :
    Keeps sellers (member sellers k f rest) := by
  unfold member
  split
  · rfl
  · next wallet hk => exact h wallet hk

theorem keeps_reads (n : Nat) : Keeps sellers (reads n wallet, sellers) := foldl_reads n _

theorem keeps_setWallet (h : sellers[k]? = some wallet) :
    Keeps sellers (setWallet i wallet, sellers.set k (some i)) := by
  show (drops wallet).foldl Lib.Owners.Event.held ([i] ++ pointers sellers : List Nat) = _
  rw [foldl_drops h]
  exact Multiset.coe_eq_coe.mpr (pointers_set h).symm

theorem tracks_call : Tracks call pointers := by
  intro sellers op
  cases op with
  | make => rfl
  | read i => rfl
  | delete i => rfl
  | seller =>
      show (pointers sellers : Multiset Nat) = pointers (sellers ++ [none])
      rw [pointers, pointers, List.reduceOption_append]
      exact congrArg _ (List.append_nil _).symm
  | setWallet k i => exact keeps_member fun wallet h => keeps_setWallet h
  | hasWallet k => exact keeps_member fun wallet h => keeps_reads 1
  | hasWalletSynced k opened => exact keeps_member fun wallet h => keeps_reads _
  | onOrderReceived k opened synced => exact keeps_member fun wallet h => keeps_reads _
  | destroy k => exact keeps_member fun wallet h => foldl_drops h []

end Owners

/-! ## What a call misuses -/

section Calls

variable {store : Store} {sellers : List Seller} {k i : Nat} {wallet : Seller}

theorem live_own (hs : Sound store) (hheld : store.held = (pointers sellers : Multiset Nat))
    (h : sellers[k]? = some wallet) (hi : i ∈ wallet.toList) : i ∈ store.live := by
  refine hs.live i ?_
  rw [hheld]
  exact (pointers_perm h).subset (List.mem_append_left _ hi)

theorem along_reads (hlive : ∀ i ∈ wallet.toList, i ∈ store.live) (n : Nat) :
    Along Lib.Owners.step FairStep (some store) (reads n wallet) := by
  cases wallet with
  | none => exact trivial
  | some j =>
      have hj : j ∈ store.live := hlive j (List.mem_singleton_self j)
      rw [reads, Option.toList_some, List.flatMap_singleton]
      induction n with
      | zero => exact trivial
      | succ n ih => exact along_use.mpr ⟨hj, ih⟩

theorem along_drops (hlive : ∀ i ∈ wallet.toList, i ∈ store.live) :
    Along Lib.Owners.step FairStep (some store) (drops wallet) := by
  cases wallet with
  | none => exact trivial
  | some j => exact along_drop.mpr ⟨hlive j (List.mem_singleton_self j), trivial⟩

theorem along_setWallet (hheld : store.held = (pointers sellers : Multiset Nat))
    (hlive : ∀ i ∈ wallet.toList, i ∈ store.live) :
    Along Lib.Owners.step FairStep (some store) (setWallet i wallet)
      ↔ i ∈ store.live ∧ i ∉ pointers sellers := by
  rw [setWallet, along_hold, hheld, Multiset.mem_coe]
  constructor
  · rintro ⟨hi, hnew, -⟩
    exact ⟨hi, hnew⟩
  · rintro ⟨hi, hnew⟩
    exact ⟨hi, hnew, along_drops hlive⟩

/-- A member function of a seller, where there is that seller, and where not. -/
theorem along_member {f : Seller → List Lib.Owners.Event}
    {rest : List Seller → List Seller} {P : Prop}
    (h : ∀ wallet, sellers[k]? = some wallet →
      (Along Lib.Owners.step FairStep (some store) (f wallet) ↔ P)) :
    Along Lib.Owners.step FairStep (some store) (member sellers k f rest).1
      ↔ (k < sellers.length → P) := by
  unfold member
  cases hk : sellers[k]? with
  | none =>
      have hlen := List.getElem?_eq_none_iff.mp hk
      exact iff_of_true trivial fun hlt => absurd hlt (Nat.not_lt.mpr hlen)
  | some wallet =>
      obtain ⟨hlt, -⟩ := List.getElem?_eq_some_iff.mp hk
      show Along Lib.Owners.step FairStep (some store) (f wallet) ↔ _
      rw [h wallet hk]
      exact ⟨fun hP _ => hP, fun hP => hP hlt⟩

theorem along_own {f : Seller → List Lib.Owners.Event} {rest : List Seller → List Seller}
    (h : ∀ wallet, sellers[k]? = some wallet →
      Along Lib.Owners.step FairStep (some store) (f wallet)) :
    Along Lib.Owners.step FairStep (some store) (member sellers k f rest).1 :=
  (along_member fun wallet hk => iff_true_intro (h wallet hk)).mpr fun _ => trivial

/-- The calls whose events are fair. -/
theorem along_call (store : Store) (sellers : List Seller) (op : Op) (hs : Sound store)
    (hheld : store.held = (pointers sellers : Multiset Nat)) :
    Along Lib.Owners.step FairStep (some store) (call sellers op).1 ↔ Fine store sellers op := by
  have hlive : ∀ {k : Nat} {wallet : Seller}, sellers[k]? = some wallet →
      ∀ i ∈ wallet.toList, i ∈ store.live := fun h i => live_own hs hheld h
  cases op with
  | make =>
      show Along Lib.Owners.step FairStep (some store) [.make] ↔ True
      rw [along_cons, fairStep_some]
      exact iff_true_intro ⟨trivial, trivial⟩
  | read i =>
      show Along Lib.Owners.step FairStep (some store) [.use i] ↔ i ∈ store.live
      rw [along_use]
      exact and_iff_left trivial
  | delete i =>
      show Along Lib.Owners.step FairStep (some store) [.delete i]
        ↔ i ∈ store.live ∧ i ∉ pointers sellers
      rw [along_cons, fairStep_some, Fair, hheld]
      exact and_iff_left trivial
  | seller => exact iff_true_intro trivial
  | setWallet k i => exact along_member fun wallet h => along_setWallet hheld (hlive h)
  | hasWallet k => exact iff_true_intro (along_own fun wallet h => along_reads (hlive h) 1)
  | hasWalletSynced k opened =>
      exact iff_true_intro (along_own fun wallet h => along_reads (hlive h) _)
  | onOrderReceived k opened synced =>
      exact iff_true_intro (along_own fun wallet h => along_reads (hlive h) _)
  | destroy k => exact iff_true_intro (along_own fun wallet h => along_drops (hlive h))

end Calls

/-! ## Whole runs -/

/-- **Who owns the wallets of the sellers**: a run of calls on any number of
sellers, with the end of all sellers behind it, reads and frees live wallets
only exactly when each of its calls is fine. No wallet is given to a seller
while one holds it, the same seller included. -/
theorem wallets_iff (ops : List Op) :
    Closes call pointers [] ops ↔ Along (callStep call) (FineStep Fine) (some .start, []) ops :=
  closes_iff tracks_call along_call rfl ops

end Neroshop.Sellers
