import Mathlib.Data.List.Nodup
import Neroshop.Lib.CStr
import Neroshop.Lib.EState

/-!
# Wallet — the subaddresses

`wallet.cpp`: `address_new`, the lists of addresses and `on_output_received`
over account 0 of the opened Monero wallet. The Monero library is a parameter:
all that is used of it is that a new subaddress is fresh and unused.

`used` and `unused` are the loops of `address_used` and `address_unused`. An
address with an output that is not confirmed yet is among the recent ones, which
`address_unused` leaves out.
-/

namespace Neroshop

open Lib.CStr Lib.EState

/-- What wallet code throws. -/
inductive WalletError where
  -- `std::runtime_error`
  | runtime (text : Bytes)
  -- an element past the end of a vector
  | outOfRange
  deriving DecidableEq, Repr

/-- The Monero library, as far as it decides anything here: the address it
gives to a new subaddress, beside the addresses `taken`. -/
structure Monero where
  newAddress : List Bytes → Bytes
  newAddress_fresh : ∀ taken, newAddress taken ∉ taken

/-- A subaddress, with the flag of `is_used`. -/
structure Subaddress where
  address : Bytes
  isUsed : Bool
  deriving DecidableEq

/-- The addresses of subaddresses. -/
def addresses (subs : List Subaddress) : List Bytes := subs.map Subaddress.address

/-- A `monero_wallet_full`, by the subaddresses of account 0, which have
different addresses. -/
structure MoneroWallet where
  subaddresses : List Subaddress
  distinct : (addresses subaddresses).Nodup
  isSynced : Bool

/-- The Monero wallet, if one is open, and the recent addresses. -/
structure Wallet where
  moneroWallet : Option MoneroWallet
  recentAddressList : List Bytes

/-- Wallet code. -/
abbrev WalletM := EStateM WalletError Wallet

variable (m : Monero) (mw : MoneroWallet)

/-- The subaddress that `create_subaddress(0)` returns. -/
def MoneroWallet.newSubaddress : Subaddress :=
  ⟨m.newAddress (addresses mw.subaddresses), false⟩

/-- The wallet after `create_subaddress(0)`. -/
def MoneroWallet.createSubaddress : MoneroWallet :=
  { mw with
    subaddresses := mw.subaddresses ++ [mw.newSubaddress m]
    distinct := by
      have hfresh := m.newAddress_fresh (addresses mw.subaddresses)
      rw [addresses, List.map_append, List.nodup_append']
      exact ⟨mw.distinct, by simp, by
        simpa [addresses, MoneroWallet.newSubaddress] using hfresh⟩ }

theorem addresses_modify (subs : List Subaddress) (index : Nat) :
    addresses (subs.modify index fun s => { s with isUsed := true })
      = addresses subs := by
  induction subs generalizing index with
  | nil => simp
  | cons s subs ih =>
      cases index with
      | zero => simp [addresses]
      | succ index => simpa [addresses] using ih index

/-- Monero has seen a payment to the subaddress. -/
def MoneroWallet.markUsed (index : Nat) : MoneroWallet :=
  { mw with
    subaddresses := mw.subaddresses.modify index fun s => { s with isUsed := true }
    distinct := by
      rw [addresses_modify]
      exact mw.distinct }

namespace Wallet

/-- `if(!monero_wallet_obj.get()) throw …` -/
def opened : WalletM MoneroWallet := do
  match (← get).moneroWallet with
  | none => throw (.runtime (ascii "monero_wallet_full is not opened"))
  | some mw => pure mw

/-- The check of `opened`, and `if(!…->is_synced()) throw …` -/
def synced : WalletM MoneroWallet := do
  let mw ← opened
  if mw.isSynced then pure mw
  else throw (.runtime (ascii "wallet is not synced with a daemon"))

/-- `address_new` -/
def addressNew : WalletM Bytes := do
  let mw ← opened
  modify fun w => { w with moneroWallet := some (mw.createSubaddress m) }
  let subaddress := mw.newSubaddress m
  if subaddress.isUsed then pure []
  else pure subaddress.address

/-- `address_all` -/
def addressAll : WalletM (List Bytes) := do
  let mw ← synced
  pure (addresses mw.subaddresses)

/-- What `address_used` lists. -/
def used (subs : List Subaddress) : List Bytes :=
  subs.filterMap fun s => if s.isUsed then some s.address else none

/-- `address_used` -/
def addressUsed : WalletM (List Bytes) := do
  let mw ← synced
  pure (used mw.subaddresses)

/-- What `address_unused` lists: the subaddresses that are neither used nor
recent, in index order. -/
def unused (recentAddressList : List Bytes) (subs : List Subaddress) : List Bytes :=
  subs.filterMap fun s =>
    if !s.isUsed then
      if s.address ∈ recentAddressList then none else some s.address
    else none

/-- `address_unused` -/
def addressUnused : WalletM (List Bytes) := do
  let mw ← synced
  pure (unused (← get).recentAddressList mw.subaddresses)

/-- `get_address` -/
def getAddress (index : Nat) : WalletM Bytes := do
  let mw ← opened
  match mw.subaddresses[index]? with
  | none => throw .outOfRange
  | some s => pure s.address

/-- `Wallet::on_output_received`, for the output's subaddress index and its
locked flag. -/
def onOutputReceived (subaddressIndex : Nat) (isLocked : Bool) : WalletM Unit := do
  match (← get).moneroWallet with
  | none => pure ()
  | some mw =>
      if mw.isSynced then
        let subaddress ← getAddress subaddressIndex
        if isLocked then
          modify fun w =>
            if subaddress ∈ w.recentAddressList then w
            else { w with recentAddressList := w.recentAddressList ++ [subaddress] }

end Wallet

end Neroshop
