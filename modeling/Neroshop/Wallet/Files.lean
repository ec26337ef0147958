import Mathlib.Logic.Function.Basic
import Neroshop.Lib.CStr
import Neroshop.Lib.EState

/-!
# Wallet — the wallet files

`wallet.cpp`: the constructor from a file name, `create` and `open`, over the
wallets that the disk stores. A wallet is stored under its path, which the
Monero library completes to the name of the `.keys` file.

`not_reopens`: a wallet that was made from a file name is never opened again by
that name. It is stored under another path, or with a password.
-/

namespace Neroshop.WalletFiles

open Lib.CStr Lib.EState

/-- A stored wallet: which one it is, and the password that opens it. -/
structure Stored where
  keys : Nat
  password : Bytes
  deriving DecidableEq

/-- The wallets, by path. -/
abbrev Disk := Bytes → Option Stored

/-- The extension of a key file. -/
def extension : Bytes := ascii ".keys"

/-- The Monero library, as far as it decides anything here. -/
structure MoneroFiles where
  walletExists : Disk → Bytes → Bool
  walletExists_keys : ∀ disk path,
    walletExists disk (path ++ extension) = (disk path).isSome
  -- the keys that a new wallet gets
  newKeys : Disk → Nat
  -- a new wallet replaces one that is stored under its path
  replaces : Bool

/-- What the wallet library throws. -/
inductive FilesError where
  | cannotOpen
  | cannotCreate
  deriving DecidableEq

/-- The wallet in `monero_wallet_obj`. -/
structure Opened where
  path : Bytes
  keys : Nat
  deriving DecidableEq

/-- Code over the disk. -/
abbrev FilesM := EStateM FilesError Disk

variable (lib : MoneroFiles)

/-- `monero_wallet_full::open_wallet` -/
def openWallet (path password : Bytes) : FilesM Opened := do
  match (← get) path with
  | none => throw .cannotOpen
  | some stored =>
      if stored.password = password then pure ⟨path, stored.keys⟩
      else throw .cannotOpen

/-- `monero_wallet_full::create_wallet_random` -/
def createWalletRandom (path password : Bytes) : FilesM Opened := do
  let disk ← get
  if (disk path).isSome && !lib.replaces then throw .cannotCreate
  else
    set (Function.update disk path (some ⟨lib.newKeys disk, password⟩))
    pure ⟨path, lib.newKeys disk⟩

/-- `Wallet::create`: its parameter is the password. -/
def create (password : Bytes) : FilesM Opened :=
  let path := ascii "wallet"
  createWalletRandom lib path password

/-- `Wallet::open`. -/
def «open» (path password : Bytes) : FilesM Opened := openWallet path password

/-- `file.substr(0, file.find("."))` -/
def baseName (file : Bytes) : Bytes := file.takeWhile (· != 46)

/-- `Wallet::Wallet(file)`. The password of `open` has the default `""`. -/
def wallet (file : Bytes) : FilesM Opened := do
  if lib.walletExists (← get) file then «open» (baseName file) []
  else create lib (baseName file)

/-! ## Creating, and opening again -/

variable {lib} {disk disk' : Disk} {b path password : Bytes}

/-- What starts with a dot is cut off. -/
theorem baseName_append (h : 46 ∉ b) {t : Bytes} (ht : ∀ c ∈ t.head?, c = 46) :
    baseName (b ++ t) = b := by
  have hall : ∀ c ∈ b, (c != 46) = true := by
    intro c hc
    rw [bne_iff_ne]
    intro heq
    exact h (heq ▸ hc)
  rw [baseName, List.takeWhile_append_of_pos hall]
  cases t with
  | nil => rw [List.takeWhile_nil, List.append_nil]
  | cons c t =>
      rw [ht c rfl]
      exact List.append_nil b

theorem baseName_keys (h : 46 ∉ b) : baseName (b ++ extension) = b := by
  have hdot : extension.head? = some 46 := by decide
  apply baseName_append h
  intro c hc
  exact Option.some.inj (hc.symm.trans hdot)

theorem openWallet_stored {stored : Stored} (h : disk path = some stored) :
    openWallet path password disk
      = if stored.password = password then .ok ⟨path, stored.keys⟩ disk
        else .error .cannotOpen disk := by
  simp only [openWallet, bind_apply, get_apply, h]
  split <;> rfl

/-- On a disk without the wallet the constructor creates `wallet`, with the
base name for its password. -/
theorem after_wallet_new (hdot : 46 ∉ b) (hnone : disk b = none) :
    after (wallet lib (b ++ extension)) disk = disk
      ∨ after (wallet lib (b ++ extension)) disk
        = Function.update disk (ascii "wallet") (some ⟨lib.newKeys disk, b⟩) := by
  have hrun : wallet lib (b ++ extension) disk = create lib b disk := by
    simp [wallet, lib.walletExists_keys, hnone, baseName_keys hdot]
  rw [after, hrun]
  simp only [create, createWalletRandom, bind_apply, get_apply, if_apply, set_apply,
    pure_apply, throw_apply]
  by_cases hrep : ((disk (ascii "wallet")).isSome && !lib.replaces) = true
  · left
    rw [if_pos hrep]
  · right
    rw [if_neg hrep]

/-- On a disk with the wallet the constructor opens it with no password. -/
theorem wallet_stored {stored : Stored} (hdot : 46 ∉ b) (h : disk b = some stored) :
    wallet lib (b ++ extension) disk
      = if stored.password = [] then .ok ⟨b, stored.keys⟩ disk
        else .error .cannotOpen disk := by
  simp only [wallet, bind_apply, get_apply, if_apply, lib.walletExists_keys, h,
    Option.isSome_some, if_true, baseName_keys hdot]
  exact openWallet_stored h

/-- After the constructor has run for a wallet, the disk holds the wallet, and
the constructor opens it. -/
def Reopens (lib : MoneroFiles) (b : Bytes) (disk : Disk) : Prop :=
  let disk' := after (wallet lib (b ++ extension)) disk
  ∃ stored, disk' b = some stored
    ∧ ∃ disk'', wallet lib (b ++ extension) disk' = .ok ⟨b, stored.keys⟩ disk''

/-- **A new wallet is never opened again**: either it is stored under another
path, or its password is not the empty one. -/
theorem not_reopens (lib : MoneroFiles) (b : Bytes) (disk : Disk) (hdot : 46 ∉ b)
    (hnone : disk b = none) : ¬ Reopens lib b disk := by
  intro h
  obtain ⟨stored, hstored, disk'', hopen⟩ := h
  rw [wallet_stored hdot hstored] at hopen
  have hafter : after (wallet lib (b ++ extension)) disk = disk ∨ _ :=
    after_wallet_new hdot hnone
  rcases hafter with hsame | hnew
  · rw [hsame, hnone] at hstored
    cases hstored
  · rw [hnew] at hstored
    by_cases hb : b = ascii "wallet"
    · rw [← hb, Function.update_self] at hstored
      obtain rfl := Option.some.inj hstored
      have hpassword : b ≠ [] := by
        rw [hb]
        decide
      rw [if_neg hpassword] at hopen
      cases hopen
    · rw [Function.update_of_ne hb, hnone] at hstored
      cases hstored

/-- A library that answers from the disk. -/
def plain : MoneroFiles where
  walletExists disk file := (disk (file.take (file.length - 5))).isSome
  walletExists_keys disk path := by
    have hlen : (path ++ extension).length - 5 = path.length := by
      have hext : extension.length = 5 := by decide
      rw [List.length_append]
      omega
    rw [hlen, List.take_left]
  newKeys _ := 7
  replaces := false

theorem not_reopens_seller :
    46 ∉ ascii "seller" ∧ (fun _ => none : Disk) (ascii "seller") = none
      ∧ ¬ Reopens plain (ascii "seller") fun _ => none :=
  ⟨by decide, rfl, not_reopens plain (ascii "seller") (fun _ => none) (by decide) rfl⟩

/-- Not even the wallet named `wallet`: its password is `wallet`. -/
theorem wallet_locked_out :
    ¬ ∀ b disk, 46 ∉ b → disk b = none → Reopens plain b disk := by
  intro hall
  obtain ⟨stored, hstored, disk'', hopen⟩ :=
    hall (ascii "wallet") (fun _ => none) (by decide) rfl
  have heq : stored = ⟨7, ascii "wallet"⟩ := Option.some.inj (hstored.symm.trans rfl)
  rw [wallet_stored (by decide) hstored, heq, if_neg (by decide)] at hopen
  cases hopen

end Neroshop.WalletFiles
