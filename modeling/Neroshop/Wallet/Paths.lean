import Neroshop.Wallet.Files

/-!
# Wallet — the paths

`wallet.cpp`: `upload`, and the paths that come through the constructor and
through `upload` unchanged. Both take the extension off at the first dot of
the whole path.

* `Survives`: the wallet that is stored at the path is the one that is opened.
* `survives_iff`: it is so exactly for the paths that are `Kept`: without a dot,
  a zero byte or a newline before the end, and short enough for the array.
-/

namespace Neroshop.WalletFiles

open Lib.CStr Lib.EState

/-- How an `upload` ends. -/
structure Uploaded where
  returned : Bytes
  printed : List (Bytes × Nat)
  opened : Option Opened

variable (lib : MoneroFiles)

/-- `Wallet::upload`, from the check for the file on. -/
def uploadFile (filename : Bytes) (opens : Bool) (password : Bytes) : FilesM Uploaded := do
  if !lib.walletExists (← get) (filename ++ extension) then
    return ⟨[], [(ascii "wallet not found", 1)], none⟩
  else if opens then
    let opened ← «open» filename password
    return ⟨filename ++ extension, [], some opened⟩
  else
    return ⟨filename ++ extension, [], none⟩

/-- `Wallet::upload`: `dialog` is what the file dialog prints. `none` is a
read of the array `file` when nothing was ever stored in it. -/
def upload (dialog : Bytes) (opens : Bool) (password : Bytes) : Option (FilesM Uploaded) :=
  (fgets 1024 dialog).map fun file =>
    uploadFile lib (baseName (untilZero file)) opens password

/-- What the dialog prints when the wallet at `path` is selected. -/
def selected (path : Bytes) : Bytes := path ++ extension ++ [10]

/-- The path that `upload` opens when the wallet at `path` is selected. -/
def selectedName (path : Bytes) : Bytes :=
  baseName (untilZero (throughNewline ((selected path).take 1023)))

/-- The wallet that is stored at `path` is the one opened for its name, by the
constructor and by `upload`. -/
structure Survives (path : Bytes) : Prop where
  by_name : ∀ disk, (disk path).isSome →
    wallet lib (path ++ extension) disk = openWallet path [] disk
  by_dialog : ∀ disk password, (disk path).isSome →
    ∃ run, upload lib (selected path) true password = some run
      ∧ run disk = (return ⟨path ++ extension, [], some (← openWallet path password)⟩ :
          FilesM Uploaded) disk

/-- No dot and no zero byte, no newline but a last one, and room for the path
in the array. -/
structure Kept (path : Bytes) : Prop where
  dot_notMem : 46 ∉ path
  zero_notMem : 0 ∉ path
  newline_notMem : 10 ∉ path.dropLast
  length_le : path.length ≤ 1023

/-! ## The name that is left -/

variable {lib} {path : Bytes}

theorem isPrefix_baseName (file : Bytes) : baseName file <+: file :=
  List.takeWhile_prefix _

theorem dot_notMem_baseName (file : Bytes) : 46 ∉ baseName file := by
  intro h
  exact absurd (List.mem_takeWhile_imp h) (by decide)

theorem kept_of_selectedName (h : selectedName path = path) : Kept path := by
  have hname : path <+: untilZero (throughNewline ((selected path).take 1023)) := by
    have hprefix := isPrefix_baseName (untilZero (throughNewline ((selected path).take 1023)))
    rwa [show baseName _ = path from h] at hprefix
  have hline := hname.trans (isPrefix_untilZero _)
  refine ⟨?_, ?_, newline_notMem_dropLast hline, ?_⟩
  · rw [← h]
    exact dot_notMem_baseName _
  · intro h0
    exact zero_notMem_untilZero _ (hname.subset h0)
  · have hlen := (hline.trans (isPrefix_throughNewline _)).length_le
    exact hlen.trans (List.length_take_le _ _)

/-- What follows the path in the array is a head of the extension. -/
theorem line_selected (h : Kept path) :
    ∃ t, t <+: extension ++ [10]
      ∧ throughNewline ((selected path).take 1023) = path ++ t := by
  have htake : (selected path).take 1023 =
      path ++ (extension ++ [10]).take (1023 - path.length) := by
    rw [selected, List.append_assoc, List.take_append, List.take_of_length_le h.length_le]
  rcases throughNewline_append h.newline_notMem
    ((extension ++ [10]).take (1023 - path.length)) with ⟨t, ht, hline⟩
  exact ⟨t, ht.trans (List.take_prefix _ _), by rw [htake, hline]⟩

theorem selectedName_of_kept (h : Kept path) : selectedName path = path := by
  rcases line_selected h with ⟨t, ht, hline⟩
  have hzero : 0 ∉ path ++ t := by
    rw [List.mem_append, not_or]
    exact ⟨h.zero_notMem, fun h0 => absurd (ht.subset h0) (by decide)⟩
  rw [selectedName, hline, untilZero_eq_iff.mpr hzero]
  apply baseName_append h.dot_notMem
  intro c hc
  cases t with
  | nil => cases hc
  | cons d t =>
      cases hc
      exact (List.cons_prefix_cons.mp ht).1

/-! ## The paths that come through -/

theorem wallet_survives {disk : Disk} (hdot : 46 ∉ path) (hstored : (disk path).isSome) :
    wallet lib (path ++ extension) disk = openWallet path [] disk := by
  simp only [wallet, bind_apply, get_apply, if_apply, lib.walletExists_keys, hstored,
    if_true, baseName_keys hdot]
  rfl

theorem upload_selected (lib : MoneroFiles) (path : Bytes) (opens : Bool)
    (password : Bytes) :
    upload lib (selected path) opens password =
      some (uploadFile lib (selectedName path) opens password) := by
  have hne : (selected path).isEmpty = false := by simp [selected]
  rw [upload, fgets, hne]
  rfl

theorem uploadFile_stored {disk : Disk} (hstored : (disk path).isSome) (password : Bytes) :
    uploadFile lib path true password disk =
      (return ⟨path ++ extension, [], some (← openWallet path password)⟩ :
        FilesM Uploaded) disk := by
  simp only [uploadFile, bind_apply, get_apply, if_apply, lib.walletExists_keys, hstored,
    Bool.not_true, Bool.false_eq_true, if_false, if_true]
  rfl

theorem uploadFile_missing {disk : Disk} (hnone : disk path = none) (password : Bytes) :
    uploadFile lib path true password disk =
      .ok ⟨[], [(ascii "wallet not found", 1)], none⟩ disk := by
  simp [uploadFile, lib.walletExists_keys, hnone]

/-- A disk with one wallet, which no password protects. -/
def oneWallet (path : Bytes) : Disk := fun q => if q = path then some ⟨0, []⟩ else none

theorem openWallet_oneWallet (path : Bytes) :
    openWallet path [] (oneWallet path) = .ok ⟨path, 0⟩ (oneWallet path) := by
  rw [openWallet_stored (if_pos rfl), if_pos rfl]

/-- The constructor alone: a path without dots. -/
theorem wallet_survives_iff (lib : MoneroFiles) (path : Bytes) :
    (∀ disk, (disk path).isSome →
      wallet lib (path ++ extension) disk = openWallet path [] disk) ↔ 46 ∉ path := by
  constructor
  · intro h hdot
    have hstored : (oneWallet path path).isSome := by simp [oneWallet]
    have hrun := h (oneWallet path) hstored
    have hne : baseName (path ++ extension) ≠ path := by
      intro heq
      exact dot_notMem_baseName _ (heq ▸ hdot)
    have hnone : oneWallet path (baseName (path ++ extension)) = none := if_neg hne
    rw [openWallet_oneWallet] at hrun
    simp [wallet, lib.walletExists_keys, hstored, «open», openWallet, hnone] at hrun
  · intro hdot disk
    exact wallet_survives hdot

theorem selectedName_of_survives (h : Survives lib path) : selectedName path = path := by
  by_contra hne
  have hstored : (oneWallet path path).isSome := by simp [oneWallet]
  rcases h.by_dialog (oneWallet path) [] hstored with ⟨run, hrun, heq⟩
  rw [upload_selected] at hrun
  obtain rfl := Option.some.inj hrun
  rw [uploadFile_missing (if_neg hne)] at heq
  simp [openWallet_oneWallet] at heq

/-- **Which wallet paths survive**: no part of the path, a directory or the
base name, may hold a dot. -/
theorem survives_iff (lib : MoneroFiles) (path : Bytes) : Survives lib path ↔ Kept path := by
  constructor
  · intro h
    exact kept_of_selectedName (selectedName_of_survives h)
  · intro h
    refine ⟨fun disk => wallet_survives h.dot_notMem, ?_⟩
    intro disk password hstored
    refine ⟨_, upload_selected lib path true password, ?_⟩
    rw [selectedName_of_kept h]
    exact uploadFile_stored hstored password

/-- The program keeps its own files in a directory with a dot. -/
theorem not_survives_config :
    ¬ Survives plain (ascii "/home/user/.config/neroshop/wallet") := by
  intro h
  have hkept := kept_of_selectedName (selectedName_of_survives h)
  exact hkept.dot_notMem (by decide)

end Neroshop.WalletFiles
