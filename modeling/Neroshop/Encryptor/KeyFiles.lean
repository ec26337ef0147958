import Mathlib.Logic.Function.Basic
import Neroshop.Lib.Runs

/-!
# Encryptor — the key files

`encryptor.cpp`: `generate_key_pair`, `save_key_pair` and the two functions
that write `public.pem` and `private.pem`. Every OpenSSL call may fail; its
outcome is part of the call record, so a run of calls is a list of them.

`BIO_new_file(name, "w+")` truncates the file it opens. Its result is not
checked: a null BIO goes into the PEM write, which is taken to fail here; that
is how a failed open shows. Where the library ends the program at this write
(`Encryptor.Resources`), the files are the same, since nothing is written after
it.

* `Matching`: the two files are the halves of one pair, or both are missing.
* `SafeCall`: the calls that leave no half-done work.
* `keyFiles_kept_iff`: over whole runs, the files match after each call, and a call
  that answers false has left them alone, exactly when each call is safe.
-/

namespace Neroshop.Encryptor.KeyFiles

open Lib.Runs

variable {Pair : Type}

/-- What a file holds. -/
inductive Content (Pair : Type) where
  -- truncated by the open, nothing written
  | empty
  | publicHalf (pair : Pair)
  | privateHalf (pair : Pair)
  deriving DecidableEq

/-- The files by name; `none` is a file that does not exist. -/
abbrev Disk (Pair : Type) := String → Option (Content Pair)

/-- How the two library calls of a save end. -/
structure SaveOutcome where
  -- `BIO_new_file`
  opens : Bool
  -- the PEM write
  writes : Bool
  deriving DecidableEq

/-- A finished call: its result, the disk it leaves, and the texts it
prints with their colour codes. -/
structure Saved (Pair : Type) where
  ok : Bool
  disk : Disk Pair
  printed : List (String × Nat)

/-- The common body of `save_public_key` and `save_private_key`. -/
def saveKey (file failed created : String) (content : Content Pair)
    (o : SaveOutcome) (disk : Disk Pair) : Saved Pair :=
  if !o.opens then ⟨false, disk, [(failed, 1)]⟩
  else
    let truncated := Function.update disk file (some .empty)
    if !o.writes then ⟨false, truncated, [(failed, 1)]⟩
    else ⟨true, Function.update truncated file (some content), [(created, 3)]⟩

/-- `save_public_key` -/
def savePublicKey (pkey : Pair) : SaveOutcome → Disk Pair → Saved Pair :=
  saveKey "public.pem" "PEM_write_bio_RSAPublicKey failed"
    "public.pem created" (.publicHalf pkey)

/-- `save_private_key` -/
def savePrivateKey (pkey : Pair) : SaveOutcome → Disk Pair → Saved Pair :=
  saveKey "private.pem" "PEM_write_bio_PKCS8PrivateKey failed"
    "private.pem created" (.privateHalf pkey)

/-- `save_key_pair`: the private key only behind a public key that was saved. -/
def saveKeyPair (pkey : Pair) (pub priv : SaveOutcome) (disk : Disk Pair) :
    Saved Pair :=
  let first := savePublicKey pkey pub disk
  if !first.ok then first
  else
    let second := savePrivateKey pkey priv first.disk
    { second with printed := first.printed ++ second.printed }

/-- What the library answers during a key generation. -/
structure Keygen (Pair : Type) where
  ctxNew : Bool
  keygenInit : Bool
  setBits : Bool
  keygen : Option Pair
  errorString : String

/-- `generate_key_pair` -/
def generateKeyPair (gen : Keygen Pair) (pub priv : SaveOutcome)
    (disk : Disk Pair) : Saved Pair :=
  if !gen.ctxNew then ⟨false, disk, [("EVP_PKEY_CTX_new_id failed", 1)]⟩
  else if !gen.keygenInit then ⟨false, disk, [(gen.errorString, 1)]⟩
  else if !gen.setBits then ⟨false, disk, [(gen.errorString, 1)]⟩
  else
    match gen.keygen with
    | none => ⟨false, disk, [(gen.errorString, 1)]⟩
    | some pkey => saveKeyPair pkey pub priv disk

/-- One call, with the outcomes of everything it asks of OpenSSL. -/
inductive Call (Pair : Type) where
  | generateKeyPair (gen : Keygen Pair) (pub priv : SaveOutcome)
  | saveKeyPair (pkey : Pair) (pub priv : SaveOutcome)

/-- What a call does to the disk. -/
def Call.saved : Call Pair → Disk Pair → Saved Pair
  | .generateKeyPair gen pub priv => KeyFiles.generateKeyPair gen pub priv
  | .saveKeyPair pkey pub priv => KeyFiles.saveKeyPair pkey pub priv

/-- The disk behind a call. -/
def step (disk : Disk Pair) (call : Call Pair) : Disk Pair :=
  (call.saved disk).disk

/-! ## What the calls keep -/

/-- The key files are both absent, or the two halves of one pair. -/
def Matching (disk : Disk Pair) : Prop :=
  (disk "public.pem" = none ∧ disk "private.pem" = none)
    ∨ ∃ pair, disk "public.pem" = some (.publicHalf pair)
        ∧ disk "private.pem" = some (.privateHalf pair)

/-- The two key files are the same on both disks. -/
def SameKeyFiles (disk disk' : Disk Pair) : Prop :=
  disk' "public.pem" = disk "public.pem"
    ∧ disk' "private.pem" = disk "private.pem"

/-- A call does its job: the files match afterwards, and a call that
returns false has left them alone. -/
def Kept (disk : Disk Pair) (call : Call Pair) : Prop :=
  Matching (step disk call)
    ∧ ((call.saved disk).ok = false → SameKeyFiles disk (step disk call))

/-- The pair a call gets to save, with the outcomes of the two saves; `none`
when no pair is made. -/
def Call.toSave : Call Pair → Option (Pair × SaveOutcome × SaveOutcome)
  | .generateKeyPair gen pub priv =>
      if gen.ctxNew && gen.keygenInit && gen.setBits then
        gen.keygen.map fun pkey => (pkey, pub, priv)
      else none
  | .saveKeyPair pkey pub priv => some (pkey, pub, priv)

/-- The saves of one pair that leave no half-done work: `public.pem` cannot
be opened, or both files are written, or `private.pem` cannot be opened
while `public.pem` already holds this very pair. -/
def SafeSave (disk : Disk Pair) (pkey : Pair) (pub priv : SaveOutcome) : Prop :=
  pub.opens = false
    ∨ (pub.writes = true ∧ priv.opens = true ∧ priv.writes = true)
    ∨ (pub.writes = true ∧ priv.opens = false
        ∧ disk "public.pem" = some (.publicHalf pkey))

/-- What the call saves, if it saves something, leaves no half-done work. -/
def SafeCall (disk : Disk Pair) (call : Call Pair) : Prop :=
  ∀ pkey pub priv, call.toSave = some (pkey, pub, priv) →
    SafeSave disk pkey pub priv

/-! ## One call -/

/-- A call is the save of its pair, or it fails with the disk untouched. -/
theorem Call.saved_cases (call : Call Pair) (disk : Disk Pair) :
    (∃ pkey pub priv, call.toSave = some (pkey, pub, priv)
        ∧ call.saved disk = KeyFiles.saveKeyPair pkey pub priv disk)
      ∨ (call.toSave = none ∧ (call.saved disk).ok = false
          ∧ (call.saved disk).disk = disk) := by
  cases call with
  | saveKeyPair pkey pub priv => exact .inl ⟨pkey, pub, priv, rfl, rfl⟩
  | generateKeyPair gen pub priv =>
      obtain ⟨ctxNew, keygenInit, setBits, keygen, err⟩ := gen
      cases ctxNew <;> cases keygenInit <;> cases setBits <;> cases keygen
      case true.true.true.some pkey => exact .inl ⟨pkey, pub, priv, rfl, rfl⟩
      all_goals exact .inr ⟨rfl, rfl, rfl⟩

/-- The disk and the result of saving a pair, by the point of failure. -/
theorem saveKeyPair_cases (pkey : Pair) (pub priv : SaveOutcome)
    (disk : Disk Pair) :
    let s := saveKeyPair pkey pub priv disk
    (pub.opens = false ∧ s.ok = false ∧ s.disk = disk)
      ∨ (pub.opens = true ∧ pub.writes = false ∧ s.ok = false
          ∧ s.disk "public.pem" = some .empty)
      ∨ (pub.opens = true ∧ pub.writes = true
          ∧ s.disk "public.pem" = some (.publicHalf pkey)
          ∧ ((priv.opens = false ∧ s.ok = false
                ∧ s.disk "private.pem" = disk "private.pem")
            ∨ (priv.opens = true ∧ priv.writes = false
                ∧ s.disk "private.pem" = some .empty)
            ∨ (priv.opens = true ∧ priv.writes = true ∧ s.ok = true
                ∧ s.disk "private.pem" = some (.privateHalf pkey)))) := by
  obtain ⟨pubOpens, pubWrites⟩ := pub
  obtain ⟨privOpens, privWrites⟩ := priv
  cases pubOpens <;> cases pubWrites <;> cases privOpens <;> cases privWrites <;>
    simp [saveKeyPair, savePublicKey, savePrivateKey, saveKey, Function.update]

theorem step_other (disk : Disk Pair) (call : Call Pair) {file : String}
    (hpub : file ≠ "public.pem") (hpriv : file ≠ "private.pem") :
    step disk call file = disk file := by
  rcases call.saved_cases disk with ⟨pkey, pub, priv, _, hs⟩ | ⟨_, _, hs⟩
  · rw [step, hs]
    obtain ⟨pubOpens, pubWrites⟩ := pub
    obtain ⟨privOpens, privWrites⟩ := priv
    cases pubOpens <;> cases pubWrites <;> cases privOpens <;> cases privWrites <;>
      simp [saveKeyPair, savePublicKey, savePrivateKey, saveKey, hpub, hpriv]
  · rw [step, hs]

/-- **Which saves are kept**, from matching files: exactly the safe ones. -/
theorem kept_iff_safeCall (disk : Disk Pair) (call : Call Pair)
    (hm : Matching disk) : Kept disk call ↔ SafeCall disk call := by
  rcases call.saved_cases disk with ⟨pkey, pub, priv, hsave, hs⟩ | ⟨hnone, _, hd⟩
  · have hsafe : SafeCall disk call ↔ SafeSave disk pkey pub priv := by
      simp [SafeCall, hsave]
    rw [hsafe, Kept, step, hs]
    rcases saveKeyPair_cases pkey pub priv disk with
      ⟨ho, -, hd⟩ | ⟨ho, hw, -, hp⟩ | ⟨ho, hw, hp, hpriv⟩
    · -- public.pem did not open: nothing has happened
      rw [hd]
      constructor
      · intro _
        exact .inl ho
      · intro _
        exact ⟨hm, fun _ => ⟨rfl, rfl⟩⟩
    · -- public.pem is truncated
      simp [Matching, SafeSave, hp, ho, hw]
    · rcases hpriv with ⟨hpo, hok, hpr⟩ | ⟨hpo, hpw, hpr⟩ | ⟨hpo, hpw, hok, hpr⟩
      · -- the new public half stands beside the old private file
        simp only [Matching, SafeSave, SameKeyFiles, hp, hpr, hok, ho, hw, hpo]
        constructor
        · intro h
          obtain ⟨-, hsame⟩ := h
          exact .inr (.inr ⟨trivial, trivial, (hsame trivial).1.symm⟩)
        · intro h
          rcases h with h | ⟨-, h, -⟩ | ⟨-, -, hpub⟩
          · cases h
          · cases h
          · rcases hm with ⟨hno, -⟩ | ⟨pair, hpub', hpriv'⟩
            · rw [hno] at hpub
              cases hpub
            · rw [hpub'] at hpub
              cases hpub
              exact ⟨.inr ⟨pkey, rfl, hpriv'⟩, fun _ => ⟨hpub'.symm, trivial⟩⟩
      · -- private.pem is truncated
        simp [Matching, SafeSave, hp, hpr, ho, hw, hpo, hpw]
      · -- both halves are new
        simp [Matching, SafeSave, hp, hpr, hok, ho, hw, hpo, hpw]
  · constructor
    · intro _ pkey pub priv h
      rw [hnone] at h
      cases h
    · intro _
      rw [Kept, step, hd]
      exact ⟨hm, fun _ => ⟨rfl, rfl⟩⟩

/-! ## Runs of calls -/

/-- **When the key files always match**: over every run of calls from
matching files, every call leaves matching files and changes nothing when
it returns false, exactly when every call of the run is safe. -/
theorem keyFiles_kept_iff (disk : Disk Pair) (hm : Matching disk)
    (calls : List (Call Pair)) :
    Along step Kept disk calls ↔ Along step SafeCall disk calls := by
  have hexact : ∀ d (c : Call Pair), Matching d → (Kept d c ↔ SafeCall d c) := by
    intro d c hd
    exact kept_iff_safeCall d c hd
  have hkeep : ∀ d (c : Call Pair), Matching d → Kept d c → Matching (step d c) := by
    intro d c _ hk
    exact hk.1
  exact along_iff_of_exact hexact hkeep hm calls

/-- A save that succeeds. -/
def saves : SaveOutcome := ⟨true, true⟩

theorem keyFiles_kept_twice :
    Along step Kept (fun _ => none)
      [.saveKeyPair 1 saves saves, .saveKeyPair 2 saves saves] :=
  (keyFiles_kept_iff (fun _ => none) (.inl ⟨rfl, rfl⟩) _).mpr
    (by simp [SafeCall, Call.toSave, SafeSave, saves])

/-- The second pair's `private.pem` cannot be opened: its public half now
stands beside the private half of the first pair. -/
theorem keyFiles_mismatch :
    ¬ ∀ (disk : Disk Nat), Matching disk → ∀ calls : List (Call Nat),
      Along step Kept disk calls := by
  intro hall
  have hbad := hall (fun _ => none) (.inl ⟨rfl, rfl⟩)
    [.saveKeyPair 1 saves saves, .saveKeyPair 2 saves ⟨false, true⟩]
  have hmatch := hbad.2.1.1
  simp [Matching, step, Call.saved, saveKeyPair, savePublicKey,
    savePrivateKey, saveKey, saves] at hmatch

end Neroshop.Encryptor.KeyFiles
