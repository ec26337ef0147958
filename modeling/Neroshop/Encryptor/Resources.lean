import Neroshop.Encryptor.Cipher
import Neroshop.Encryptor.KeyFiles
import Neroshop.Lib.Handles
import Neroshop.Lib.Runs

/-!
# Encryptor — the objects of OpenSSL

`encryptor.cpp` once more, with the objects that each function makes and
frees: the BIOs, the contexts, the keys and the output buffers. An exit may
leave some of them behind.

`BIO_new_file` may answer with a null BIO, which nothing checks. OpenSSL 3 ends
the program at the write to it (`Stop.nullBio`).

* `Prog`: the functions as programs over `Lib.Handles`, with triples that say what
  each of them leaves.
* `run_leaks`: over whole runs, no object is used after its free, and what is live
  at the end is what the early exits have left.
-/

namespace Neroshop.Encryptor.Resources

open Lib Lib.CStr Lib.Handles Lib.Runs

/-- The objects that the encryptor allocates. -/
inductive Object where
  | bio
  | pkey
  | ctx
  -- `OPENSSL_malloc`
  | buffer
  deriving DecidableEq, Repr

/-- How a call ends otherwise than by a return. -/
inductive Stop where
  -- the string constructor reads past the accessible memory
  | overrun
  -- a PEM write without a BIO
  | nullBio
  deriving DecidableEq

/-- A program over these objects. -/
abbrev Prog := Handles.Prog Object Stop

/-- A text that is printed, and the empty string is returned; or the string. -/
abbrev Result := Except String Bytes

variable {Key Pair : Type} (ssl : Openssl Key) (malloc : Malloc)

/-- The common body of `encrypt_message` and `decrypt_message`; `pkey` is the
object of the key. -/
def cipherMessage (calls : CipherCalls Key) (pkey : Nat) (key : Key) (input : Bytes) :
    Prog Result := do
  use pkey
  if !ssl.ctxNew key then pure (.error "EVP_PKEY_CTX_new failed")
  else
    let ctx ← new .ctx
    use ctx
    if !calls.init key then
      free ctx
      pure (.error ssl.errorString)
    else if !ssl.setRsaPadding key then
      free ctx
      pure (.error ssl.errorString)
    else
      match calls.length key input with
      | none =>
          free ctx
          pure (.error ssl.errorString)
      | some outlen =>
          match malloc outlen with
          -- the context stays
          | none => pure (.error "OPENSSL_malloc failed")
          | some memory =>
              let out ← new .buffer
              match calls.bytes key input with
              | none =>
                  -- the buffer stays
                  free ctx
                  pure (.error ssl.errorString)
              | some written =>
                  free ctx
                  use out
                  match CStr.read (CStr.store memory written) with
                  | none => stop .overrun
                  | some text =>
                      free out
                      pure (.ok text)

/-- The common body of `public_encrypt` and `private_decrypt`: `bioNew` is
whether `BIO_new` gives a BIO, without which the write fails. -/
def withKey (bioNew : Bool) (readKey : Bytes → Option Key) (failed : String)
    (calls : CipherCalls Key) (pem input : Bytes) : Prog Result := do
  if !bioNew then pure (.error "BIO_write failed")
  else
    let bio ← new .bio
    use bio
    if !ssl.bioWrite pem then
      -- the BIO stays
      pure (.error "BIO_write failed")
    else
      match readKey pem with
      | none =>
          free bio
          pure (.error failed)
      | some key =>
          let pkey ← new .pkey
          free bio
          let text ← cipherMessage ssl malloc calls pkey key input
          free pkey
          pure text

/-- `public_encrypt` -/
def publicEncrypt (bioNew : Bool) (publicKey plainText : Bytes) : Prog Result :=
  withKey ssl malloc bioNew ssl.pemReadPubkey "PEM_read_bio_PUBKEY failed" ssl.encrypt
    publicKey plainText

/-- `private_decrypt` -/
def privateDecrypt (bioNew : Bool) (privateKey cipherText : Bytes) : Prog Result :=
  withKey ssl malloc bioNew ssl.pemReadPrivateKey "PEM_read_bio_PrivateKey failed"
    ssl.decrypt privateKey cipherText

/-! ## The key pair -/

open KeyFiles (SaveOutcome Keygen)

/-- `save_public_key` and `save_private_key`, the files apart. Whether
`BIO_new_file` gives a BIO is not asked, and the PEM write follows the pointer. -/
def saveKey (pkey : Nat) (o : SaveOutcome) : Prog Bool := do
  if !o.opens then stop .nullBio
  else
    let bio ← new .bio
    use bio
    use pkey
    if !o.writes then
      free bio
      pure false
    else
      free bio
      pure true

/-- `save_key_pair` -/
def saveKeyPair (pkey : Nat) (pub priv : SaveOutcome) : Prog Bool := do
  if !(← saveKey pkey pub) then pure false
  else if !(← saveKey pkey priv) then pure false
  else pure true

/-- `generate_key_pair` -/
def generateKeyPair (gen : Keygen Pair) (pub priv : SaveOutcome) : Prog Bool := do
  if !gen.ctxNew then pure false
  else
    let ctx ← new .ctx
    use ctx
    if !gen.keygenInit then
      free ctx
      pure false
    else if !gen.setBits then
      free ctx
      pure false
    else if gen.keygen.isNone then
      free ctx
      pure false
    else
      let pkey ← new .pkey
      if !(← saveKeyPair pkey pub priv) then
        -- the key and the context stay
        pure false
      else
        free pkey
        free ctx
        pure true

/-- `generate_key_pair_ex`: the two macros are tested with `or`, first for
their absence and then for their presence. -/
def generateKeyPairEx (openssl30 openssl3 : Bool) (rsaGen : Bool) (pub priv : SaveOutcome) :
    Prog Bool := do
  if !openssl30 || !openssl3 then pure false
  else if !rsaGen then pure false
  else
    let pkey ← new .pkey
    if !(← saveKeyPair pkey pub priv) then
      -- the key stays
      pure false
    else
      free pkey
      pure true

/-! ## What stays behind -/

/-- The objects that `cipherMessage` leaves: its context without memory for
the output, and the buffer when the call proper fails. -/
def cipherLeak (calls : CipherCalls Key) (key : Key) (input : Bytes) : List Object :=
  if ssl.ctxNew key && calls.init key && ssl.setRsaPadding key then
    match calls.length key input with
    | none => []
    | some outlen =>
        match malloc outlen with
        | none => [.ctx]
        | some _ => if (calls.bytes key input).isNone then [.buffer] else []
  else []

/-- What `withKey` leaves. -/
def withKeyLeak (bioNew : Bool) (readKey : Bytes → Option Key) (calls : CipherCalls Key)
    (pem input : Bytes) : List Object :=
  if !bioNew then []
  else if !ssl.bioWrite pem then [.bio]
  else
    match readKey pem with
    | none => []
    | some key => cipherLeak ssl malloc calls key input

/-- The string or the text is the one of the call without its objects. -/
def Agrees (r : Except Failure Bytes) (a : Result) : Prop :=
  r = a.mapError Failure.reported

/-- The calls, where a write without a BIO fails. -/
def withBio (bioNew : Bool) : Openssl Key :=
  { ssl with bioWrite := fun pem => bioNew && ssl.bioWrite pem }

section Owned

variable {ssl malloc} {calls : CipherCalls Key} {pkey : Nat} {key : Key} {input : Bytes}
  {own : List (Nat × Object)}

theorem owns_cipherMessage (hpkey : pkey ∈ own.map Prod.fst) :
    Owns own (cipherMessage ssl malloc calls pkey key input)
      (fun a own' => Agrees (Encryptor.cipherMessage ssl calls malloc key input) a
        ∧ Leaves own (cipherLeak ssl malloc calls key input) own')
      (fun _ => Encryptor.cipherMessage ssl calls malloc key input = .error .overrun) := by
  unfold cipherMessage Encryptor.cipherMessage cipherLeak
  refine .use_bind hpkey ?_
  cases ssl.ctxNew key with
  | false => exact .pure ⟨rfl, leaves_nil own⟩
  | true =>
  refine .new_bind fun ctx => .use_bind (mem_last own ctx .ctx) ?_
  cases calls.init key with
  | false => exact Owns.free_last (.pure ⟨rfl, leaves_nil own⟩)
  | true =>
  cases ssl.setRsaPadding key with
  | false => exact Owns.free_last (.pure ⟨rfl, leaves_nil own⟩)
  | true =>
  cases calls.length key input with
  | none => exact Owns.free_last (.pure ⟨rfl, leaves_nil own⟩)
  | some outlen =>
  cases hmalloc : malloc outlen with
  | none =>
      simp only [hmalloc]
      exact .pure ⟨rfl, leaves_one own ctx .ctx⟩
  | some memory =>
  simp only [hmalloc]
  refine .new_bind fun out => ?_
  rw [List.append_assoc]
  cases calls.bytes key input with
  | none => exact .free_bind (.pure ⟨rfl, leaves_one own out .buffer⟩)
  | some written =>
  refine .free_bind (.use_bind (mem_last own out .buffer) ?_)
  cases hread : CStr.read (CStr.store memory written) with
  | none =>
      simp only [hread]
      exact .stop rfl
  | some text =>
      simp only [hread]
      exact Owns.free_last (.pure ⟨rfl, leaves_nil own⟩)

variable {bioNew : Bool} {pem : Bytes}

/-- The objects of a call on a key in PEM form. -/
theorem owns_withKey {readKey : Bytes → Option Key} {failed : String}
    {r : Except Failure Bytes}
    (hr : r = if !(withBio ssl bioNew).bioWrite pem then .error (.reported "BIO_write failed")
      else match readKey pem with
        | none => .error (.reported failed)
        | some key => Encryptor.cipherMessage ssl calls malloc key input) :
    Owns own (withKey ssl malloc bioNew readKey failed calls pem input)
      (fun a own' => Agrees r a
        ∧ Leaves own (withKeyLeak ssl malloc bioNew readKey calls pem input) own')
      (fun _ => r = .error .overrun) := by
  subst hr
  unfold withKey withBio withKeyLeak
  cases bioNew with
  | false => exact .pure ⟨rfl, leaves_nil own⟩
  | true =>
  refine .new_bind fun bio => .use_bind (mem_last own bio .bio) ?_
  simp only [Bool.true_and]
  cases ssl.bioWrite pem with
  | false => exact .pure ⟨rfl, leaves_one own bio .bio⟩
  | true =>
  cases hread : readKey pem with
  | none => exact Owns.free_last (.pure ⟨rfl, leaves_nil own⟩)
  | some key =>
  simp only
  refine .new_bind fun pkey => ?_
  rw [List.append_assoc]
  refine .free_bind (.bind (owns_cipherMessage (mem_last own pkey .pkey)) ?_)
  rintro a own' ⟨hagrees, more, rfl, hmore⟩
  rw [List.append_assoc]
  exact .free_bind (.pure ⟨hagrees, more, rfl, hmore⟩)

theorem owns_saveKey (hpkey : pkey ∈ own.map Prod.fst) (o : SaveOutcome) :
    Owns own (saveKey pkey o) (fun a own' => (o.opens = true ∧ a = o.writes) ∧ own' = own)
      (fun _ => o.opens = false) := by
  unfold saveKey
  cases o.opens with
  | false => exact .stop rfl
  | true =>
      have hin : ∀ bio, pkey ∈ (own ++ [(bio, Object.bio)]).map Prod.fst := by
        intro bio
        rw [List.map_append]
        exact List.mem_append_left _ hpkey
      refine .new_bind fun bio => .use_bind (mem_last own bio .bio) (.use_bind (hin bio) ?_)
      cases o.writes with
      | false => exact Owns.free_last (.pure ⟨⟨rfl, rfl⟩, rfl⟩)
      | true => exact Owns.free_last (.pure ⟨⟨rfl, rfl⟩, rfl⟩)

/-- Both files are written. -/
def bothSaved (pub priv : SaveOutcome) : Bool :=
  (pub.opens && pub.writes) && (priv.opens && priv.writes)

/-- A file that is to be written cannot be opened. -/
def NullBio (pub priv : SaveOutcome) : Prop :=
  pub.opens = false ∨ (pub.writes = true ∧ priv.opens = false)

theorem owns_saveKeyPair (hpkey : pkey ∈ own.map Prod.fst) (pub priv : SaveOutcome) :
    Owns own (saveKeyPair pkey pub priv)
      (fun a own' => a = bothSaved pub priv ∧ own' = own) (fun _ => NullBio pub priv) := by
  unfold saveKeyPair bothSaved
  refine .bind ((owns_saveKey hpkey pub).mono (fun _ _ => id) fun _ => .inl) ?_
  rintro a _ ⟨⟨hopens, rfl⟩, rfl⟩
  rw [hopens, Bool.true_and]
  cases hwrites : pub.writes with
  | false => exact .pure ⟨rfl, rfl⟩
  | true =>
      refine .bind ((owns_saveKey hpkey priv).mono (fun _ _ => id) ?_) ?_
      · intro _ hnone
        exact .inr ⟨hwrites, hnone⟩
      · rintro a _ ⟨⟨hopens', rfl⟩, rfl⟩
        rw [hopens', Bool.true_and]
        cases priv.writes with
        | false => exact .pure ⟨rfl, rfl⟩
        | true => exact .pure ⟨rfl, rfl⟩

/-- What `generateKeyPair` leaves: context and key when a save fails. -/
def keygenLeak (gen : Keygen Pair) (pub priv : SaveOutcome) : List Object :=
  if gen.ctxNew && gen.keygenInit && gen.setBits && gen.keygen.isSome
      && !bothSaved pub priv then [.ctx, .pkey]
  else []

/-- The call makes a key pair. -/
def Generates (gen : Keygen Pair) : Prop :=
  gen.ctxNew = true ∧ gen.keygenInit = true ∧ gen.setBits = true ∧ gen.keygen.isSome

theorem owns_generateKeyPair (gen : Keygen Pair) (pub priv : SaveOutcome)
    (disk : KeyFiles.Disk Pair) :
    Owns own (generateKeyPair gen pub priv)
      (fun a own' => a = (KeyFiles.generateKeyPair gen pub priv disk).ok
        ∧ Leaves own (keygenLeak gen pub priv) own')
      (fun _ => Generates gen ∧ NullBio pub priv) := by
  unfold generateKeyPair KeyFiles.generateKeyPair keygenLeak Generates
  cases gen.ctxNew with
  | false => exact .pure ⟨rfl, leaves_nil own⟩
  | true =>
  refine .new_bind fun ctx => .use_bind (mem_last own ctx .ctx) ?_
  cases gen.keygenInit with
  | false => exact Owns.free_last (.pure ⟨rfl, leaves_nil own⟩)
  | true =>
  cases gen.setBits with
  | false => exact Owns.free_last (.pure ⟨rfl, leaves_nil own⟩)
  | true =>
  cases gen.keygen with
  | none => exact Owns.free_last (.pure ⟨rfl, leaves_nil own⟩)
  | some pair =>
  refine .new_bind fun pkey => .bind ((owns_saveKeyPair (mem_last _ pkey .pkey) pub priv).mono
    (fun _ _ => id) fun _ hnone => ⟨⟨rfl, rfl, rfl, rfl⟩, hnone⟩) ?_
  rintro a _ ⟨rfl, rfl⟩
  have hok : (KeyFiles.saveKeyPair pair pub priv disk).ok = bothSaved pub priv := by
    obtain ⟨pubOpens, pubWrites⟩ := pub
    obtain ⟨privOpens, privWrites⟩ := priv
    cases pubOpens <;> cases pubWrites <;> cases privOpens <;> cases privWrites <;> rfl
  simp only [Bool.not_true, Bool.false_eq_true, if_false, hok]
  cases bothSaved pub priv with
  | false => exact .pure ⟨rfl, leaves_two own ctx pkey .ctx .pkey⟩
  | true => exact Owns.free_last (Owns.free_last (.pure ⟨rfl, leaves_nil own⟩))

/-- What `generateKeyPairEx` leaves: the key when a save fails. -/
def keygenExLeak (openssl30 openssl3 rsaGen : Bool) (pub priv : SaveOutcome) : List Object :=
  if openssl30 && openssl3 && rsaGen && !bothSaved pub priv then [.pkey] else []

theorem owns_generateKeyPairEx (openssl30 openssl3 rsaGen : Bool) (pub priv : SaveOutcome) :
    Owns own (generateKeyPairEx openssl30 openssl3 rsaGen pub priv)
      (fun a own' => a = (openssl30 && openssl3 && rsaGen && bothSaved pub priv)
        ∧ Leaves own (keygenExLeak openssl30 openssl3 rsaGen pub priv) own')
      (fun _ => (openssl30 && openssl3 && rsaGen) = true ∧ NullBio pub priv) := by
  unfold generateKeyPairEx keygenExLeak
  cases openssl30 with
  | false => exact .pure ⟨rfl, leaves_nil own⟩
  | true =>
  cases openssl3 with
  | false => exact .pure ⟨rfl, leaves_nil own⟩
  | true =>
  cases rsaGen with
  | false => exact .pure ⟨rfl, leaves_nil own⟩
  | true =>
  refine .new_bind fun pkey => .bind ((owns_saveKeyPair (mem_last own pkey .pkey) pub priv).mono
    (fun _ _ => id) fun _ hnone => ⟨rfl, hnone⟩) ?_
  rintro a _ ⟨rfl, rfl⟩
  cases bothSaved pub priv with
  | false => exact .pure ⟨rfl, leaves_one own pkey .pkey⟩
  | true => exact Owns.free_last (.pure ⟨rfl, leaves_nil own⟩)

end Owned

/-! ## Runs of calls -/

/-- One call, with the answers of everything it asks of OpenSSL. -/
inductive Call (Key Pair : Type) where
  | publicEncrypt (ssl : Openssl Key) (malloc : Malloc) (bioNew : Bool)
      (publicKey plainText : Bytes)
  | privateDecrypt (ssl : Openssl Key) (malloc : Malloc) (bioNew : Bool)
      (privateKey cipherText : Bytes)
  | generateKeyPair (gen : Keygen Pair) (pub priv : SaveOutcome)
  | generateKeyPairEx (openssl30 openssl3 rsaGen : Bool) (pub priv : SaveOutcome)

/-- The program of a call, its result dropped. -/
def Call.exec : Call Key Pair → Prog Unit
  | .publicEncrypt ssl malloc bioNew pem text => do
      let _ ← Resources.publicEncrypt ssl malloc bioNew pem text
  | .privateDecrypt ssl malloc bioNew pem text => do
      let _ ← Resources.privateDecrypt ssl malloc bioNew pem text
  | .generateKeyPair gen pub priv => do
      let _ ← Resources.generateKeyPair gen pub priv
  | .generateKeyPairEx openssl30 openssl3 rsaGen pub priv => do
      let _ ← Resources.generateKeyPairEx openssl30 openssl3 rsaGen pub priv

/-- The objects that a call which returns leaves behind. -/
def Call.leak : Call Key Pair → List Object
  | .publicEncrypt ssl malloc bioNew pem text =>
      withKeyLeak ssl malloc bioNew ssl.pemReadPubkey ssl.encrypt pem text
  | .privateDecrypt ssl malloc bioNew pem text =>
      withKeyLeak ssl malloc bioNew ssl.pemReadPrivateKey ssl.decrypt pem text
  | .generateKeyPair gen pub priv => keygenLeak gen pub priv
  | .generateKeyPairEx openssl30 openssl3 rsaGen pub priv =>
      keygenExLeak openssl30 openssl3 rsaGen pub priv

/-- The call ends the program: it reads past the end of its output, or writes a
key to a file that cannot be opened. -/
def Call.Ends : Call Key Pair → Prop
  | .publicEncrypt ssl malloc bioNew pem text =>
      Encryptor.publicEncrypt (withBio ssl bioNew) malloc pem text = .error .overrun
  | .privateDecrypt ssl malloc bioNew pem text =>
      Encryptor.privateDecrypt (withBio ssl bioNew) malloc pem text = .error .overrun
  | .generateKeyPair gen pub priv => Generates gen ∧ NullBio pub priv
  | .generateKeyPairEx openssl30 openssl3 rsaGen pub priv =>
      (openssl30 && openssl3 && rsaGen) = true ∧ NullBio pub priv

theorem Call.owns (call : Call Key Pair) (own : List (Nat × Object)) :
    Owns own call.exec (fun _ own' => Leaves own call.leak own') (fun _ => call.Ends) := by
  cases call with
  | publicEncrypt => exact Owns.discard (owns_withKey rfl)
  | privateDecrypt => exact Owns.discard (owns_withKey rfl)
  | generateKeyPair gen pub priv =>
      exact Owns.discard (owns_generateKeyPair gen pub priv fun _ => none)
  | generateKeyPairEx openssl30 openssl3 rsaGen pub priv =>
      exact Owns.discard (owns_generateKeyPairEx openssl30 openssl3 rsaGen pub priv)

end Neroshop.Encryptor.Resources
