import Neroshop.Encryptor.Cipher

/-!
# Encryptor — the round trip

`private_decrypt(sk, public_encrypt(pk, m))`, for one RSA key pair, one
plaintext and whatever ciphertext and surrounding memory the run meets. Both
directions hand a (pointer, length) buffer over as a C string, so the round
trip hinges on where the zero bytes are: in the two objects and right after
them.

* `RsaRun` and `Allocates`: the library calls succeed, and the buffers are long
  enough.
* `Terminated`: an object that a bare pointer to it reads back.
* `roundTrip_eq_plaintext_iff`: the plaintext comes back exactly when ciphertext
  and plaintext are both terminated where they lie, or when it is empty and a
  damaged ciphertext decrypts to the empty string.
-/

namespace Neroshop.Encryptor

open Lib Lib.CStr

variable {Key : Type}

/-- OpenSSL at work on one key pair and one plaintext: `pk` and `sk` are the
PEM texts of the halves `pub` and `priv`, RSA-OAEP encrypts `m` to the bytes
`c`, and the private half decrypts exactly those bytes back to `m` and
refuses every string of another length. -/
structure RsaRun (ssl : Openssl Key) (pub priv : Key) (pk sk m c : Bytes)
    (plainMax : Nat) : Prop where
  writePk : ssl.bioWrite pk = true
  readPk : ssl.pemReadPubkey pk = some pub
  readyPub : Ready ssl ssl.encrypt pub
  encryptLength : ssl.encrypt.length pub m = some c.length
  encrypts : ssl.encrypt.bytes pub m = some c
  writeSk : ssl.bioWrite sk = true
  readSk : ssl.pemReadPrivateKey sk = some priv
  readyPriv : Ready ssl ssl.decrypt priv
  decryptLength : ssl.decrypt.length priv c = some plainMax
  decrypts : ssl.decrypt.bytes priv c = some m
  refuses : ∀ x, x.length ≠ c.length → ssl.decrypt.bytes priv x = none

/-- The two allocations of the round trip. A ciphertext fills its buffer;
a plaintext may be shorter than the `plainMax` bytes allocated for it. -/
structure Allocates (encMalloc decMalloc : Malloc) (m c : Bytes)
    (plainMax : Nat) (encOut decOut : Bytes) : Prop where
  enc : encMalloc c.length = some encOut
  encRoom : c.length ≤ encOut.length
  dec : decMalloc plainMax = some decOut
  decRoom : m.length ≤ plainMax ∧ plainMax ≤ decOut.length

/-- What `private_decrypt` makes of what `public_encrypt` returns. -/
def roundTrip (ssl : Openssl Key) (encMalloc decMalloc : Malloc)
    (pk sk m : Bytes) : Option Bytes :=
  (returned (publicEncrypt ssl encMalloc pk m)).bind fun cipherText =>
    returned (privateDecrypt ssl decMalloc sk cipherText)

/-- `obj`, written to the memory `out`, is what a bare pointer to it reads
back: no zero byte inside, and a zero byte right after. -/
def Terminated (obj out : Bytes) : Prop :=
  0 ∉ obj ∧ (out.drop obj.length).head? = some 0

instance (obj out : Bytes) : Decidable (Terminated obj out) :=
  inferInstanceAs (Decidable (_ ∧ _))

variable {ssl : Openssl Key} {pub priv : Key} {pk sk m c : Bytes}
  {plainMax : Nat} {encMalloc decMalloc : Malloc} {encOut decOut : Bytes}

theorem RsaRun.publicEncrypt (h : RsaRun ssl pub priv pk sk m c plainMax)
    (ha : Allocates encMalloc decMalloc m c plainMax encOut decOut) :
    returned (publicEncrypt ssl encMalloc pk m)
      = CStr.read (c ++ encOut.drop c.length) := by
  simp only [Encryptor.publicEncrypt, h.writePk, h.readPk, encryptMessage]
  exact returned_cipherMessage h.readyPub h.encryptLength ha.enc h.encrypts

theorem RsaRun.privateDecrypt (h : RsaRun ssl pub priv pk sk m c plainMax)
    (ha : Allocates encMalloc decMalloc m c plainMax encOut decOut) :
    returned (privateDecrypt ssl decMalloc sk c)
      = CStr.read (m ++ decOut.drop m.length) := by
  simp only [Encryptor.privateDecrypt, h.writeSk, h.readSk, decryptMessage]
  exact returned_cipherMessage h.readyPriv h.decryptLength ha.dec h.decrypts

/-- A ciphertext that lost or gained bytes decrypts to the empty string. -/
theorem RsaRun.privateDecrypt_refused
    (h : RsaRun ssl pub priv pk sk m c plainMax) {x : Bytes}
    (hx : x.length ≠ c.length) :
    returned (Encryptor.privateDecrypt ssl decMalloc sk x) = some [] := by
  simp only [Encryptor.privateDecrypt, h.writeSk, h.readSk, decryptMessage]
  exact returned_cipherMessage_refused (h.refuses x hx)

/-- The round trip when the ciphertext comes through: it now depends on the
plaintext and the memory after it. -/
theorem RsaRun.roundTrip_intact (h : RsaRun ssl pub priv pk sk m c plainMax)
    (ha : Allocates encMalloc decMalloc m c plainMax encOut decOut)
    (hc : Terminated c encOut) :
    roundTrip ssl encMalloc decMalloc pk sk m
      = CStr.read (m ++ decOut.drop m.length) := by
  rw [roundTrip, h.publicEncrypt ha, read_eq_obj_iff.mpr hc]
  exact h.privateDecrypt ha

/-- The round trip when the ciphertext does not come through: the empty
string, or no string at all where no zero byte ends the ciphertext. -/
theorem RsaRun.roundTrip_damaged (h : RsaRun ssl pub priv pk sk m c plainMax)
    (ha : Allocates encMalloc decMalloc m c plainMax encOut decOut)
    (hc : ¬ Terminated c encOut) :
    roundTrip ssl encMalloc decMalloc pk sk m
      = if 0 ∈ c ++ encOut.drop c.length then some [] else none := by
  rw [roundTrip, h.publicEncrypt ha]
  cases hread : CStr.read (c ++ encOut.drop c.length) with
  | none =>
      have hno : 0 ∉ c ++ encOut.drop c.length := by
        rw [← read_isSome_iff, hread]
        simp
      rw [if_neg hno]
      rfl
  | some x =>
      have hmem : 0 ∈ c ++ encOut.drop c.length := by
        rw [← read_isSome_iff, hread]
        rfl
      have hlen : x.length ≠ c.length := by
        intro hlen
        rw [read_length_eq hread hlen] at hread
        exact hc (read_eq_obj_iff.mp hread)
      rw [if_pos hmem]
      exact h.privateDecrypt_refused hlen

/-! ## A concrete key pair

One key, a 256 byte ciphertext as RSA-2048 makes them, and calls that all
succeed. `sample c m` encrypts `m` to `c`. -/

/-- OpenSSL on one key, for the ciphertext `c` of `m`. -/
def sample (c m : Bytes) : Openssl Unit where
  bioWrite pem := pem ≠ []
  pemReadPubkey _ := some ()
  pemReadPrivateKey _ := some ()
  ctxNew _ := true
  setRsaPadding _ := true
  encrypt :=
    { init := fun _ => true
      length := fun _ _ => some c.length
      bytes := fun _ _ => some c }
  decrypt :=
    { init := fun _ => true
      length := fun _ _ => some 256
      bytes := fun _ x => if x.length = c.length then some m else none }
  errorString := "error:0407109F:rsa routines"

theorem sample_rsaRun (pk sk c m : Bytes) (hpk : pk ≠ []) (hsk : sk ≠ []) :
    RsaRun (sample c m) () () pk sk m c 256 where
  writePk := by simpa [sample] using hpk
  readPk := rfl
  readyPub := ⟨rfl, rfl, rfl⟩
  encryptLength := rfl
  encrypts := rfl
  writeSk := by simpa [sample] using hsk
  readSk := rfl
  readyPriv := ⟨rfl, rfl, rfl⟩
  decryptLength := rfl
  decrypts := by simp [sample]
  refuses := fun x hx => by simp [sample, hx]

/-- A `malloc` that answers with zeros, and more of them than it was asked for. -/
def zeroed : Malloc := fun outlen => some (List.replicate (outlen + 16) 0)

theorem zeroed_allocates (m c : Bytes) (hm : m.length ≤ 256) :
    Allocates zeroed zeroed m c 256 (List.replicate (c.length + 16) 0)
      (List.replicate 272 0) where
  enc := rfl
  encRoom := by simp
  dec := rfl
  decRoom := ⟨hm, by rw [List.length_replicate]; decide⟩

theorem terminated_replicate (n : Nat) {b : Byte} (hb : b ≠ 0) :
    Terminated (List.replicate n b)
      (List.replicate ((List.replicate n b).length + 16) 0) := by
  constructor
  · intro h
    exact hb (List.eq_of_mem_replicate h).symm
  · rw [List.length_replicate, List.drop_replicate, Nat.add_sub_cancel_left]
    rfl

/-! ## When the plaintext comes back -/

/-- **When the round trip returns the plaintext**: exactly when ciphertext
and plaintext both come through their C strings, or when the plaintext is
empty and a damaged ciphertext happens to decrypt to the empty string. -/
theorem roundTrip_eq_plaintext_iff
    (h : RsaRun ssl pub priv pk sk m c plainMax)
    (ha : Allocates encMalloc decMalloc m c plainMax encOut decOut) :
    roundTrip ssl encMalloc decMalloc pk sk m = some m
      ↔ (Terminated c encOut ∧ Terminated m decOut)
        ∨ (m = [] ∧ ¬ Terminated c encOut
            ∧ 0 ∈ c ++ encOut.drop c.length) := by
  by_cases hc : Terminated c encOut
  · rw [h.roundTrip_intact ha hc, read_eq_obj_iff]
    constructor
    · intro hm
      exact .inl ⟨hc, hm⟩
    · intro h
      rcases h with ⟨-, hm⟩ | ⟨-, hno, -⟩
      · exact hm
      · exact absurd hc hno
  · rw [h.roundTrip_damaged ha hc]
    split
    · rename_i hz
      simp [hc, hz, eq_comm]
    · rename_i hz
      simp [hc, hz]

theorem roundTrip_sample :
    roundTrip (sample (List.replicate 256 90) (ascii "Turtles are cool"))
      zeroed zeroed (ascii "PUBLIC") (ascii "PRIVATE")
      (ascii "Turtles are cool") = some (ascii "Turtles are cool") := by
  have hrun := sample_rsaRun (ascii "PUBLIC") (ascii "PRIVATE")
    (List.replicate 256 90) (ascii "Turtles are cool") (by decide) (by decide)
  have hmem := zeroed_allocates (ascii "Turtles are cool")
    (List.replicate 256 90) (by decide)
  have hc : Terminated (List.replicate 256 90)
      (List.replicate ((List.replicate 256 (90 : Byte)).length + 16) 0) :=
    terminated_replicate 256 (by decide)
  exact (roundTrip_eq_plaintext_iff hrun hmem).mpr (.inl ⟨hc, by decide⟩)

/-- A ciphertext that starts with a zero byte is stored as the empty string,
and decrypting the empty string gives the empty string. -/
theorem roundTrip_loses_plaintext :
    ¬ ∀ (ssl : Openssl Unit) (pub priv : Unit) (pk sk m c : Bytes)
        (plainMax : Nat) (encMalloc decMalloc : Malloc) (encOut decOut : Bytes),
      RsaRun ssl pub priv pk sk m c plainMax →
      Allocates encMalloc decMalloc m c plainMax encOut decOut →
      roundTrip ssl encMalloc decMalloc pk sk m = some m := by
  intro hall
  have hrun := sample_rsaRun (ascii "PUBLIC") (ascii "PRIVATE")
    (0 :: List.replicate 255 90) (ascii "Turtles are cool") (by decide) (by decide)
  have hmem := zeroed_allocates (ascii "Turtles are cool")
    (0 :: List.replicate 255 90) (by decide)
  have hbad := hall _ _ _ _ _ _ _ _ _ _ _ _ hrun hmem
  rw [hrun.roundTrip_damaged hmem (fun hc => hc.1 List.mem_cons_self),
    if_pos (List.mem_append_left _ List.mem_cons_self)] at hbad
  exact absurd hbad (by decide)

end Neroshop.Encryptor
