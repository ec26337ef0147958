import Neroshop.Lib.OStream
import Neroshop.Validator.Register

/-!
# Validator — the digest of the password

What `register_user` hands to libbcrypt: the hexadecimal digest of the
password, as a C string.

* `HandedOver`: libbcrypt is asked for the hash of a text, and of no other.
* `prehash_loses_nothing`: the text is the whole digest of the whole password, zero
  bytes and the bytes behind them included.
-/

namespace Neroshop.Validator

open Lib Lib.CStr Lib.EState Lib.Hex

/-! ## The text of a digest -/

/-- `ss << std::hex << std::setw(2) << std::setfill('0') << (int)sha256_hash[i]` -/
def writeByte (ss : OStream) (b : Byte) : OStream :=
  (((ss.setHex).setw 2).setfill 48).putInt b.toNat

/-- What the loop of `generate_sha256_hash` leaves in the stream. -/
def digestText (digest : Bytes) : Bytes := (digest.foldl writeByte .empty).text

theorem foldl_writeByte (digest : Bytes) (ss : OStream) :
    (digest.foldl writeByte ss).text = ss.text ++ hex digest := by
  induction digest generalizing ss with
  | nil => exact (List.append_nil _).symm
  | cons b digest ih =>
      rw [List.foldl_cons, ih, writeByte, OStream.putInt_hexByte, hex_cons,
        List.append_assoc]

theorem digestText_eq_hex (digest : Bytes) : digestText digest = hex digest :=
  foldl_writeByte digest .empty

/-- The text holds all of the digest. -/
structure Writes (text digest : Bytes) : Prop where
  length_eq : text.length = 2 * digest.length
  digits : ∀ b ∈ text, HexDigit b
  decoded : unhex text = digest

theorem digestText_writes (digest : Bytes) : Writes (digestText digest) digest := by
  rw [digestText_eq_hex]
  exact ⟨length_hex digest, fun _ => hexDigit_of_mem_hex, unhex_hex digest⟩

/-! ## What libbcrypt gets -/

/-- libbcrypt, for one password only. -/
def Crypto.only (c : Crypto) (password : Bytes) : Crypto :=
  { c with hashpw := fun p salt => if p = password then c.hashpw p salt else none }

/-- The C string of the pre-hashed password. -/
def bcryptInput (c : Crypto) (password : Bytes) : Bytes :=
  untilZero (digestText (c.sha256 password))

/-- A registration gets as far as libbcrypt: the checks pass, and the salt and
the digest of the password are there. -/
structure Reaches (lower : Bytes → Bytes) (c : Crypto) (digests : Digests)
    (username password confirmPw optEmail salt : Bytes) : Prop where
  username_valid : ∃ v, validateUsername lower username = some v ∧ v.accepted = true
  password_valid : (validatePassword password).accepted = true
  confirmed : password = confirmPw
  email_valid : optEmail ≠ [] → AcceptedEmail c digests optEmail
  salt_eq : c.gensalt 12 = some salt
  digest : digests.password = .succeeds

/-- What a registration does with libbcrypt's answer: without a hash it saves
nobody, and with one it saves an account with this hash, once there is a digest
of the email too. -/
structure Follows (c : Crypto) (text salt : Bytes) (digests : Digests) (s : Registry)
    (x : RegisterM Bool) : Prop where
  refused : c.hashpw text salt = none → Returns x s fun ok s' => ok = false
    ∧ s'.saves = s.saves
  hashed : ∀ pwHash, c.hashpw text salt = some pwHash → digests.email = .succeeds →
    Returns x s fun ok s' => ok = true
      ∧ ∃ u : User, s'.saves = s.saves ++ [u] ∧ u.pwHash = pwHash

/-- `text` is the string that a registration with this password asks libbcrypt
about: every registration that gets so far goes by the answer for it, and each
goes the same way when no other string has an answer. -/
structure HandedOver (lower : Bytes → Bytes) (c : Crypto) (password text : Bytes) :
    Prop where
  asked : ∀ digests username confirmPw optEmail salt s,
    Reaches lower c digests username password confirmPw optEmail salt →
    Follows c text salt digests s
      (registerUser lower c digests username password confirmPw optEmail)
  only : ∀ digests username confirmPw optEmail,
    registerUser lower (c.only text) digests username password confirmPw optEmail =
      registerUser lower c digests username password confirmPw optEmail

/-- bcrypt takes the whole of the string. -/
structure Whole (text : Bytes) : Prop where
  zero_notMem : 0 ∉ text
  length_le : text.length ≤ 72

theorem bcryptInput_eq_hex (c : Crypto) (password : Bytes) :
    bcryptInput c password = hex (c.sha256 password) := by
  rw [bcryptInput, digestText_eq_hex, untilZero_eq_iff.mpr (zero_notMem_hex _)]

theorem generateSha256Hash_digestText (c : Crypto) (text : Bytes) :
    generateSha256Hash c .succeeds text = pure (some (digestText (c.sha256 text))) := by
  rw [digestText_eq_hex]
  rfl

theorem Crypto.only_sha256 (c : Crypto) (text : Bytes) :
    (c.only text).sha256 = c.sha256 := rfl

theorem generateBcryptSalt_only (c : Crypto) (text : Bytes) (workfactor : Nat) :
    generateBcryptSalt (c.only text) workfactor = generateBcryptSalt c workfactor := rfl

theorem generateBcryptHash_only (c : Crypto) (password salt : Bytes) :
    generateBcryptHash (c.only (bcryptInput c password)) (hex (c.sha256 password)) salt =
      generateBcryptHash c (hex (c.sha256 password)) salt := by
  rw [generateBcryptHash_hex, generateBcryptHash_hex, ← bcryptInput_eq_hex]
  exact if_pos rfl

theorem hashAndSave_only (c : Crypto) (digests : Digests)
    (username password optEmail : Bytes) :
    hashAndSave (c.only (bcryptInput c password)) digests username password optEmail =
      hashAndSave c digests username password optEmail := by
  unfold hashAndSave
  cases digests.password with
  | succeeds =>
      simp only [generateSha256Hash, pure_bind, Crypto.only_sha256, generateBcryptSalt_only,
        generateBcryptHash_only]
  | noContext => rfl
  | fails error => rfl

section Asked

variable {lower : Bytes → Bytes} {c : Crypto} {digests : Digests}
  {username password confirmPw optEmail salt : Bytes} {s s₀ : Registry}

theorem hashAndSave_follows (hsalt : c.gensalt 12 = some salt)
    (hdigest : digests.password = .succeeds) (hs : s.saves = s₀.saves) :
    (c.hashpw (bcryptInput c password) salt = none →
        Returns (hashAndSave c digests username password optEmail) s fun ok s' =>
          ok = false ∧ s'.saves = s₀.saves)
      ∧ ∀ pwHash, c.hashpw (bcryptInput c password) salt = some pwHash →
        digests.email = .succeeds →
        Returns (hashAndSave c digests username password optEmail) s fun ok s' =>
          ok = true ∧ ∃ u : User, s'.saves = s₀.saves ++ [u] ∧ u.pwHash = pwHash := by
  unfold hashAndSave
  rw [show generateBcryptSalt c 12 = some salt from hsalt, bcryptInput_eq_hex]
  constructor
  · intro hhash
    apply digest_returns
    · intro _ s₁ hs₁
      rw [generateBcryptHash_hex, hhash]
      exact Returns.pure ⟨rfl, hs₁.trans hs⟩
    · intro hno
      exact absurd hdigest hno
  · intro pwHash hhash hemail
    apply digest_returns
    · intro _ s₁ hs₁
      rw [generateBcryptHash_hex, hhash]
      apply digest_returns
      · intro _ s₂ hs₂
        apply (saveUser_returns _ _ _).bind
        intro _ s₃ hs₃
        apply (out_returns _).bind
        intro _ s₄ hs₄
        exact Returns.pure ⟨rfl, _, by rw [hs₄, hs₃, hs₂, hs₁, hs], rfl⟩
      · intro hno
        exact absurd hemail hno
    · intro hno
      exact absurd hdigest hno

theorem checkEmail_accepts (h : optEmail ≠ [] → AcceptedEmail c digests optEmail) :
    Returns (checkEmail c digests optEmail) s fun ok s' => s'.saves = s.saves ∧ ok = true := by
  unfold checkEmail
  split
  · exact Returns.pure ⟨rfl, rfl⟩
  · next hempty =>
      have haccepted := (acceptedEmail_iff c digests optEmail).mp
        (h (mt List.isEmpty_iff.mpr hempty))
      refine (validateEmail_returns c digests optEmail).mono ?_
      intro ok s' hok
      exact ⟨hok.1, hok.2.mpr haccepted⟩

/-- A registration that gets so far comes to its hashes with nobody saved. -/
theorem Reaches.returns {Q : Bool → Registry → Prop}
    (h : Reaches lower c digests username password confirmPw optEmail salt)
    (hrest : ∀ s', s'.saves = s.saves →
      Returns (hashAndSave c digests username password optEmail) s' Q) :
    Returns (registerUser lower c digests username password confirmPw optEmail) s Q := by
  obtain ⟨v, hv, haccepted⟩ := h.username_valid
  unfold registerUser
  refine (checkUsername_returns lower username).bind ?_
  rintro ok s₁ ⟨hs₁, v', hv', rfl⟩
  cases hv.symm.trans hv'
  rw [haccepted]
  refine (report_returns _).bind ?_
  rintro ok s₂ ⟨rfl, hs₂⟩
  rw [h.password_valid, if_neg (not_not.mpr h.confirmed)]
  refine (checkEmail_accepts h.email_valid).bind ?_
  rintro ok s₃ ⟨hs₃, rfl⟩
  exact hrest s₃ (hs₃.trans (hs₂.trans hs₁))

theorem Reaches.follows (h : Reaches lower c digests username password confirmPw optEmail salt) :
    Follows c (bcryptInput c password) salt digests s
      (registerUser lower c digests username password confirmPw optEmail) := by
  constructor
  · intro hhash
    apply h.returns
    intro s' hs'
    exact (hashAndSave_follows h.salt_eq h.digest hs').1 hhash
  · intro pwHash hhash hemail
    apply h.returns
    intro s' hs'
    exact (hashAndSave_follows h.salt_eq h.digest hs').2 pwHash hhash hemail

end Asked

theorem handedOver_bcryptInput (lower : Bytes → Bytes) (c : Crypto) (password : Bytes) :
    HandedOver lower c password (bcryptInput c password) := by
  constructor
  · intro digests username confirmPw optEmail salt s h
    exact h.follows
  · intro digests username confirmPw optEmail
    unfold registerUser
    simp only [hashAndSave_only]
    rfl

theorem whole_bcryptInput {c : Crypto} {password : Bytes}
    (hlen : (c.sha256 password).length = 32) : Whole (bcryptInput c password) := by
  rw [bcryptInput_eq_hex]
  refine ⟨zero_notMem_hex _, ?_⟩
  rw [length_hex, hlen]
  decide

/-- **The pre-hash loses nothing**: a digest of any length can be read back
from its text, and passwords with different digests reach libbcrypt as
different strings, each of which it takes the whole of. -/
theorem prehash_loses_nothing (lower : Bytes → Bytes) (c : Crypto)
    (hlen : ∀ text, (c.sha256 text).length = 32) :
    (∀ text, generateSha256Hash c .succeeds text = pure (some (digestText (c.sha256 text))))
      ∧ (∀ digest, Writes (digestText digest) digest)
      ∧ (∀ password, HandedOver lower c password (bcryptInput c password))
      ∧ ∀ p q, c.sha256 p ≠ c.sha256 q →
          bcryptInput c p ≠ bcryptInput c q ∧ Whole (bcryptInput c p)
            ∧ Whole (bcryptInput c q) := by
  refine ⟨generateSha256Hash_digestText c, digestText_writes,
    handedOver_bcryptInput lower c, ?_⟩
  intro p q hdigests
  refine ⟨?_, whole_bcryptInput (hlen p), whole_bcryptInput (hlen q)⟩
  rw [bcryptInput_eq_hex, bcryptInput_eq_hex]
  exact hex_injective.ne hdigests

/-- The salt of the registration. -/
def zeroByteSalt : Bytes := ascii "$2a$12$abcdefghijklmnopqrstuu"

/-- SHA-256 and bcrypt, for a password and the same with a zero byte behind it. -/
def zeroByteCrypto : Crypto where
  sha256 text :=
    if text = ascii "Neroshop1!" then
      unhex (ascii "4030200709ed7329ae7b406b3fafd00f30435941516ea1050c93083f7f97483d")
    else if text = ascii "Neroshop1!\x00" then
      unhex (ascii "61a6b410501a9f568f30f44b99dfc094f90ec5de9ed5962688305e0e6a6751a3")
    else List.replicate 32 0
  gensalt _ := some zeroByteSalt
  hashpw password salt :=
    if salt = zeroByteSalt then
      if password = ascii "4030200709ed7329ae7b406b3fafd00f30435941516ea1050c93083f7f97483d" then
        some (salt ++ ascii "E7DNcorr2/FbXIyhaeM1rmYxdqhNTam")
      else if password =
          ascii "61a6b410501a9f568f30f44b99dfc094f90ec5de9ed5962688305e0e6a6751a3" then
        some (salt ++ ascii "EJr.OFJAzivU0Nu59MH0i7r080oE0Ii")
      else none
    else none

theorem zeroByteCrypto_length (text : Bytes) : (zeroByteCrypto.sha256 text).length = 32 := by
  unfold zeroByteCrypto
  dsimp only
  split
  · decide
  · split
    · decide
    · exact List.length_replicate

theorem reaches_zeroByte :
    Reaches id zeroByteCrypto ⟨.succeeds, .succeeds, .succeeds⟩ (ascii "alice")
      (ascii "Neroshop1!\x00") (ascii "Neroshop1!\x00") [] zeroByteSalt where
  username_valid := ⟨_, rfl, by decide⟩
  password_valid := by decide
  confirmed := rfl
  email_valid := nofun
  salt_eq := rfl
  digest := rfl

/-- Alice's password ends in a zero byte, and her hash is not that of the
password without it. -/
theorem prehash_loses_no_zero_byte :
    let p := ascii "Neroshop1!"
    let q := ascii "Neroshop1!\x00"
    (bcryptInput zeroByteCrypto p ≠ bcryptInput zeroByteCrypto q
        ∧ Whole (bcryptInput zeroByteCrypto p) ∧ Whole (bcryptInput zeroByteCrypto q))
      ∧ unhex (digestText (zeroByteCrypto.sha256 q)) = zeroByteCrypto.sha256 q
      ∧ Returns (registerUser id zeroByteCrypto ⟨.succeeds, .succeeds, .succeeds⟩
          (ascii "alice") q q []) ⟨[], []⟩ fun ok s' => ok = true
        ∧ ∃ u : User, s'.saves = [u]
          ∧ u.pwHash = zeroByteSalt ++ ascii "EJr.OFJAzivU0Nu59MH0i7r080oE0Ii" := by
  obtain ⟨-, hwrites, hhanded, hwhole⟩ :=
    prehash_loses_nothing id zeroByteCrypto zeroByteCrypto_length
  refine ⟨hwhole _ _ (by decide), (hwrites _).decoded, ?_⟩
  have hfollows := (hhanded _).asked _ _ _ _ _ ⟨[], []⟩ reaches_zeroByte
  exact hfollows.hashed _ (by decide) rfl

end Neroshop.Validator
