import Neroshop.Lib.Runs
import Neroshop.Validator.Register

/-!
# Validator — the accounts of a run

`validator.cpp`: `validate_bcrypt_hash` and `validate_sha256_hash`, and what
they answer about the users that whole runs of `register_user` have saved.

* `Registration`: a call of `register_user` with the answers of the libraries.
* `accounts_verify`: over whole runs, which calls make accounts, and which texts
  the saved hashes accept.
-/

namespace Neroshop.Validator

open Lib.CStr Lib.EState Lib.Hex Lib.Runs

/-- `bcrypt_checkpw`, which hashes the password once more with the salt that
the hash holds. The hashes are C strings. -/
structure Bcrypt (c : Crypto) where
  checkpw : Bytes → Bytes → Int
  checkpw_iff : ∀ password hash,
    checkpw password hash = 0 ↔ c.hashpw password hash = some hash
  hashpw_hash : ∀ password salt hash, c.hashpw password salt = some hash →
    0 ∉ hash ∧ ∀ other, c.hashpw other hash = c.hashpw other salt

/-- `validate_bcrypt_hash`: libbcrypt gets the C strings. -/
def validateBcryptHash {c : Crypto} (b : Bcrypt c) (password hash : Bytes) : Bool :=
  b.checkpw (untilZero password) (untilZero hash) == 0

/-- `validate_sha256_hash` -/
def validateSha256Hash (c : Crypto) (run : DigestRun) (email hash : Bytes) :
    RegisterM Bool := do
  let some tempHash ← generateSha256Hash c run email | return false
  return tempHash == hash

/-- A call of `register_user`, and how the libraries answer during it. -/
structure Registration where
  username : Bytes
  password : Bytes
  confirmPw : Bytes
  optEmail : Bytes
  -- what `bcrypt_gensalt` gives
  salt : Option Bytes
  digests : Digests

section

variable (lower : Bytes → Bytes) (c : Crypto) (r : Registration)

/-- The libraries during the call, with its salt. -/
def Registration.crypto : Crypto := { c with gensalt := fun _ => r.salt }

/-- The call itself. -/
def Registration.call : RegisterM Bool :=
  registerUser lower (r.crypto c) r.digests r.username r.password r.confirmPw r.optEmail

/-- One call; the answers are on record. -/
def register (s : Registry × List Bool) : Registry × List Bool :=
  match r.call lower c s.1 with
  | .ok ok registry => (registry, s.2 ++ [ok])
  | .error _ registry => (registry, s.2)

/-! ## What a registration amounts to

The account that a call makes. Nothing that was saved before counts: a name
and an email may be registered any number of times. -/

/-- The call comes behind its checks. -/
def Registration.checked : Bool :=
  (validateUsername lower r.username).any Verdict.accepted
    && (validatePassword r.password).accepted
    && decide (r.password = r.confirmPw)
    && (r.optEmail.isEmpty
      || (emailPattern.regexMatch r.optEmail && decide (r.digests.emailCheck = .succeeds)))

/-- The hash that is saved for an email. -/
def emailHash (email : Bytes) : Bytes := if email.isEmpty then [] else hex (c.sha256 email)

/-- The account that the hashes make, when all of them succeed. -/
def Registration.hashed : Option User :=
  r.salt.bind fun salt =>
    if r.digests.password = .succeeds then
      (c.hashpw (hex (c.sha256 r.password)) salt).bind fun pwHash =>
        if r.digests.email = .succeeds then
          some ⟨r.username, pwHash, emailHash c r.optEmail⟩
        else none
    else none

/-- The account that the call makes, if it makes one. -/
def Registration.account : Option User := if r.checked lower then r.hashed c else none

end

/-- The program has saved the account, if there is one, and answers whether
there is. -/
def Amounts (s : Registry) (account : Option User) (ok : Bool) (s' : Registry) : Prop :=
  ok = account.isSome ∧ s'.saves = s.saves ++ account.toList

section Amounts

variable {s s₀ : Registry}

theorem amounts_none (h : s.saves = s₀.saves) :
    Returns (pure false : RegisterM Bool) s (Amounts s₀ none) :=
  Returns.pure ⟨rfl, h.trans (List.append_nil _).symm⟩

theorem amounts_digest {account : Option User} {f : Bytes → RegisterM Bool} (c : Crypto)
    (run : DigestRun) (text : Bytes) (hs : s.saves = s₀.saves)
    (hf : ∀ s', s'.saves = s₀.saves →
      Returns (f (hex (c.sha256 text))) s' (Amounts s₀ account)) :
    Returns (do
      let some digest ← generateSha256Hash c run text | return false
      f digest) s (Amounts s₀ (if run = .succeeds then account else none)) := by
  apply digest_returns
  · intro hrun s₁ hs₁
    rw [if_pos hrun]
    exact hf s₁ (hs₁.trans hs)
  · intro hrun s₁ hs₁
    rw [if_neg hrun]
    exact ⟨rfl, (hs₁.trans hs).trans (List.append_nil _).symm⟩

theorem hashAndSave_amounts (c : Crypto) (r : Registration) (hs : s.saves = s₀.saves) :
    Returns (hashAndSave (r.crypto c) r.digests r.username r.password r.optEmail) s
      (Amounts s₀ (r.hashed c)) := by
  unfold hashAndSave Registration.hashed
  rw [show generateBcryptSalt (r.crypto c) 12 = r.salt from rfl]
  cases r.salt with
  | none => exact amounts_none hs
  | some salt =>
      apply amounts_digest (r.crypto c) r.digests.password r.password hs
      intro s₁ hs₁
      rw [show generateBcryptHash (r.crypto c) (hex ((r.crypto c).sha256 r.password)) salt
        = c.hashpw (hex (c.sha256 r.password)) salt from generateBcryptHash_hex _ _ _]
      cases c.hashpw (hex (c.sha256 r.password)) salt with
      | none => exact amounts_none hs₁
      | some pwHash =>
          apply amounts_digest (r.crypto c) r.digests.email r.optEmail hs₁
          intro s₂ hs₂
          apply (saveUser_returns _ _ _).bind
          intro _ s₃ hs₃
          apply (out_returns _).bind
          intro _ s₄ hs₄
          refine Returns.pure ⟨rfl, ?_⟩
          rw [hs₄, hs₃, hs₂, emailHash]
          cases r.optEmail <;> rfl

theorem checkEmail_amounts (c : Crypto) (digests : Digests) (optEmail : Bytes) :
    Returns (checkEmail c digests optEmail) s fun ok s' =>
      s'.saves = s.saves ∧ ok = (optEmail.isEmpty
        || (emailPattern.regexMatch optEmail && decide (digests.emailCheck = .succeeds))) := by
  unfold checkEmail
  split
  · next hempty => exact Returns.pure ⟨rfl, by rw [hempty, Bool.true_or]⟩
  · next hempty =>
      refine (validateEmail_returns c digests optEmail).mono ?_
      intro ok s' h
      refine ⟨h.1, ?_⟩
      rw [Bool.eq_false_iff.mpr hempty, Bool.false_or, Bool.eq_iff_iff, h.2, Bool.and_eq_true,
        decide_eq_true_iff]

/-- **One registration**: it returns, saves the account that the call amounts
to and answers whether there is one. -/
theorem call_amounts (lower : Bytes → Bytes) (c : Crypto) (r : Registration) :
    Returns (r.call lower c) s (Amounts s (r.account lower c)) := by
  unfold Registration.call registerUser Registration.account Registration.checked
  refine (checkUsername_returns lower r.username).bind ?_
  rintro ok s₁ ⟨hs₁, v, hv, rfl⟩
  rw [hv, Option.any_some]
  cases v.accepted with
  | false => exact amounts_none hs₁
  | true =>
  refine (report_returns _).bind ?_
  rintro ok s₂ ⟨rfl, hs₂⟩
  cases (validatePassword r.password).accepted with
  | false => exact amounts_none (hs₂.trans hs₁)
  | true =>
  by_cases hconfirmed : r.password = r.confirmPw
  · rw [decide_eq_true hconfirmed, if_neg (not_not.mpr hconfirmed)]
    refine (checkEmail_amounts (r.crypto c) r.digests r.optEmail).bind ?_
    rintro ok s₃ ⟨hs₃, hok⟩
    have hs : s₃.saves = s.saves := hs₃.trans (hs₂.trans hs₁)
    rw [← hok]
    cases ok with
    | false => exact amounts_none hs
    | true => exact hashAndSave_amounts c r hs
  · rw [decide_eq_false hconfirmed, if_pos hconfirmed]
    refine (out_returns _).bind ?_
    intro _ s₃ hs₃
    exact amounts_none (hs₃.trans (hs₂.trans hs₁))

end Amounts

/-! ## What an account accepts -/

/-- The hash of the account accepts what bcrypt takes for the digest of the
password under the salt of the registration, and its email hash accepts the
email of the registration, if there was one. -/
structure Verifies {c : Crypto} (b : Bcrypt c) (r : Registration) (u : User) : Prop where
  username_eq : u.username = r.username
  password : ∃ salt, r.salt = some salt ∧ ∀ text, validateBcryptHash b text u.pwHash = true
    ↔ c.hashpw (untilZero text) salt = c.hashpw (hex (c.sha256 r.password)) salt
  email : ∀ run email s, Returns (validateSha256Hash c run email u.emailHash) s fun ok s' =>
    s'.saves = s.saves ∧ (ok = true
      ↔ run = .succeeds ∧ r.optEmail ≠ [] ∧ c.sha256 email = c.sha256 r.optEmail)

theorem validateBcryptHash_iff {c : Crypto} (b : Bcrypt c) {password salt hash : Bytes}
    (h : c.hashpw password salt = some hash) (text : Bytes) :
    validateBcryptHash b text hash = true
      ↔ c.hashpw (untilZero text) salt = c.hashpw password salt := by
  obtain ⟨hzero, hsalt⟩ := b.hashpw_hash password salt hash h
  rw [validateBcryptHash, beq_iff_eq, untilZero_eq_iff.mpr hzero, b.checkpw_iff, hsalt, h]

theorem hex_eq_emailHash_iff {c : Crypto} (hdigest : ∀ text, c.sha256 text ≠ [])
    (email saved : Bytes) :
    hex (c.sha256 email) = emailHash c saved ↔ saved ≠ [] ∧ c.sha256 email = c.sha256 saved := by
  unfold emailHash
  cases saved with
  | nil =>
      refine iff_of_false ?_ fun h => h.1 rfl
      intro h
      exact hdigest email (hex_injective (h.trans rfl))
  | cons b saved =>
      rw [List.isEmpty_cons, if_neg Bool.false_ne_true, hex_injective.eq_iff]
      exact (and_iff_right (List.cons_ne_nil b saved)).symm

theorem validateSha256Hash_returns (c : Crypto) (run : DigestRun) (email hash : Bytes)
    (s : Registry) :
    Returns (validateSha256Hash c run email hash) s fun ok s' =>
      s'.saves = s.saves ∧ (ok = true ↔ run = .succeeds ∧ hex (c.sha256 email) = hash) := by
  apply (generateSha256Hash_returns c run email).bind
  intro digest s₁ h₁
  obtain ⟨hs₁, rfl⟩ := h₁
  by_cases hrun : run = .succeeds
  · rw [if_pos hrun]
    refine Returns.pure ⟨hs₁, ?_⟩
    rw [beq_iff_eq, and_iff_right hrun]
  · rw [if_neg hrun]
    exact Returns.pure ⟨hs₁, iff_of_false Bool.false_ne_true fun h => hrun h.1⟩

theorem verifies_of_account {lower : Bytes → Bytes} {c : Crypto} (b : Bcrypt c)
    (hdigest : ∀ text, c.sha256 text ≠ []) {r : Registration} {u : User}
    (h : r.account lower c = some u) : Verifies b r u := by
  unfold Registration.account at h
  split at h
  case isFalse => cases h
  obtain ⟨salt, hsalt, h⟩ := Option.bind_eq_some_iff.mp h
  split at h
  case isFalse => cases h
  obtain ⟨pwHash, hpw, h⟩ := Option.bind_eq_some_iff.mp h
  split at h
  case isFalse => cases h
  cases h
  refine ⟨rfl, ⟨salt, hsalt, validateBcryptHash_iff b hpw⟩, ?_⟩
  intro run email s
  refine (validateSha256Hash_returns c run email _ s).mono ?_
  intro ok s' hok
  rw [hex_eq_emailHash_iff hdigest] at hok
  exact hok

/-! ## Whole runs -/

/-- The calls one after the other, with their answers. -/
def registrations (lower : Bytes → Bytes) (c : Crypto) (s : Registry) (rs : List Registration) :
    Registry × List Bool :=
  run (fun s r => register lower c r s) (s, []) rs

theorem register_eq (lower : Bytes → Bytes) (c : Crypto) (r : Registration)
    (s : Registry × List Bool) :
    (register lower c r s).2 = s.2 ++ [(r.account lower c).isSome]
      ∧ (register lower c r s).1.saves = s.1.saves ++ (r.account lower c).toList := by
  obtain ⟨ok, s', hrun, hok, hsaves⟩ := call_amounts (s := s.1) lower c r
  unfold register
  rw [hrun]
  exact ⟨congrArg (s.2 ++ [·]) hok, hsaves⟩

theorem run_register (lower : Bytes → Bytes) (c : Crypto) (rs : List Registration)
    (s : Registry × List Bool) :
    let s' := run (fun s r => register lower c r s) s rs
    s'.2 = s.2 ++ rs.map (fun r => (r.account lower c).isSome)
      ∧ s'.1.saves = s.1.saves ++ rs.filterMap (·.account lower c) := by
  induction rs generalizing s with
  | nil => exact ⟨(List.append_nil _).symm, (List.append_nil _).symm⟩
  | cons r rs ih =>
      obtain ⟨hanswers, hsaves⟩ := ih (register lower c r s)
      obtain ⟨hanswer, hsave⟩ := register_eq lower c r s
      constructor
      · rw [run_cons, hanswers, hanswer, List.append_assoc, List.map_cons]
        rfl
      · rw [run_cons, hsaves, hsave, List.append_assoc]
        cases hr : r.account lower c with
        | none => rw [List.filterMap_cons_none hr, Option.toList_none, List.nil_append]
        | some u => rw [List.filterMap_cons_some hr, Option.toList_some, List.singleton_append]

theorem forall₂_verifies {lower : Bytes → Bytes} {c : Crypto} (b : Bcrypt c)
    (hdigest : ∀ text, c.sha256 text ≠ []) (rs : List Registration) :
    List.Forall₂ (Verifies b) (rs.filter fun r => (r.account lower c).isSome)
      (rs.filterMap (·.account lower c)) := by
  induction rs with
  | nil => exact .nil
  | cons r rs ih =>
      cases hr : r.account lower c with
      | none =>
          rw [List.filterMap_cons_none hr, List.filter_cons_of_neg (by simp [hr])]
          exact ih
      | some u =>
          rw [List.filterMap_cons_some hr, List.filter_cons_of_pos (by simp [hr])]
          exact .cons (verifies_of_account b hdigest hr) ih

/-- **The accounts of a run of registrations**: every call returns, answers
whether it made an account, whatever was saved before it, and the accounts are
saved in the order of the calls. Each accepts the digest of its password and
its email; one without an email accepts none. -/
theorem accounts_verify (lower : Bytes → Bytes) {c : Crypto} (b : Bcrypt c)
    (hdigest : ∀ text, c.sha256 text ≠ []) (s : Registry) (rs : List Registration) :
    (registrations lower c s rs).2 = rs.map (fun r => (r.account lower c).isSome)
      ∧ (registrations lower c s rs).1.saves = s.saves ++ rs.filterMap (·.account lower c)
      ∧ List.Forall₂ (Verifies b) (rs.filter fun r => (r.account lower c).isSome)
        (rs.filterMap (·.account lower c)) := by
  obtain ⟨hanswers, hsaves⟩ := run_register lower c rs (s, [])
  exact ⟨hanswers, hsaves, forall₂_verifies b hdigest rs⟩

/-- A salt, as `bcrypt_gensalt` draws it. -/
def aliceSalt : Bytes := ascii "$2a$12$abcdefghijklmnopqrstuu"

/-- The bcrypt hash of `alicePrehash` under `aliceSalt`. -/
def aliceHash : Bytes := aliceSalt ++ ascii "E7DNcorr2/FbXIyhaeM1rmYxdqhNTam"

/-- The hex SHA-256 of `Neroshop1!`. -/
def alicePrehash : Bytes :=
  ascii "4030200709ed7329ae7b406b3fafd00f30435941516ea1050c93083f7f97483d"

/-- SHA-256 and bcrypt, for the password of alice. -/
def aliceCrypto : Crypto where
  sha256 text := if text = ascii "Neroshop1!" then unhex alicePrehash else List.replicate 32 0
  gensalt _ := some aliceSalt
  hashpw password salt :=
    if password = alicePrehash ∧ salt.take 29 = aliceSalt then some aliceHash else none

/-- `bcrypt_checkpw` hashes again, and compares. -/
def aliceBcrypt : Bcrypt aliceCrypto where
  checkpw password hash := if aliceCrypto.hashpw password hash = some hash then 0 else -1
  checkpw_iff := by
    intro password hash
    by_cases h : aliceCrypto.hashpw password hash = some hash
    · simp [h]
    · simp [h]
  hashpw_hash := by
    intro password salt hash h
    unfold aliceCrypto at h ⊢
    dsimp only at h ⊢
    split at h
    case isFalse => cases h
    next hsalt =>
      cases h
      refine ⟨by decide, ?_⟩
      intro other
      rw [hsalt.2, show aliceHash.take 29 = aliceSalt by decide]

/-- A registration without an email. -/
def alice : Registration :=
  ⟨ascii "alice", ascii "Neroshop1!", ascii "Neroshop1!", [], some aliceSalt,
    ⟨.succeeds, .succeeds, .succeeds⟩⟩

theorem aliceCrypto_digest (text : Bytes) : aliceCrypto.sha256 text ≠ [] := by
  unfold aliceCrypto
  dsimp only
  split
  · decide
  · decide

/-- Alice registers twice, without an email. -/
theorem accounts_verify_twice :
    (registrations id aliceCrypto ⟨[], []⟩ [alice, alice]).2 = [true, true]
      ∧ List.Forall₂ (Verifies aliceBcrypt) [alice, alice]
        [⟨ascii "alice", aliceHash, []⟩, ⟨ascii "alice", aliceHash, []⟩] := by
  have h := accounts_verify id aliceBcrypt aliceCrypto_digest ⟨[], []⟩ [alice, alice]
  have hone : alice.account id aliceCrypto = some ⟨ascii "alice", aliceHash, []⟩ := by decide
  simp only [List.map_cons, List.map_nil, List.filterMap_cons, List.filterMap_nil,
    List.filter_cons, List.filter_nil, hone, Option.isSome_some, if_true] at h
  exact ⟨h.1, h.2.2⟩

end Neroshop.Validator
