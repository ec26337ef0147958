import Neroshop.Lib.EState
import Neroshop.Lib.Hex
import Neroshop.Validator.Rules

/-!
# Validator — the registration

`validator.cpp`: `validate_email`, the calls into OpenSSL and libbcrypt, and
`register_user`. The libraries are parameters, and every call of theirs that
can fail has its outcome among the parameters of a registration. The calls of
`save_user` are on record.

`registration_all_or_nothing`: a call that answers true has saved one account, and
one that does not has saved none, whatever failed.
-/

namespace Neroshop.Validator

open Lib Lib.CStr Lib.EState Lib.Hex

/-- OpenSSL and libbcrypt. -/
structure Crypto where
  sha256 : Bytes → Bytes
  -- `bcrypt_gensalt`, for a work factor
  gensalt : Nat → Option Bytes
  -- `bcrypt_hashpw`, for a password and a salt
  hashpw : Bytes → Bytes → Option Bytes

/-- How the calls of one `generate_sha256_hash` go. -/
inductive DigestRun where
  | succeeds
  -- `EVP_MD_CTX_new`
  | noContext
  -- a later call, with the text of the OpenSSL error
  | fails (error : Bytes)
  deriving DecidableEq

/-- The digests of a registration. -/
structure Digests where
  emailCheck : DigestRun
  password : DigestRun
  email : DigestRun

/-- The arguments of a `save_user`. -/
structure User where
  username : Bytes
  pwHash : Bytes
  emailHash : Bytes
  deriving DecidableEq

/-- What registrations print and save. -/
structure Registry where
  printed : List Output
  -- the calls of `save_user`
  saves : List User

/-- `std::out_of_range` -/
inductive Thrown where
  | outOfRange

/-- Registration code. -/
abbrev RegisterM := EStateM Thrown Registry

/-- Something is printed. -/
def out (o : Output) : RegisterM Unit :=
  modify fun r => { r with printed := r.printed ++ [o] }

/-- What a rule prints goes to the terminal. -/
def report (v : Verdict) : RegisterM Bool := do
  modify fun r => { r with printed := r.printed ++ v.printed }
  pure v.accepted

/-- `validate_username`, as a registration calls it. -/
def checkUsername (lower : Bytes → Bytes) (username : Bytes) : RegisterM Bool :=
  match validateUsername lower username with
  | none => throw .outOfRange
  | some v => report v

variable (lower : Bytes → Bytes) (c : Crypto) (digests : Digests)

/-- `generate_sha256_hash`: the hexadecimal digest. -/
def generateSha256Hash (run : DigestRun) (text : Bytes) : RegisterM (Option Bytes) := do
  match run with
  | .succeeds => pure (some (hex (c.sha256 text)))
  | .noContext =>
      out (.print (ascii "EVP_MD_CTX_new failed") 1)
      pure none
  | .fails error =>
      out (.print error 1)
      pure none

/-- `generate_bcrypt_salt` -/
def generateBcryptSalt (workfactor : Nat) : Option Bytes := c.gensalt workfactor

/-- `generate_bcrypt_hash`: libbcrypt gets the C string. -/
def generateBcryptHash (password salt : Bytes) : Option Bytes :=
  c.hashpw (untilZero password) salt

/-- `\w` -/
def word : Regex Byte := .one fun b => isAlnum b || b == 95

/-- The character itself. -/
def char (b : Byte) : Regex Byte := .one (· == b)

/-- `(\w+)(\.|_)?(\w*)@(\w+)(\.(\w+))+` -/
def emailPattern : Regex Byte :=
  .seqs [word.plus, (Regex.alt (char 46) (char 95)).opt, .star word, char 64, word.plus,
    (Regex.seq (char 46) word.plus).plus]

/-- `validate_email` -/
def validateEmail (email : Bytes) : RegisterM Bool := do
  if !emailPattern.regexMatch email then
    out (.print (ascii "Email address is not valid") 1)
    pure false
  else
    match ← generateSha256Hash c digests.emailCheck email with
    | none =>
        out (.print (ascii "Failed to generate SHA256 hash") 1)
        pure false
    | some _ => pure true

/-- `save_user` -/
def saveUser (username pwHash emailHash : Bytes) : RegisterM Unit :=
  modify fun r => { r with saves := r.saves ++ [⟨username, pwHash, emailHash⟩] }

/-- `opt_email.empty() || validate_email(opt_email)` -/
def checkEmail (optEmail : Bytes) : RegisterM Bool :=
  if optEmail.isEmpty then pure true else validateEmail c digests optEmail

/-- `register_user` from the salt on, when the checks have passed. -/
def hashAndSave (username password optEmail : Bytes) : RegisterM Bool := do
  let some salt := generateBcryptSalt c 12 | return false
  let some pwPrehash ← generateSha256Hash c digests.password password | return false
  let some pwHash := generateBcryptHash c pwPrehash salt | return false
  -- of the empty string when no email is given
  let some emailHash ← generateSha256Hash c digests.email optEmail | return false
  saveUser username pwHash (if !optEmail.isEmpty then emailHash else [])
  out (.print (if !username.isEmpty then ascii "Welcome to neroshop, " ++ username
    else ascii "Welcome to neroshop") 4)
  return true

/-- `register_user` -/
def registerUser (username password confirmPw optEmail : Bytes) : RegisterM Bool := do
  if !(← checkUsername lower username) then return false
  if !(← report (validatePassword password)) then return false
  if password ≠ confirmPw then
    out (.line (ascii "\x1b[0;31;49m" ++ ascii "Both passwords do not match. Try again"
      ++ ascii "\x1b[0m"))
    return false
  if !(← checkEmail c digests optEmail) then return false
  hashAndSave c digests username password optEmail

/-! ## What each part returns -/

section Parts

variable {s : Registry}

theorem out_returns (o : Output) :
    Returns (out o) s fun _ s' => s'.saves = s.saves := Returns.modify rfl

theorem report_returns (v : Verdict) :
    Returns (report v) s fun ok s' => ok = v.accepted ∧ s'.saves = s.saves :=
  ⟨_, _, rfl, rfl, rfl⟩

theorem saveUser_returns (username pwHash emailHash : Bytes) :
    Returns (saveUser username pwHash emailHash) s fun _ s' =>
      s'.saves = s.saves ++ [⟨username, pwHash, emailHash⟩] := Returns.modify rfl

theorem checkUsername_returns (lower : Bytes → Bytes) (username : Bytes) :
    Returns (checkUsername lower username) s fun ok s' =>
      s'.saves = s.saves
        ∧ ∃ v, validateUsername lower username = some v ∧ ok = v.accepted := by
  obtain ⟨v, hv⟩ := Option.isSome_iff_exists.mp (validateUsername_isSome lower username)
  unfold checkUsername
  rw [hv]
  refine (report_returns v).mono ?_
  intro ok s' h
  exact ⟨h.2, v, rfl, h.1⟩

theorem generateSha256Hash_returns (c : Crypto) (run : DigestRun) (text : Bytes) :
    Returns (generateSha256Hash c run text) s fun hash s' =>
      s'.saves = s.saves
        ∧ hash = if run = .succeeds then some (hex (c.sha256 text)) else none := by
  cases run with
  | succeeds => exact Returns.pure ⟨rfl, rfl⟩
  | noContext =>
      refine (out_returns _).bind ?_
      intro _ s' h
      exact Returns.pure ⟨h, rfl⟩
  | fails error =>
      refine (out_returns _).bind ?_
      intro _ s' h
      exact Returns.pure ⟨h, by simp⟩

theorem validateEmail_returns (c : Crypto) (digests : Digests) (email : Bytes) :
    Returns (validateEmail c digests email) s fun ok s' =>
      s'.saves = s.saves
        ∧ (ok = true ↔ emailPattern.regexMatch email = true
            ∧ digests.emailCheck = .succeeds) := by
  unfold validateEmail
  split
  · next hno =>
      refine (out_returns _).bind ?_
      intro _ s' h
      have hfalse : emailPattern.regexMatch email = false := by simpa using hno
      exact Returns.pure ⟨h, by simp [hfalse]⟩
  · next hyes =>
      refine (generateSha256Hash_returns c digests.emailCheck email).bind ?_
      intro hash s' h
      obtain ⟨hsaves, hhash⟩ := h
      by_cases hrun : digests.emailCheck = .succeeds
      · rw [if_pos hrun] at hhash
        subst hhash
        exact Returns.pure ⟨hsaves, by simpa [hrun] using hyes⟩
      · rw [if_neg hrun] at hhash
        subst hhash
        refine (out_returns _).bind ?_
        intro _ s'' h
        exact Returns.pure ⟨h.trans hsaves, by simp [hrun]⟩

theorem generateBcryptHash_hex (c : Crypto) (bytes salt : Bytes) :
    generateBcryptHash c (hex bytes) salt = c.hashpw (hex bytes) salt := by
  rw [generateBcryptHash, untilZero_eq_iff.mpr (zero_notMem_hex bytes)]

/-- After a digest the program goes on with it, or answers `false`. -/
theorem digest_returns {Q : Bool → Registry → Prop} {f : Bytes → RegisterM Bool}
    {c : Crypto} {run : DigestRun} {text : Bytes}
    (hf : run = .succeeds → ∀ s', s'.saves = s.saves →
      Returns (f (hex (c.sha256 text))) s' Q)
    (hno : run ≠ .succeeds → ∀ s', s'.saves = s.saves → Q false s') :
    Returns (do
      let some digest ← generateSha256Hash c run text | return false
      f digest) s Q := by
  apply (generateSha256Hash_returns c run text).bind
  rintro digest s₁ ⟨hs₁, rfl⟩
  by_cases hrun : run = .succeeds
  · rw [if_pos hrun]
    exact hf hrun s₁ hs₁
  · rw [if_neg hrun]
    exact Returns.pure (hno hrun s₁ hs₁)

/-- Nothing was saved by a program that answers `false`; one that answers
`true` has saved one user, for whom `P` holds. -/
def AllOrNothing (s : Registry) (P : User → Prop) (ok : Bool) (s' : Registry) : Prop :=
  (ok = false ∧ s'.saves = s.saves)
    ∨ (ok = true ∧ ∃ u, s'.saves = s.saves ++ [u] ∧ P u)

theorem AllOrNothing.nothing {P : User → Prop} {s' : Registry} (h : s'.saves = s.saves) :
    Returns (pure false : RegisterM Bool) s' (AllOrNothing s P) :=
  Returns.pure (.inl ⟨rfl, h⟩)

theorem AllOrNothing.digest {P : User → Prop} {s₀ : Registry} {f : Bytes → RegisterM Bool}
    (c : Crypto) (run : DigestRun) (text : Bytes) (hs : s.saves = s₀.saves)
    (hf : ∀ s', s'.saves = s₀.saves →
      Returns (f (hex (c.sha256 text))) s' (AllOrNothing s₀ P)) :
    Returns (do
      let some digest ← generateSha256Hash c run text | return false
      f digest) s (AllOrNothing s₀ P) := by
  apply digest_returns
  · intro _ s₁ hs₁
    exact hf s₁ (hs₁.trans hs)
  · intro _ s₁ hs₁
    exact .inl ⟨rfl, hs₁.trans hs⟩

/-- The user that is saved, as far as the hashes go. -/
def Hashed (c : Crypto) (username password optEmail : Bytes) (u : User) : Prop :=
  u.username = username
    ∧ (∃ salt, c.gensalt 12 = some salt
        ∧ c.hashpw (hex (c.sha256 password)) salt = some u.pwHash)
    ∧ u.emailHash = if optEmail = [] then [] else hex (c.sha256 optEmail)

theorem hashAndSave_returns (c : Crypto) (digests : Digests)
    (username password optEmail : Bytes) {s₀ : Registry} (hs : s.saves = s₀.saves) :
    Returns (hashAndSave c digests username password optEmail) s
      (AllOrNothing s₀ (Hashed c username password optEmail)) := by
  unfold hashAndSave
  cases hsalt : generateBcryptSalt c 12 with
  | none => exact AllOrNothing.nothing hs
  | some salt =>
      apply AllOrNothing.digest c digests.password password hs
      intro s₁ hs₁
      rw [generateBcryptHash_hex]
      cases hhash : c.hashpw (hex (c.sha256 password)) salt with
      | none => exact AllOrNothing.nothing hs₁
      | some pwHash =>
          apply AllOrNothing.digest c digests.email optEmail hs₁
          intro s₂ hs₂
          apply (saveUser_returns _ _ _).bind
          intro _ s₃ hs₃
          apply (out_returns _).bind
          intro _ s₄ hs₄
          let u : User :=
            ⟨username, pwHash, if !optEmail.isEmpty then hex (c.sha256 optEmail) else []⟩
          refine Returns.pure (.inr ⟨rfl, u, ?_, rfl, ⟨salt, hsalt, hhash⟩, ?_⟩)
          · rw [hs₄, hs₃, hs₂]
          · cases optEmail <;> rfl

end Parts

/-! ## The registration -/

/-- `validate_email` answers `true`, whatever was printed before. -/
def AcceptedEmail (c : Crypto) (digests : Digests) (email : Bytes) : Prop :=
  ∀ s, Returns (validateEmail c digests email) s fun ok _ => ok = true

theorem acceptedEmail_iff (c : Crypto) (digests : Digests) (email : Bytes) :
    AcceptedEmail c digests email
      ↔ emailPattern.regexMatch email = true ∧ digests.emailCheck = .succeeds := by
  constructor
  · intro h
    obtain ⟨ok, s', hrun, hok⟩ := h ⟨[], []⟩
    obtain ⟨ok', s'', hrun', -, hiff⟩ :=
      validateEmail_returns (s := ⟨[], []⟩) c digests email
    rw [hrun] at hrun'
    cases hrun'
    exact hiff.mp hok
  · intro h s
    refine (validateEmail_returns c digests email).mono ?_
    intro ok s' hok
    exact hok.2.mpr h

theorem checkEmail_returns {s : Registry} (c : Crypto) (digests : Digests)
    (optEmail : Bytes) :
    Returns (checkEmail c digests optEmail) s fun ok s' =>
      s'.saves = s.saves
        ∧ (ok = true → optEmail ≠ [] → AcceptedEmail c digests optEmail) := by
  unfold checkEmail
  split
  · next hempty => exact Returns.pure ⟨rfl, fun _ h => absurd (List.isEmpty_iff.mp hempty) h⟩
  · refine (validateEmail_returns c digests optEmail).mono ?_
    intro ok s' h
    exact ⟨h.1, fun hok _ => (acceptedEmail_iff c digests optEmail).mpr (h.2.mp hok)⟩

/-- The user that a registration saves. -/
structure Registered (lower : Bytes → Bytes) (c : Crypto) (digests : Digests)
    (username password confirmPw optEmail : Bytes) (u : User) : Prop where
  username_eq : u.username = username
  username_valid : ∃ v, validateUsername lower username = some v ∧ v.accepted = true
  password_valid : (validatePassword password).accepted = true
  confirmed : password = confirmPw
  -- the digest of the whole password, under the new salt
  pwHash : ∃ salt, c.gensalt 12 = some salt
    ∧ c.hashpw (hex (c.sha256 password)) salt = some u.pwHash
  emailHash : u.emailHash = if optEmail = [] then [] else hex (c.sha256 optEmail)
  email_valid : optEmail ≠ [] → AcceptedEmail c digests optEmail

/-- **A registration saves all or nothing**: whatever the libraries answer, it
returns, and either answers `false` and saves nobody, or answers `true` and
saves one user, whose name, password and email passed their checks and were
hashed as they are. -/
theorem registration_all_or_nothing (lower : Bytes → Bytes) (c : Crypto)
    (digests : Digests) (username password confirmPw optEmail : Bytes) (s : Registry) :
    Returns (registerUser lower c digests username password confirmPw optEmail) s
      (AllOrNothing s
        (Registered lower c digests username password confirmPw optEmail)) := by
  unfold registerUser
  refine (checkUsername_returns lower username).bind ?_
  rintro ok s₁ ⟨hs₁, v, hv, rfl⟩
  split
  · exact AllOrNothing.nothing hs₁
  next husername =>
  refine (report_returns _).bind ?_
  rintro ok s₂ ⟨rfl, hs₂⟩
  split
  · exact AllOrNothing.nothing (hs₂.trans hs₁)
  next hpassword =>
  split
  · refine (out_returns _).bind ?_
    intro _ s' hs'
    exact AllOrNothing.nothing (hs'.trans (hs₂.trans hs₁))
  next hconfirmed =>
  refine (checkEmail_returns c digests optEmail).bind ?_
  rintro ok s₃ ⟨hs₃, hemail⟩
  split
  · exact AllOrNothing.nothing (hs₃.trans (hs₂.trans hs₁))
  next hok =>
  have hsaves : s₃.saves = s.saves := hs₃.trans (hs₂.trans hs₁)
  refine (hashAndSave_returns c digests username password optEmail hsaves).mono ?_
  rintro ok' s' (hno | ⟨hyes, u, hu, hname, hhash, hemailHash⟩)
  · exact .inl hno
  · right
    refine ⟨hyes, u, hu, hname, ⟨v, hv, ?_⟩, ?_, ?_, hhash, hemailHash, ?_⟩
    · simpa using husername
    · simpa using hpassword
    · simpa using hconfirmed
    · exact hemail (by simpa using hok)

-- libraries that answer: alice is saved
example :
    let c : Crypto := ⟨id, fun _ => some [1], fun password salt => some (salt ++ password)⟩
    let alice := registerUser id c ⟨.succeeds, .succeeds, .succeeds⟩ (ascii "alice")
      (ascii "Abcdef1!") (ascii "Abcdef1!") (ascii "a.b@c.de")
    (after alice ⟨[], []⟩).saves.length = 1 := by
  decide

end Neroshop.Validator
