import Neroshop.Lib.CStr

/-!
# Encryptor — the cipher calls

`encryptor.cpp`: `encrypt_message` / `decrypt_message` and the PEM entry
points `public_encrypt` / `private_decrypt`. OpenSSL is a parameter: the
record `Openssl` holds the outcome of every call the encryptor makes, so a
randomised ciphertext is one more unknown of the record.

The two message functions differ in three OpenSSL calls only
(`CipherCalls`); both end by building a `std::string` from the bare output
pointer, which is `CStr.read` of the memory at that pointer.
-/

namespace Neroshop.Encryptor

open Lib Lib.CStr

variable {Key : Type}

/-- The calls in which `encrypt_message` and `decrypt_message` differ. -/
structure CipherCalls (Key : Type) where
  -- `EVP_PKEY_encrypt_init` / `EVP_PKEY_decrypt_init`
  init : Key → Bool
  -- the call with a null `out`: the buffer length to allocate
  length : Key → Bytes → Option Nat
  -- the call proper: the bytes written to `out`
  bytes : Key → Bytes → Option Bytes

/-- The outcomes of the OpenSSL calls of one encryption and decryption. -/
structure Openssl (Key : Type) where
  bioWrite : Bytes → Bool
  pemReadPubkey : Bytes → Option Key
  pemReadPrivateKey : Bytes → Option Key
  ctxNew : Key → Bool
  setRsaPadding : Key → Bool
  encrypt : CipherCalls Key
  decrypt : CipherCalls Key
  -- `ERR_error_string(ERR_get_error(), nullptr)`
  errorString : String

/-- What `OPENSSL_malloc` answers: the memory from the new pointer on, the
buffer first and then whatever follows it. -/
abbrev Malloc := Nat → Option Bytes

/-- How a message function ends short of a string. -/
inductive Failure where
  -- the text is printed and the empty string is returned
  | reported (text : String)
  -- the string constructor reads past the accessible memory
  | overrun
  deriving DecidableEq, Repr

/-- The common body of `encrypt_message` and `decrypt_message`. -/
def cipherMessage (ssl : Openssl Key) (calls : CipherCalls Key)
    (malloc : Malloc) (key : Key) (input : Bytes) : Except Failure Bytes :=
  if !ssl.ctxNew key then .error (.reported "EVP_PKEY_CTX_new failed")
  else if !calls.init key then .error (.reported ssl.errorString)
  else if !ssl.setRsaPadding key then .error (.reported ssl.errorString)
  else
    match calls.length key input with
    | none => .error (.reported ssl.errorString)
    | some outlen =>
        match malloc outlen with
        | none => .error (.reported "OPENSSL_malloc failed")
        | some out =>
            match calls.bytes key input with
            | none => .error (.reported ssl.errorString)
            | some written =>
                -- std::string(reinterpret_cast<const char*>(out)): no length
                match CStr.read (CStr.store out written) with
                | none => .error .overrun
                | some text => .ok text

/-- `encrypt_message` -/
def encryptMessage (ssl : Openssl Key) (malloc : Malloc) (key : Key)
    (plainText : Bytes) : Except Failure Bytes :=
  cipherMessage ssl ssl.encrypt malloc key plainText

/-- `decrypt_message` -/
def decryptMessage (ssl : Openssl Key) (malloc : Malloc) (key : Key)
    (cipherText : Bytes) : Except Failure Bytes :=
  cipherMessage ssl ssl.decrypt malloc key cipherText

/-- `public_encrypt` -/
def publicEncrypt (ssl : Openssl Key) (malloc : Malloc)
    (publicKey plainText : Bytes) : Except Failure Bytes :=
  if !ssl.bioWrite publicKey then .error (.reported "BIO_write failed")
  else
    match ssl.pemReadPubkey publicKey with
    | none => .error (.reported "PEM_read_bio_PUBKEY failed")
    | some pkey => encryptMessage ssl malloc pkey plainText

/-- `private_decrypt` -/
def privateDecrypt (ssl : Openssl Key) (malloc : Malloc)
    (privateKey cipherText : Bytes) : Except Failure Bytes :=
  if !ssl.bioWrite privateKey then .error (.reported "BIO_write failed")
  else
    match ssl.pemReadPrivateKey privateKey with
    | none => .error (.reported "PEM_read_bio_PrivateKey failed")
    | some pkey => decryptMessage ssl malloc pkey cipherText

/-- The string a caller of these functions gets; `none` when the call does
not return. -/
def returned : Except Failure Bytes → Option Bytes
  | .ok text => some text
  | .error (.reported _) => some []
  | .error .overrun => none

/-! ## The message body, once its context is set up -/

/-- The library comes as far as the first of its two cipher calls. -/
structure Ready (ssl : Openssl Key) (calls : CipherCalls Key) (key : Key) :
    Prop where
  ctxNew : ssl.ctxNew key = true
  init : calls.init key = true
  padding : ssl.setRsaPadding key = true

/-- **A completed cipher call**: what is returned is the C string at the
head of the output memory. -/
theorem returned_cipherMessage {ssl : Openssl Key} {calls : CipherCalls Key}
    {malloc : Malloc} {key : Key} {input written out : Bytes} {outlen : Nat}
    (hready : Ready ssl calls key) (hlen : calls.length key input = some outlen)
    (hmalloc : malloc outlen = some out)
    (hbytes : calls.bytes key input = some written) :
    returned (cipherMessage ssl calls malloc key input)
      = CStr.read (written ++ out.drop written.length) := by
  simp only [cipherMessage, hready.ctxNew, hready.init, hready.padding, hlen,
    hmalloc, hbytes, CStr.store]
  cases CStr.read (written ++ out.drop written.length) <;> rfl

/-- A cipher call that OpenSSL refuses returns the empty string, whichever
step refused. -/
theorem returned_cipherMessage_refused {ssl : Openssl Key}
    {calls : CipherCalls Key} {malloc : Malloc} {key : Key} {input : Bytes}
    (hbytes : calls.bytes key input = none) :
    returned (cipherMessage ssl calls malloc key input) = some [] := by
  simp only [cipherMessage, hbytes]
  repeat' split
  all_goals rfl

end Neroshop.Encryptor
