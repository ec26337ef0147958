import Mathlib.Logic.Function.Basic
import Neroshop.Encryptor.RoundTrip
import Neroshop.Lib.Runs

/-!
# Encryptor — messages in files

`encryptor.cpp`: `public_encrypt_fp` and `private_decrypt_fp`, on streams that
the caller has opened. Any number of streams is open at a time, several of
them on one file, and the calls come in any order.

An output stream empties its file when it is opened and writes from the start
of it, so a text written over a longer one leaves the end of that one standing.
Both functions close their stream. `public_encrypt_fp` asks neither the stream
nor the closing whether the text was stored, so each encryption comes with the
room that it finds on the disk.

`file_roundTrip`: what is decrypted from a file is what is decrypted from memory,
cut off at the room that the encryption found.
-/

namespace Neroshop.Encryptor.Files

open Lib Lib.CStr Lib.Runs

variable {Key : Type}

/-- The files, and the streams that are open on them. -/
structure Desk where
  -- by name; `none` is a file that does not exist
  files : String → Option Bytes
  -- the files that the streams are open on
  outs : Nat → Option String
  ins : Nat → Option String
  printed : List String

namespace Desk

/-- What a stream finds in the file. -/
def content (d : Desk) (name : String) : Bytes := (d.files name).getD []

/-- Something is printed. -/
def print (d : Desk) (text : String) : Desk := { d with printed := d.printed ++ [text] }

/-- What an encryption or decryption prints. -/
def report (d : Desk) : Except Failure Bytes → Desk
  | .error (.reported text) => d.print text
  | _ => d

/-- A new `std::ofstream` takes the place of the stream `file`. -/
def openOut (d : Desk) (file : Nat) (name : String) (opens : Bool) : Desk :=
  if opens then
    { d with
      files := Function.update d.files name (some [])
      outs := Function.update d.outs file (some name) }
  else { d with outs := Function.update d.outs file none }

/-- A new `std::ifstream` takes the place of the stream `file`. -/
def openIn (d : Desk) (file : Nat) (name : String) : Desk :=
  { d with ins := Function.update d.ins file ((d.files name).map fun _ => name) }

/-- `file << text` and `file.close()`, for the stream `file` on `name`, with
room for so many bytes of the text. -/
def write (d : Desk) (file : Nat) (name : String) (text : Bytes) (room : Nat) : Desk :=
  { d with
    files := Function.update d.files name
      (some (CStr.store (d.content name) (text.take room)))
    outs := Function.update d.outs file none }

end Desk

/-- `public_encrypt_fp`; `none` is a call that does not return. -/
def publicEncryptFp (ssl : Openssl Key) (malloc : Malloc) (publicKey plainText : Bytes)
    (file room : Nat) (d : Desk) : Option Desk :=
  let result := publicEncrypt ssl malloc publicKey plainText
  match returned result with
  | none => none
  | some cipherText =>
      let d := d.report result
      match d.outs file with
      | none => some (d.print "public_encrypt_fp error: failed to open file")
      | some name => some (d.write file name cipherText room)

/-- `private_decrypt_fp`: the plain text it sets, and the desk. -/
def privateDecryptFp (ssl : Openssl Key) (malloc : Malloc) (privateKey : Bytes)
    (file : Nat) (d : Desk) : Option (Bytes × Desk) :=
  match d.ins file with
  | none => some ([], d.print "private_decrypt_fp error: failed to open file")
  | some name =>
      let d := { d with ins := Function.update d.ins file none }
      let result := privateDecrypt ssl malloc privateKey (d.content name)
      (returned result).map fun plainText => (plainText, d.report result)

/-- The calls of a run. -/
inductive Call (Key : Type) where
  | openOut (file : Nat) (name : String) (opens : Bool)
  | openIn (file : Nat) (name : String)
  | encrypt (ssl : Openssl Key) (malloc : Malloc) (publicKey plainText : Bytes)
      (file room : Nat)
  | decrypt (ssl : Openssl Key) (malloc : Malloc) (privateKey : Bytes) (file : Nat)

/-- The desk behind a call; `none` is a call that does not return. -/
def Call.made : Call Key → Desk → Option Desk
  | .openOut file name opens, d => some (d.openOut file name opens)
  | .openIn file name, d => some (d.openIn file name)
  | .encrypt ssl malloc publicKey plainText file room, d =>
      publicEncryptFp ssl malloc publicKey plainText file room d
  | .decrypt ssl malloc privateKey file, d =>
      (privateDecryptFp ssl malloc privateKey file d).map Prod.snd

/-- Nothing follows a call that does not return. -/
def step (s : Option Desk) (c : Call Key) : Option Desk := s.bind c.made

/-! ## What a call leaves alone -/

/-- The call neither empties the file nor writes to it. -/
def Spares (name : String) (s : Option Desk) : Call Key → Prop
  | .openOut _ name' opens => opens = true → name' ≠ name
  | .encrypt _ _ _ _ file _ => ∀ d ∈ s, d.outs file ≠ some name
  | .openIn .. | .decrypt .. => True

/-- The call does not reopen or use the output stream. -/
def Leaves (out : Nat) : Call Key → Prop
  | .openOut file _ _ => file ≠ out
  | .encrypt _ _ _ _ file _ => file ≠ out
  | .openIn .. | .decrypt .. => True

@[simp] theorem files_print (d : Desk) (text : String) : (d.print text).files = d.files := rfl

@[simp] theorem outs_print (d : Desk) (text : String) : (d.print text).outs = d.outs := rfl

@[simp] theorem files_report (d : Desk) (r : Except Failure Bytes) :
    (d.report r).files = d.files := by
  unfold Desk.report
  split
  · rfl
  · rfl

@[simp] theorem outs_report (d : Desk) (r : Except Failure Bytes) :
    (d.report r).outs = d.outs := by
  unfold Desk.report
  split
  · rfl
  · rfl

/-- **An encryption into a file**, when it returns: a stream that is not open
leaves the files and the streams as they are, and an open one is written to and
closed. -/
theorem publicEncryptFp_cases {ssl : Openssl Key} {malloc : Malloc} {pk m : Bytes}
    {file room : Nat} {d d' : Desk}
    (h : publicEncryptFp ssl malloc pk m file room d = some d') :
    ∃ text, returned (publicEncrypt ssl malloc pk m) = some text
      ∧ ((d.outs file = none ∧ d'.files = d.files ∧ d'.outs = d.outs)
        ∨ ∃ name, d.outs file = some name
          ∧ d'.files = Function.update d.files name
            (some (CStr.store (d.content name) (text.take room)))
          ∧ d'.outs = Function.update d.outs file none) := by
  unfold publicEncryptFp at h
  dsimp only at h
  split at h
  · cases h
  · next text htext =>
      refine ⟨text, htext, ?_⟩
      rw [outs_report] at h
      split at h
      · next hout =>
          cases h
          left
          rw [files_print, outs_print, files_report, outs_report]
          exact ⟨hout, rfl, rfl⟩
      · next name hout =>
          cases h
          right
          refine ⟨name, hout, ?_, ?_⟩
          · simp only [Desk.write, Desk.content, files_report]
          · simp only [Desk.write, outs_report]

theorem privateDecryptFp_keeps {ssl : Openssl Key} {malloc : Malloc} {sk text : Bytes}
    {file : Nat} {d d' : Desk} (h : privateDecryptFp ssl malloc sk file d = some (text, d')) :
    d'.files = d.files ∧ d'.outs = d.outs := by
  unfold privateDecryptFp at h
  split at h
  · cases h
    exact ⟨rfl, rfl⟩
  · rcases Option.map_eq_some_iff.mp h with ⟨plainText, -, heq⟩
    cases heq
    rw [files_report, outs_report]
    exact ⟨rfl, rfl⟩

theorem files_of_spares {name : String} {c : Call Key} {d d' : Desk}
    (hs : Spares name (some d) c) (h : c.made d = some d') : d'.files name = d.files name := by
  cases c with
  | openOut file name' opens =>
      cases h
      unfold Desk.openOut
      split
      · next hopens => exact Function.update_of_ne (hs hopens).symm _ _
      · rfl
  | openIn file name' =>
      cases h
      rfl
  | encrypt ssl malloc pk m file room =>
      rcases publicEncryptFp_cases h with ⟨text, -, ⟨-, hfiles, -⟩ | ⟨name', hout, hfiles, -⟩⟩
      · rw [hfiles]
      · have hne : name ≠ name' := by
          rintro rfl
          exact hs d rfl hout
        rw [hfiles, Function.update_of_ne hne]
  | decrypt ssl malloc sk file =>
      rcases Option.map_eq_some_iff.mp h with ⟨⟨text, d''⟩, hd, rfl⟩
      rw [(privateDecryptFp_keeps hd).1]

theorem outs_of_leaves {out : Nat} {c : Call Key} {d d' : Desk} (hl : Leaves out c)
    (h : c.made d = some d') : d'.outs out = d.outs out := by
  cases c with
  | openOut file name opens =>
      cases h
      unfold Desk.openOut
      split
      · exact Function.update_of_ne hl.symm _ _
      · exact Function.update_of_ne hl.symm _ _
  | openIn file name =>
      cases h
      rfl
  | encrypt ssl malloc pk m file room =>
      rcases publicEncryptFp_cases h with ⟨text, -, ⟨-, -, houts⟩ | ⟨name, -, -, houts⟩⟩
      · rw [houts]
      · rw [houts, Function.update_of_ne hl.symm]
  | decrypt ssl malloc sk file =>
      rcases Option.map_eq_some_iff.mp h with ⟨⟨text, d''⟩, hd, rfl⟩
      rw [(privateDecryptFp_keeps hd).2]

theorem of_step {s : Option Desk} {c : Call Key} {d' : Desk} (h : step s c = some d') :
    ∃ d, s = some d ∧ c.made d = some d' := Option.bind_eq_some_iff.mp h

/-! ## A message through a file -/

/-- The file holds `content`. -/
def Holds (name : String) (content : Bytes) (s : Option Desk) : Prop :=
  ∀ d ∈ s, d.files name = some content

theorem holds_step {name : String} {content : Bytes} {s : Option Desk} {c : Call Key}
    (h : Holds name content s) (hs : Spares name s c) : Holds name content (step s c) := by
  intro d' hd'
  rcases of_step hd' with ⟨d, rfl, hmade⟩
  rw [files_of_spares hs hmade]
  exact h d rfl

/-- The stream is open on the file, which is still empty. -/
def Ready (out : Nat) (name : String) (s : Option Desk) : Prop :=
  Holds name [] s ∧ ∀ d ∈ s, d.outs out = some name

theorem ready_openOut (d : Desk) (out : Nat) (name : String) :
    Ready out name (some (d.openOut out name true)) := by
  constructor
  · intro d' hd'
    cases hd'
    exact Function.update_self _ _ _
  · intro d' hd'
    cases hd'
    exact Function.update_self _ _ _

theorem ready_step {out : Nat} {name : String} {s : Option Desk} {c : Call Key}
    (h : Ready out name s) (hs : Spares name s c) (hl : Leaves out c) :
    Ready out name (step s c) := by
  refine ⟨holds_step h.1 hs, ?_⟩
  intro d' hd'
  rcases of_step hd' with ⟨d, rfl, hmade⟩
  rw [outs_of_leaves hl hmade]
  exact h.2 d rfl

/-- An encryption through the stream leaves what it returned in the file, as far
as there is room, and nothing else. -/
theorem holds_encrypt {out : Nat} {name : String} {s : Option Desk} {ssl : Openssl Key}
    {malloc : Malloc} {pk m text : Bytes} {room : Nat} (h : Ready out name s)
    (htext : returned (publicEncrypt ssl malloc pk m) = some text) :
    Holds name (text.take room) (step s (.encrypt ssl malloc pk m out room)) := by
  intro d' hd'
  rcases of_step hd' with ⟨d, rfl, hmade⟩
  have hout := h.2 d rfl
  rcases publicEncryptFp_cases hmade with
    ⟨text', htext', ⟨hnone, -, -⟩ | ⟨name', hsome, hfiles, -⟩⟩
  · rw [hout] at hnone
    cases hnone
  · rw [hout] at hsome
    cases hsome
    rw [htext] at htext'
    cases htext'
    have hempty : d.content name = [] := by
      rw [Desk.content, h.1 d rfl]
      rfl
    rw [hfiles, Function.update_self, hempty, CStr.store, List.drop_nil, List.append_nil]

/-- A decryption is one of what the file holds. -/
theorem privateDecryptFp_open {ssl : Openssl Key} {malloc : Malloc} {sk content : Bytes}
    {inn : Nat} {name : String} {d : Desk} (hin : d.ins inn = some name)
    (hfile : d.files name = some content) :
    (privateDecryptFp ssl malloc sk inn d).map Prod.fst
      = returned (privateDecrypt ssl malloc sk content) := by
  have hcontent : ({ d with ins := Function.update d.ins inn none } : Desk).content name
      = content := by
    show (d.files name).getD [] = content
    rw [hfile]
    rfl
  simp only [privateDecryptFp, hin, hcontent, Option.map_map]
  cases returned (privateDecrypt ssl malloc sk content) with
  | none => rfl
  | some text => rfl

/-- **A message through a file** is the message through memory, as far as the
disk has room for it: whatever calls stand between the opening of the stream,
the encryption and the decryption, on this file or on others, the plain text is
what `private_decrypt` makes of as much of the text that `public_encrypt`
returns as was stored, when nothing else empties the file or writes to it. -/
theorem file_roundTrip (d d' : Desk) (out inn : Nat) (name : String)
    (ssl : Openssl Key) (encMalloc decMalloc : Malloc) (pk sk m : Bytes) (room : Nat)
    (before after : List (Call Key))
    (hbefore : Along step (fun s c => Spares name s c ∧ Leaves out c)
      (some (d.openOut out name true)) before)
    (hafter : Along step (Spares name)
      (run step (some (d.openOut out name true))
        (before ++ [.encrypt ssl encMalloc pk m out room])) after)
    (hrun : run step (some (d.openOut out name true))
      (before ++ [.encrypt ssl encMalloc pk m out room] ++ after) = some d')
    (hin : d'.ins inn = some name) :
    ∃ text, returned (publicEncrypt ssl encMalloc pk m) = some text
      ∧ (privateDecryptFp ssl decMalloc sk inn d').map Prod.fst
        = returned (privateDecrypt ssl decMalloc sk (text.take room))
      ∧ (text.length ≤ room → (privateDecryptFp ssl decMalloc sk inn d').map Prod.fst
        = roundTrip ssl encMalloc decMalloc pk sk m) := by
  have hready : Ready out name (run step (some (d.openOut out name true)) before) := by
    refine hbefore.run_inv ?_ (ready_openOut d out name)
    intro s c hs hc
    exact ready_step hs hc.1 hc.2
  rw [run_append, run_cons, run_nil] at hafter
  rw [run_append, run_append, run_cons, run_nil] at hrun
  cases htext : returned (publicEncrypt ssl encMalloc pk m) with
  | none =>
      -- the encryption has not returned, and nothing follows it
      exfalso
      have hnone : step (run step (some (d.openOut out name true)) before)
          (.encrypt ssl encMalloc pk m out room) = none := by
        rw [Option.eq_none_iff_forall_ne_some]
        intro d'' hd''
        rcases of_step hd'' with ⟨d₁, -, hmade⟩
        rcases publicEncryptFp_cases hmade with ⟨text, hsome, -⟩
        rw [htext] at hsome
        cases hsome
      rw [hnone, run_fixed fun _ => rfl] at hrun
      cases hrun
  | some text =>
      have hholds : Holds name (text.take room) (some d') := by
        rw [← hrun]
        refine hafter.run_inv ?_ (holds_encrypt hready htext)
        intro s c hs hc
        exact holds_step hs hc
      have hopen : (privateDecryptFp ssl decMalloc sk inn d').map Prod.fst
          = returned (privateDecrypt ssl decMalloc sk (text.take room)) :=
        privateDecryptFp_open hin (hholds d' rfl)
      refine ⟨text, rfl, hopen, ?_⟩
      intro hroom
      rw [hopen, List.take_of_length_le hroom, roundTrip, htext]
      rfl

/-- A message to another file, and a reader that comes first. -/
theorem file_roundTrip_two :
    let ssl := sample [90, 91] (ascii "hi")
    let d : Desk := ⟨fun _ => none, fun _ => none, fun _ => none, []⟩
    ∃ d', run step (some (d.openOut 0 "cipher_text.txt" true))
        ([.openOut 1 "other.txt" true, .encrypt ssl zeroed [1] [] 1 0]
          ++ [.encrypt ssl zeroed [1] (ascii "hi") 0 4096]
          ++ [.openIn 2 "cipher_text.txt", .openIn 3 "cipher_text.txt",
            .decrypt ssl zeroed [2] 2]) = some d'
      ∧ (privateDecryptFp ssl zeroed [2] 3 d').map Prod.fst
          = roundTrip ssl zeroed zeroed [1] [2] (ascii "hi") := by
  intro ssl d
  refine ⟨_, rfl, ?_⟩
  obtain ⟨text, htext, -, hwhole⟩ :=
    file_roundTrip d _ 0 3 "cipher_text.txt" ssl zeroed zeroed [1] [2] (ascii "hi") 4096
      [.openOut 1 "other.txt" true, .encrypt ssl zeroed [1] [] 1 0]
      [.openIn 2 "cipher_text.txt", .openIn 3 "cipher_text.txt", .decrypt ssl zeroed [2] 2]
      (by
        refine ⟨⟨fun _ => by decide, Nat.one_ne_zero⟩, ⟨?_, Nat.one_ne_zero⟩, trivial⟩
        intro d' hd'
        cases hd'
        decide)
      ⟨trivial, trivial, trivial, trivial⟩ rfl rfl
  apply hwhole
  cases htext
  decide

end Neroshop.Encryptor.Files
