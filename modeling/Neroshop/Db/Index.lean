import Neroshop.Db.Query
import Neroshop.Lib.IStream
import Neroshop.Lib.Loop
import Neroshop.Lib.Paragraphs

/-!
# The search database — indexing

`db.cpp`: `index_db`. The loop runs over the input stream, the paragraph
accumulator and the open database; what Xapian throws, and whether the
commit of the destructor goes through, is a parameter.

`getline` takes the newline with its line, and the `ignore` behind it takes one
character more. `readLines` is what is left of a list of lines by that, and
`loop_eq` says that the loop adds the paragraphs of these lines.
-/

namespace Neroshop.Db

open Lib.CStr Lib.Loop Lib.Paragraphs
open Lib.IStream (Stream ofFile)

/-- The end of a line. -/
def newline : Byte := 10

/-- What Xapian does in one call of `index_db`. -/
structure Xapian where
  -- opening the database throws
  openDb : Option XapianError
  -- the addition after that many additions throws
  addDocument : Nat → Option XapianError
  -- the addition after that many additions commits what is pending
  autoCommit : Nat → Bool
  -- the explicit commit throws
  commit : Option XapianError
  -- the commit of the destructor goes through
  implicitCommit : Bool

/-- A Xapian that never throws. -/
def Xapian.healthy (autoCommit : Nat → Bool) : Xapian :=
  ⟨none, fun _ => none, autoCommit, none, true⟩

/-- A `WritableDatabase`, by the data of its documents: the committed ones,
and the additions still pending. -/
structure Database where
  committed : List Bytes
  pending : List Bytes
  deriving DecidableEq, Repr

/-- `add_document`, the addition after `n` additions. -/
def Database.add (x : Xapian) (n : Nat) (db : Database) (para : Bytes) : Database :=
  if x.autoCommit n then ⟨db.committed ++ (db.pending ++ [para]), []⟩
  else { db with pending := db.pending ++ [para] }

/-- What is stored once the destructor has run. -/
def Database.close (x : Xapian) (db : Database) : List Bytes :=
  if x.implicitCommit then db.committed ++ db.pending else db.committed

/-- The locals of `index_db`, in front of a turn of its loop. -/
structure Indexing where
  cin : Stream
  para : Bytes
  lcnt : Nat
  pcnt : Nat
  db : Database

/-- How the loop is left: with the error that `add_document` threw, if it
threw one. -/
structure Left where
  error : Option XapianError
  db : Database
  deriving DecidableEq

/-- The rest of a turn, with the line of that turn. -/
def takeLine (x : Xapian) (s : Indexing) (line : Bytes) : Turn Indexing Left :=
  if line.isEmpty then
    if s.para.isEmpty then .next s
    else
      match x.addDocument s.pcnt with
      | some e => .leave ⟨some e, s.db⟩
      | none =>
          .next { s with
            db := s.db.add x s.pcnt s.para, para := [], pcnt := s.pcnt + 1 }
  else
    .next { s with
      para := (if s.para.isEmpty then s.para else s.para ++ [newline]) ++ line }

/-- A turn of the loop. -/
def indexTurn (x : Xapian) (s : Indexing) : Turn Indexing Left :=
  if s.cin.eof then
    if s.para.isEmpty then .leave ⟨none, s.db⟩ else takeLine x s []
  else
    let (cin, line) := s.cin.getline newline []
    takeLine x { s with cin := cin.ignore, lcnt := s.lcnt + 1 } line

/-- How `index_db` ends. -/
structure Indexed where
  -- the exception that escapes
  escaped : Option XapianError
  documents : List Bytes
  deriving DecidableEq

/-- The end of the `try` block, the handler, and the destructor. -/
def finish (x : Xapian) (l : Left) : Indexed :=
  match l.error with
  | some _ => ⟨none, l.db.close x⟩
  | none =>
      match x.commit with
      | some _ => ⟨none, l.db.close x⟩
      | none => ⟨none, l.db.committed ++ l.db.pending⟩

/-- `index_db`: `cin` is the stream opened on the file, `documents` what the
database holds before the call. `none` is out of fuel. -/
def indexDb (x : Xapian) (fuel : Nat) (documents : List Bytes)
    (inputFilename : Bytes) (cin : Stream) : Option Indexed :=
  if inputFilename.isEmpty then some ⟨none, documents⟩
  else
    match x.openDb with
    -- opened outside of the `try` block
    | some e => some ⟨some e, documents⟩
    | none => (loop (indexTurn x) fuel ⟨cin, [], 0, 0, ⟨documents, []⟩⟩).map (finish x)

/-! ## What the loop reads -/

/-- The lines of a file; what is behind the last newline is the last of them. -/
def fileLines (f : Bytes) : List Bytes := f.splitOn newline

/-- `ignore()`, on the lines still to come: the first character is lost, and
an empty line, being its newline only, is lost as a whole. -/
def dropFirst : List Bytes → List Bytes
  | [] => []
  | [] :: ls => ls
  | (_ :: l) :: ls => l :: ls

theorem length_dropFirst_le (ls : List Bytes) :
    (dropFirst ls).length ≤ ls.length := by
  match ls with
  | [] => simp [dropFirst]
  | [] :: ls => simp [dropFirst]
  | (_ :: l) :: ls => simp [dropFirst]

/-- The lines that the loop gets: `ignore` takes a character of every other one. -/
def readLines : List Bytes → List Bytes
  | [] => []
  | l :: ls => l :: readLines (dropFirst ls)
termination_by ls => ls.length
decreasing_by
  have := length_dropFirst_le ls
  simp only [List.length_cons]
  omega

@[simp] theorem readLines_nil : readLines [] = [] := by
  rw [readLines]

theorem readLines_cons (l : Bytes) (ls : List Bytes) :
    readLines (l :: ls) = l :: readLines (dropFirst ls) := by
  rw [readLines]

/-- Some paragraphs are added, up to one that throws. -/
def addAll (x : Xapian) : Nat → Database → List Bytes → Left
  | _, db, [] => ⟨none, db⟩
  | n, db, para :: paras =>
      match x.addDocument n with
      | some e => ⟨some e, db⟩
      | none => addAll x (n + 1) (db.add x n para) paras

/-- What is left to do in a state of the loop, for the lines to come. -/
def remaining (x : Xapian) (s : Indexing) (ls : List Bytes) : Left :=
  addAll x s.pcnt s.db (collect newline s.para ls)

/-- A turn does its share of what is left to do. -/
theorem takeLine_spec (x : Xapian) (s : Indexing) (line : Bytes)
    (ls : List Bytes) :
    match takeLine x s line with
    | .next s' => s'.cin = s.cin ∧ remaining x s (line :: ls) = remaining x s' ls
    | .leave a => remaining x s (line :: ls) = a := by
  unfold takeLine remaining
  by_cases hl : line = []
  · subst hl
    by_cases hp : s.para = []
    · simp [hp]
    · rw [collect_blank hp, addAll]
      simp only [List.isEmpty_nil, if_true, List.isEmpty_iff, hp, if_false]
      cases x.addDocument s.pcnt <;> simp
  · by_cases hp : s.para = []
    · simp [hl, hp, collect_line hl]
    · simp [hl, hp, collect_line hl, extend]

/-! ## The loop -/

/-- The stream is at its end, or has not met it. -/
def Readable (s : Stream) : Prop := s.eof = true ∨ ∃ r, s = ofFile r

/-- The lines that are still to come. -/
def comingLines (s : Stream) : List Bytes :=
  if s.eof then [] else fileLines s.rest

/-- **One line**: `getline` takes the first line, and the `ignore()` behind
it drops the first character of the next. -/
theorem read_line (r : Bytes) : ∃ l ls s,
    fileLines r = l :: ls ∧ (ofFile r).getline newline [] = (s, l)
      ∧ Readable s.ignore ∧ comingLines s.ignore = dropFirst ls := by
  by_cases h : newline ∈ r
  · obtain ⟨l, r, rfl, hl⟩ := List.eq_append_cons_of_mem h
    refine ⟨l, fileLines r, ofFile r, List.splitOn_append_cons_self_of_not_mem hl r,
      Lib.IStream.getline_delim hl, ?_⟩
    cases r with
    | nil => exact ⟨.inl rfl, rfl⟩
    | cons b r =>
        refine ⟨.inr ⟨r, rfl⟩, ?_⟩
        show fileLines r = dropFirst (fileLines (b :: r))
        obtain ⟨m, ms, hr⟩ := List.exists_cons_of_ne_nil (List.splitOn_ne_nil newline r)
        rw [fileLines, fileLines, List.splitOn_cons_eq_if_modifyHead, hr]
        split <;> rfl
  · refine ⟨r, [], _, List.splitOn_eq_singleton h, Lib.IStream.getline_last h, ?_⟩
    have heof := Lib.IStream.ignore_eof (s := ⟨[], false, true, r.isEmpty, false⟩) rfl
    exact ⟨.inl heof, by rw [comingLines, if_pos heof]; rfl⟩

theorem loop_eof (x : Xapian) {s : Indexing} (h : s.cin.eof = true) (fuel : Nat) :
    loop (indexTurn x) (fuel + 2) s = some (remaining x s []) := by
  by_cases hp : s.para = []
  · have hturn : indexTurn x s = .leave ⟨none, s.db⟩ := by
      simp [indexTurn, h, hp]
    rw [loop_leave hturn]
    simp [remaining, hp, addAll]
  · rw [remaining, collect_open_nil hp]
    cases hadd : x.addDocument s.pcnt with
    | some e =>
        have hturn : indexTurn x s = .leave ⟨some e, s.db⟩ := by
          simp [indexTurn, takeLine, h, hp, hadd]
        rw [loop_leave hturn]
        simp [addAll, hadd]
    | none =>
        have hturn : indexTurn x s = .next { s with
            db := s.db.add x s.pcnt s.para, para := [], pcnt := s.pcnt + 1 } := by
          simp [indexTurn, takeLine, h, hp, hadd]
        rw [loop_next hturn,
          loop_leave (a := ⟨none, s.db.add x s.pcnt s.para⟩) (by simp [indexTurn, h])]
        simp [addAll, hadd]

/-- **The loop ends**, and it adds the paragraphs of the lines it reads. -/
theorem loop_eq (x : Xapian) {fuel : Nat} {s : Indexing} (hs : Readable s.cin)
    (hfuel : (comingLines s.cin).length + 2 ≤ fuel) :
    loop (indexTurn x) fuel s
      = some (remaining x s (readLines (comingLines s.cin))) := by
  induction fuel generalizing s with
  | zero => omega
  | succ fuel ih =>
      by_cases heof : s.cin.eof = true
      · have hnone : comingLines s.cin = [] := if_pos heof
        obtain ⟨n, rfl⟩ : ∃ n, fuel = n + 1 := ⟨fuel - 1, by omega⟩
        rw [loop_eof x heof, hnone, readLines_nil]
      · obtain ⟨r, hr⟩ := hs.resolve_left heof
        obtain ⟨l, ls, cin, hlines, hget, hread, hcoming⟩ := read_line r
        have hl : comingLines s.cin = l :: ls := by
          rw [comingLines, if_neg heof, hr]
          exact hlines
        have hturn : indexTurn x s
            = takeLine x { s with cin := cin.ignore, lcnt := s.lcnt + 1 } l := by
          rw [indexTurn, if_neg heof, hr, hget]
        rw [hl, readLines_cons]
        have hspec := takeLine_spec x { s with cin := cin.ignore, lcnt := s.lcnt + 1 } l
          (readLines (dropFirst ls))
        rw [← hturn] at hspec
        cases hb : indexTurn x s with
        | leave a =>
            rw [hb] at hspec
            rw [loop_leave hb, ← hspec]
            rfl
        | next s' =>
            rw [hb] at hspec
            obtain ⟨hcin, hrem⟩ := hspec
            have hlen : (comingLines s'.cin).length ≤ ls.length := by
              rw [hcin, hcoming]
              exact length_dropFirst_le ls
            rw [loop_next hb, ih (hcin ▸ hread) (by simp [hl] at hfuel; omega), hcin,
              hcoming, ← hrem]
            rfl

end Neroshop.Db
