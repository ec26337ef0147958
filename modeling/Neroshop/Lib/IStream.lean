import Neroshop.Lib.CStr

/-!
# Input streams

Unformatted input from a byte source: `getline` and `ignore` with the three
state bits. A stream that is not good extracts nothing and only sets its
fail bit. The source ends in the end of file, or in a read error: an error
sets the bad bit and never the end-of-file bit.
-/

namespace Lib.IStream

open Lib.CStr

/-- An input stream: the bytes not yet extracted, whether a read error
follows them, and the state bits. -/
structure Stream where
  rest : Bytes
  broken : Bool
  eof : Bool
  fail : Bool
  bad : Bool
  deriving DecidableEq, Repr

namespace Stream

/-- `good()` -/
def good (s : Stream) : Bool := !s.eof && !s.fail && !s.bad

/-- Where the source ends: the bit of the end of file or of a read error. -/
def atEnd (s : Stream) : Stream :=
  if s.broken then { s with bad := true } else { s with eof := true }

/-- `getline`: the characters up to the delimiter, which is extracted and
dropped. A call that extracts nothing sets the fail bit; on a stream that is
not good the string keeps its value `line`. -/
def getline (delim : Byte) (s : Stream) (line : Bytes) : Stream × Bytes :=
  if s.good then
    let l := s.rest.takeWhile (· != delim)
    match s.rest.dropWhile (· != delim) with
    | _ :: r => ({ s with rest := r }, l)
    | [] => ({ s.atEnd with rest := [], fail := l.isEmpty }, l)
  else ({ s with fail := true }, line)

/-- `ignore()` -/
def ignore (s : Stream) : Stream :=
  if s.good then
    match s.rest with
    | _ :: r => { s with rest := r }
    | [] => s.atEnd
  else { s with fail := true }

/-- `operator>>` into a string: white space is skipped, and the characters up
to the next white space are taken. Where there are none the string keeps its
value `word`, and the fail bit is set. -/
def extract (space : Byte → Bool) (s : Stream) (word : Bytes) : Stream × Bytes :=
  if s.good then
    let r := s.rest.dropWhile space
    if r.isEmpty then ({ s.atEnd with rest := [], fail := true }, word)
    else
      let t := { s with rest := r.dropWhile (!space ·) }
      (if t.rest.isEmpty then t.atEnd else t, r.takeWhile (!space ·))
  else ({ s with fail := true }, word)

end Stream

/-- A stream that has just been opened on a file. -/
def ofFile (f : Bytes) : Stream := ⟨f, false, false, false, false⟩

variable {delim : Byte} {line l r : Bytes}

/-! ## Reading a file

A file stream is either still good or has its end-of-file bit set. -/

theorem ne_delim (h : delim ∉ l) : ∀ b ∈ l, (b != delim) = true := by
  intro b hb
  exact bne_iff_ne.mpr (ne_of_mem_of_not_mem hb h)

theorem getline_delim (h : delim ∉ l) :
    (ofFile (l ++ delim :: r)).getline delim line = (ofFile r, l) := by
  have htake : (l ++ delim :: r).takeWhile (· != delim) = l := by
    simp [List.takeWhile_append_of_pos (ne_delim h)]
  have hdrop : (l ++ delim :: r).dropWhile (· != delim) = delim :: r := by
    simp [List.dropWhile_append_of_pos (ne_delim h)]
  simp [Stream.getline, Stream.good, ofFile, htake, hdrop]

theorem getline_last (h : delim ∉ l) :
    (ofFile l).getline delim line = (⟨[], false, true, l.isEmpty, false⟩, l) := by
  have htake : l.takeWhile (· != delim) = l :=
    List.takeWhile_eq_self_iff.mpr (ne_delim h)
  have hdrop : l.dropWhile (· != delim) = [] :=
    List.dropWhile_eq_nil_iff.mpr (ne_delim h)
  simp [Stream.getline, Stream.good, Stream.atEnd, ofFile, htake, hdrop]

@[simp] theorem ignore_cons (b : Byte) :
    (ofFile (b :: r)).ignore = ofFile r := rfl

@[simp] theorem ignore_nil :
    (ofFile []).ignore = ⟨[], false, true, false, false⟩ := rfl

theorem ignore_eof {s : Stream} (h : s.eof = true) : s.ignore.eof = true := by
  simp [Stream.ignore, Stream.good, h]

/-! ## Reading from any source

How the source ends shows in the state bits only: the characters are the same
up to there. -/

variable {s t : Stream}

/-- The same characters to come, and both streams good or neither. -/
def Alike (s t : Stream) : Prop := s.rest = t.rest ∧ s.good = t.good

theorem alike_ofFile (h : s.good = true) : Alike s (ofFile s.rest) := ⟨rfl, h⟩

theorem good_atEnd (s : Stream) : s.atEnd.good = false := by
  unfold Stream.atEnd
  split <;> simp [Stream.good]

theorem rest_atEnd (s : Stream) : s.atEnd.rest = s.rest := by
  unfold Stream.atEnd
  split <;> rfl

theorem good_setFail (s : Stream) : ({ s with fail := true } : Stream).good = false := by
  simp [Stream.good]

theorem good_getline_end (s : Stream) (f : Bool) :
    ({ s.atEnd with rest := [], fail := f } : Stream).good = false := by
  unfold Stream.atEnd
  split <;> simp [Stream.good]

theorem Alike.getline (h : Alike s t) :
    (s.getline delim line).2 = (t.getline delim line).2
      ∧ Alike (s.getline delim line).1 (t.getline delim line).1 := by
  rcases h with ⟨hrest, hgood⟩
  unfold Stream.getline
  by_cases ht : t.good = true
  · rw [if_pos ht, if_pos (hgood.trans ht), hrest]
    cases t.rest.dropWhile (· != delim) with
    | nil => exact ⟨rfl, rfl, by rw [good_getline_end, good_getline_end]⟩
    | cons b r => exact ⟨rfl, rfl, hgood⟩
  · rw [if_neg ht, if_neg (hgood ▸ ht)]
    exact ⟨rfl, hrest, by rw [good_setFail, good_setFail]⟩

theorem Alike.ignore (h : Alike s t) : Alike s.ignore t.ignore := by
  rcases h with ⟨hrest, hgood⟩
  unfold Stream.ignore
  by_cases ht : t.good = true
  · rw [if_pos ht, if_pos (hgood.trans ht), hrest]
    cases hr : t.rest with
    | nil =>
        refine ⟨?_, by rw [good_atEnd, good_atEnd]⟩
        rw [rest_atEnd, rest_atEnd, hrest]
    | cons b r => exact ⟨rfl, hgood⟩
  · rw [if_neg ht, if_neg (hgood ▸ ht)]
    exact ⟨hrest, by rw [good_setFail, good_setFail]⟩

/-- A stream that is not good extracts nothing and stays so. -/
theorem getline_not_good (h : s.good = false) :
    s.getline delim line = ({ s with fail := true }, line) := by
  simp [Stream.getline, h]

theorem ignore_not_good (h : s.good = false) : s.ignore.good = false := by
  rw [Stream.ignore, if_neg (by simp [h]), good_setFail]

/-- The end-of-file bit of a source that ends in a read error is never set. -/
def Endless (s : Stream) : Prop := s.broken = true ∧ s.eof = false

theorem Endless.atEnd (h : Endless s) : Endless s.atEnd := by
  unfold Stream.atEnd
  rw [if_pos h.1]
  exact h

theorem Endless.getline (h : Endless s) : Endless (s.getline delim line).1 := by
  unfold Stream.getline
  split
  · cases s.rest.dropWhile (· != delim) with
    | nil => exact h.atEnd
    | cons b r => exact h
  · exact h

theorem Endless.ignore (h : Endless s) : Endless s.ignore := by
  unfold Stream.ignore
  split
  · cases s.rest with
    | nil => exact h.atEnd
    | cons b r => exact h
  · exact h

/-! ## Words -/

section Words

variable {space : Byte → Bool} {word : Bytes}

/-- The longest runs of characters that are not white space. -/
def wordsOf (space : Byte → Bool) (r : Bytes) : List Bytes :=
  (r.splitOnP space).filter (!·.isEmpty)

/-- The words that a stream still has. -/
def Stream.words (space : Byte → Bool) (s : Stream) : List Bytes :=
  if s.good then wordsOf space s.rest else []

theorem head_dropWhile {p : Byte → Bool} {r : Bytes} :
    ∀ b ∈ (r.dropWhile p).head?, p b = false := by
  have hhead := List.head?_dropWhile_not p r
  intro b hb
  rw [Option.mem_def] at hb
  rw [hb] at hhead
  exact hhead

theorem wordsOf_dropWhile (space : Byte → Bool) (r : Bytes) :
    wordsOf space (r.dropWhile space) = wordsOf space r := by
  induction r with
  | nil => rfl
  | cons b r ih =>
      cases hb : space b with
      | false => rw [List.dropWhile_cons_of_neg (by simp [hb])]
      | true =>
          rw [List.dropWhile_cons_of_pos hb, ih, wordsOf, wordsOf]
          have hsplit := List.splitOnP_append_cons_of_forall_mem
            (fun x (hx : x ∈ ([] : Bytes)) => nomatch hx) b hb r
          rw [List.nil_append] at hsplit
          rw [hsplit]
          rfl

/-- The first word, and the words behind it. -/
theorem wordsOf_eq {r : Bytes} (hne : r ≠ []) (hhead : ∀ b ∈ r.head?, space b = false) :
    wordsOf space r = r.takeWhile (!space ·) :: wordsOf space (r.dropWhile (!space ·)) := by
  have hword : r.takeWhile (!space ·) ≠ [] := by
    cases r with
    | nil => exact absurd rfl hne
    | cons b r =>
        rw [List.takeWhile_cons_of_pos (by simp [hhead b rfl])]
        exact List.cons_ne_nil b _
  have hall : ∀ b ∈ r.takeWhile (!space ·), space b = false := by
    intro b hb
    simpa using List.mem_takeWhile_imp hb
  have hsplit : r = r.takeWhile (!space ·) ++ r.dropWhile (!space ·) :=
    List.takeWhile_append_dropWhile.symm
  generalize r.takeWhile (!space ·) = w at *
  cases hrest : r.dropWhile (!space ·) with
  | nil =>
      rw [hrest, List.append_nil] at hsplit
      rw [hsplit, wordsOf, List.splitOnP_eq_singleton hall]
      simp [hword, wordsOf]
  | cons b t =>
      have hb : space b = true := by
        have hnot := @head_dropWhile (!space ·) r b (by rw [hrest]; rfl)
        simpa using hnot
      rw [hrest] at hsplit
      rw [hsplit, ← wordsOf_dropWhile space (b :: t), List.dropWhile_cons_of_pos hb,
        wordsOf_dropWhile, wordsOf, wordsOf,
        List.splitOnP_append_cons_of_forall_mem hall b hb t]
      simp [hword]

/-- **Extraction**: it takes the words one by one, and nothing when there are
no more. -/
theorem extract_words (space : Byte → Bool) (s : Stream) (word : Bytes) :
    match s.words space with
    | [] => (s.extract space word).2 = word ∧ (s.extract space word).1.words space = []
    | w :: ws => (s.extract space word).2 = w ∧ (s.extract space word).1.words space = ws := by
  unfold Stream.words Stream.extract
  by_cases hgood : s.good = true
  · rw [if_pos hgood, if_pos hgood, ← wordsOf_dropWhile]
    dsimp only
    by_cases hempty : s.rest.dropWhile space = []
    · rw [hempty]
      refine ⟨rfl, ?_⟩
      rw [if_neg]
      simp [Stream.good]
    · rw [wordsOf_eq hempty head_dropWhile, if_neg (by simpa using hempty)]
      refine ⟨rfl, ?_⟩
      cases hrest : (s.rest.dropWhile space).dropWhile (!space ·) with
      | nil =>
          simp only [List.isEmpty_nil, if_true, good_atEnd, Bool.false_eq_true, if_false]
          rfl
      | cons b t => exact if_pos hgood
  · rw [if_neg hgood, if_neg hgood]
    refine ⟨rfl, ?_⟩
    rw [if_neg]
    simp [Stream.good]

end Words

end Lib.IStream
