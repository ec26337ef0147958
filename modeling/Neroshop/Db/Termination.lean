import Neroshop.Db.Documents

/-!
# The search database — the end of indexing

On which streams the loop of `index_db` ends. The loop looks at the
end-of-file bit only, which a read error does not set.

* `nextLine` and what follows it: what `getline` and `ignore` leave of a stream.
* `ends_iff`: indexing ends unless the stream ends in a read error and nothing
  throws before.
-/

namespace Neroshop.Db

open Lib.CStr Lib.Loop Lib.Paragraphs Lib.IStream

/-! ## One line of any stream -/

/-- The lines that a stream still has. -/
def streamLines (s : Stream) : List Bytes := if s.good then fileLines s.rest else []

/-- The line that the next turn reads. -/
def nextLine (s : Stream) : Bytes := (s.getline newline []).2

/-- The stream behind `getline` and `ignore()`. -/
def nextStream (s : Stream) : Stream := (s.getline newline []).1.ignore

theorem streamLines_of_readable {s : Stream} (h : Readable s) :
    streamLines s = comingLines s := by
  rcases h with heof | ⟨r, rfl⟩
  · simp [streamLines, comingLines, Stream.good, heof]
  · rfl

theorem streamLines_not_good {s : Stream} (h : s.good = false) : streamLines s = [] := by
  rw [streamLines, if_neg (by simp [h])]

theorem streamLines_of_alike {s t : Stream} (h : Alike s t) :
    streamLines s = streamLines t := by
  rw [streamLines, streamLines, h.1, h.2]

theorem streamLines_next {s : Stream} (h : s.good = true) :
    ∃ ls, streamLines s = nextLine s :: ls
      ∧ streamLines (nextStream s) = dropFirst ls := by
  rcases read_line s.rest with ⟨l, ls, t, hlines, hget, hread, hcoming⟩
  have halike : nextLine s = _ ∧ Alike (s.getline newline []).1 _ :=
    (alike_ofFile h).getline
  rw [hget] at halike
  refine ⟨ls, ?_, ?_⟩
  · rw [streamLines, if_pos h, hlines, halike.1]
  · rw [nextStream, streamLines_of_alike halike.2.ignore, streamLines_of_readable hread,
      hcoming]

theorem nextLine_not_good {s : Stream} (h : s.good = false) : nextLine s = [] := by
  rw [nextLine, getline_not_good h]

theorem nextStream_not_good {s : Stream} (h : s.good = false) :
    (nextStream s).good = false := by
  rw [nextStream, getline_not_good h]
  exact ignore_not_good (good_setFail s)

theorem endless_nextStream {s : Stream} (h : Endless s) : Endless (nextStream s) :=
  h.getline.ignore

/-! ## One turn -/

variable {x : Xapian} {s : Indexing}

/-- What is left to do in a state of the loop. -/
def toDo (x : Xapian) (s : Indexing) : Left :=
  remaining x s (readLines (streamLines s.cin))

/-- A stream that is not good gives an empty line, as good as no line. -/
theorem toDo_eq (x : Xapian) (s : Indexing) :
    toDo x s =
      remaining x s (nextLine s.cin :: readLines (streamLines (nextStream s.cin))) := by
  unfold toDo
  by_cases h : s.cin.good = true
  · rcases streamLines_next h with ⟨ls, hlines, hnext⟩
    rw [hlines, readLines_cons, hnext]
  · have h : s.cin.good = false := by simpa using h
    rw [streamLines_not_good h, nextLine_not_good h,
      streamLines_not_good (nextStream_not_good h), readLines_nil, remaining, remaining]
    by_cases hp : s.para = []
    · rw [hp, collect_nil_blank]
    · rw [collect_blank hp, collect_open_nil hp, collect_nil_nil]

theorem takeLine_leave {line : Bytes} {a : Left} (h : takeLine x s line = .leave a) :
    a.error ≠ none := by
  unfold takeLine at h
  split at h
  · split at h
    · cases h
    · split at h
      · cases h
        exact Option.some_ne_none _
      · cases h
  · cases h

theorem takeLine_blank {s' : Indexing} (h : takeLine x s [] = .next s') : s'.para = [] := by
  unfold takeLine at h
  simp only [List.isEmpty_nil, if_true] at h
  split at h
  · next hp =>
      cases h
      exact List.isEmpty_iff.mp hp
  · split at h
    · cases h
    · cases h
      rfl

theorem indexTurn_eq (h : s.cin.eof = false) :
    indexTurn x s = takeLine x
      { s with cin := nextStream s.cin, lcnt := s.lcnt + 1 } (nextLine s.cin) := by
  rw [indexTurn, if_neg (by simp [h])]
  rfl

/-- A turn before the end of file: the loop is left with an error only. -/
theorem indexTurn_spec (h : s.cin.eof = false) :
    match indexTurn x s with
    | .next s' => s'.cin = nextStream s.cin ∧ toDo x s' = toDo x s
    | .leave a => toDo x s = a ∧ a.error ≠ none := by
  have hspec := takeLine_spec x { s with cin := nextStream s.cin, lcnt := s.lcnt + 1 }
    (nextLine s.cin) (readLines (streamLines (nextStream s.cin)))
  rw [toDo_eq x s, indexTurn_eq h]
  cases hb : takeLine x { s with cin := nextStream s.cin, lcnt := s.lcnt + 1 }
      (nextLine s.cin) with
  | leave a =>
      rw [hb] at hspec
      exact ⟨hspec, takeLine_leave hb⟩
  | next s' =>
      rw [hb] at hspec
      refine ⟨hspec.1, ?_⟩
      show toDo x s' = _
      rw [toDo, hspec.1]
      exact hspec.2.symm

/-! ## The loop -/

/-- With nothing left that throws, a stream without an end of file keeps the
loop turning. -/
theorem loop_endless (hs : Endless s.cin) (hdone : (toDo x s).error = none) (fuel : Nat) :
    loop (indexTurn x) fuel s = none := by
  have hinv : Endless s.cin ∧ (toDo x s).error = none := ⟨hs, hdone⟩
  refine loop_eq_none (fun s => Endless s.cin ∧ (toDo x s).error = none) ?_ fuel hinv
  intro s h
  have hspec := indexTurn_spec (x := x) h.1.2
  cases hb : indexTurn x s with
  | leave a =>
      rw [hb] at hspec
      exact absurd (hspec.1 ▸ h.2) hspec.2
  | next s' =>
      rw [hb] at hspec
      exact ⟨s', rfl, hspec.1 ▸ endless_nextStream h.1, hspec.2 ▸ h.2⟩

/-- An addition that throws ends the loop: the lines to come get fewer with
every turn, and behind the last of them all that is left to add is added in
one turn. -/
theorem loop_interrupted (hs : Endless s.cin) (herror : (toDo x s).error ≠ none) :
    ∃ fuel l, loop (indexTurn x) fuel s = some l := by
  induction hn : (streamLines s.cin).length using Nat.strong_induction_on generalizing s with
  | h n ih =>
      have hspec := indexTurn_spec (x := x) hs.2
      cases hb : indexTurn x s with
      | leave a => exact ⟨1, a, loop_leave hb 0⟩
      | next s' =>
          rw [hb] at hspec
          by_cases hgood : s.cin.good = true
          · rcases streamLines_next hgood with ⟨ls, hlines, hnext⟩
            have hlen : (streamLines s'.cin).length < n := by
              rw [hspec.1, hnext, ← hn, hlines]
              exact Nat.lt_succ_of_le (length_dropFirst_le ls)
            rcases ih _ hlen (hspec.1 ▸ endless_nextStream hs) (hspec.2 ▸ herror) rfl with
              ⟨fuel, l, hl⟩
            exact ⟨fuel + 1, l, (loop_next hb fuel).trans hl⟩
          · have hgood : s.cin.good = false := by simpa using hgood
            have hblank : s'.para = [] := by
              apply takeLine_blank
              rw [← hb, indexTurn_eq hs.2, nextLine_not_good hgood]
            rw [← hspec.2, toDo, hspec.1, streamLines_not_good (nextStream_not_good hgood),
              readLines_nil, remaining, hblank, collect_nil_nil] at herror
            exact absurd rfl herror

theorem addAll_error (x : Xapian) (n : Nat) (db : Database) (paras : List Bytes) :
    (addAll x n db paras).error ≠ none ↔
      ∃ k < paras.length, x.addDocument (n + k) ≠ none := by
  induction paras generalizing n db with
  | nil => simp [addAll]
  | cons para paras ih =>
      rw [addAll]
      cases hadd : x.addDocument n with
      | some e => exact iff_of_true (Option.some_ne_none e) ⟨0, by simp, by simp [hadd]⟩
      | none =>
          rw [ih]
          constructor
          · intro h
            rcases h with ⟨k, hk, hthrows⟩
            exact ⟨k + 1, Nat.succ_lt_succ hk, by rwa [← Nat.add_right_comm] at hthrows⟩
          · intro h
            rcases h with ⟨k, hk, hthrows⟩
            cases k with
            | zero => exact absurd hadd hthrows
            | succ k =>
                exact ⟨k, Nat.lt_of_succ_lt_succ hk, by rwa [Nat.add_right_comm]⟩

/-- The loop of `index_db` ends on the stream `cin`. -/
def Ends (x : Xapian) (documents : List Bytes) (cin : Stream) : Prop :=
  ∃ fuel l, loop (indexTurn x) fuel ⟨cin, [], 0, 0, ⟨documents, []⟩⟩ = some l

/-- Xapian throws when one of the documents of the stream is added. -/
def Interrupted (x : Xapian) (cin : Stream) : Prop :=
  ∃ k < (handedDocuments cin.rest).length, x.addDocument k ≠ none

/-- **When indexing ends**: unless the stream, good when it was opened, ends
in a read error and nothing throws before. -/
theorem ends_iff (x : Xapian) (documents : List Bytes) {cin : Stream}
    (hgood : cin.good = true) :
    Ends x documents cin ↔ cin.broken = false ∨ Interrupted x cin := by
  have heof : cin.eof = false := by simp_all [Stream.good]
  have htodo : toDo x ⟨cin, [], 0, 0, ⟨documents, []⟩⟩ =
      addAll x 0 ⟨documents, []⟩ (handedDocuments cin.rest) := by
    rw [toDo, remaining, streamLines, if_pos hgood, handedDocuments, ← collect_nil]
  have hinterrupted : (toDo x ⟨cin, [], 0, 0, ⟨documents, []⟩⟩).error ≠ none ↔
      Interrupted x cin := by
    rw [htodo, addAll_error]
    simp only [Nat.zero_add, Interrupted]
  cases hbroken : cin.broken with
  | false =>
      have hfile : cin = ofFile cin.rest := by
        cases cin
        simp_all [Stream.good, ofFile]
      have hends : Ends x documents cin :=
        ⟨_, _, loop_eq x (.inr ⟨cin.rest, hfile⟩) (Nat.le_refl _)⟩
      exact iff_of_true hends (.inl rfl)
  | true =>
      have hendless : Endless cin := ⟨hbroken, heof⟩
      rw [← hinterrupted]
      constructor
      · intro h
        rcases h with ⟨fuel, l, hl⟩
        right
        intro hdone
        rw [loop_endless hendless hdone fuel] at hl
        cases hl
      · intro h
        exact loop_interrupted hendless (h.resolve_left (by decide))

theorem ends_file : Ends (.healthy fun _ => false) [] (ofFile (ascii "a\n\nb")) :=
  (ends_iff _ [] rfl).mpr (.inl rfl)

/-- A directory: it can be opened, and the first read of it fails. -/
def directory : Stream := ⟨[], true, false, false, false⟩

theorem not_ends_directory :
    directory.good = true ∧ ¬ Ends (.healthy fun _ => false) [] directory := by
  refine ⟨rfl, ?_⟩
  intro h
  rcases h with ⟨fuel, l, hl⟩
  rw [loop_endless ⟨rfl, rfl⟩ ?_ fuel] at hl
  · cases hl
  · by_contra herror
    rcases (addAll_error ..).mp herror with ⟨k, -, hthrows⟩
    exact hthrows rfl

end Neroshop.Db
