import Neroshop.Db.Index
import Mathlib.Tactic.Tauto

/-!
# The search database — what indexing stores

Which files `index_db` stores as their paragraphs, and what the database
holds after a call in which Xapian throws.

* `Spaced`: the lines that come through the reader of `index_db` with their
  paragraphs as they are.
* `indexDb_paragraphs_iff`: these are the files that are stored as their
  paragraphs.
* `indexDb_fault`: what is stored when `add_document` or the last commit throws.
-/

namespace Neroshop.Db

open Lib.CStr Lib.Loop Lib.Paragraphs
open Lib.IStream (ofFile)

/-! ## The documents of a file -/

/-- Line 0, line 2, line 4 and so on. -/
def evenLines : List Bytes → List Bytes
  | [] => []
  | [l] => [l]
  | l :: _ :: ls => l :: evenLines ls

/-- Lines 1, 3, 5 and so on are empty. -/
def OddEmpty : List Bytes → Prop
  | [] => True
  | [_] => True
  | _ :: m :: ls => m = [] ∧ OddEmpty ls

/-- The lines at odd positions are empty, and no two lines two apart are
both non-empty. -/
def Spaced (ls : List Bytes) : Prop :=
  ∀ i, (i % 2 = 1 → ls.getD i [] = [])
    ∧ (ls.getD i [] = [] ∨ ls.getD (i + 2) [] = [])

theorem spaced_cons_cons (l m : Bytes) (ls : List Bytes) :
    Spaced (l :: m :: ls)
      ↔ m = [] ∧ (l ≠ [] → ∀ n ∈ ls.head?, n = []) ∧ Spaced ls := by
  have hhead : (∀ n ∈ ls.head?, n = []) ↔ ls.getD 0 [] = [] := by
    cases ls <;> simp
  rw [hhead]
  constructor
  · intro h
    refine ⟨(h 1).1 rfl, ?_, ?_⟩
    · intro hl
      exact (h 0).2.resolve_left hl
    · intro i
      have hi := h (i + 2)
      simpa using hi
  · intro h i
    obtain ⟨rfl, hl, h⟩ := h
    match i with
    | 0 => exact ⟨by simp, or_iff_not_imp_left.mpr hl⟩
    | 1 => exact ⟨fun _ => rfl, .inl rfl⟩
    | i + 2 =>
        have hi := h i
        simpa using hi

theorem spaced_iff (ls : List Bytes) :
    Spaced ls ↔ OddEmpty ls ∧ Isolated (evenLines ls) := by
  induction ls using evenLines.induct with
  | case1 => simp [Spaced, OddEmpty, evenLines, Isolated]
  | case2 l =>
      have hl : Spaced [l] := by
        intro i
        cases i <;> simp
      simp [hl, OddEmpty, evenLines, Isolated]
  | case3 l m ls ih =>
      have hhead : (evenLines ls).head? = ls.head? := by
        match ls with
        | [] => rfl
        | [_] => rfl
        | _ :: _ :: _ => rfl
      rw [spaced_cons_cons, OddEmpty, evenLines, isolated_cons, hhead, ih]
      tauto

theorem readLines_of_oddEmpty {ls : List Bytes} (h : OddEmpty ls) :
    readLines ls = evenLines ls := by
  induction ls using evenLines.induct with
  | case1 => simp [evenLines]
  | case2 l => simp [readLines_cons, dropFirst, evenLines]
  | case3 l m ls ih =>
      obtain ⟨rfl, hls⟩ := h
      rw [readLines_cons, dropFirst, ih hls, evenLines]

theorem isolated_of_oddEmpty {ls : List Bytes} (h : OddEmpty ls) : Isolated ls := by
  induction ls using evenLines.induct with
  | case1 => exact List.isChain_nil
  | case2 l => exact List.isChain_singleton l
  | case3 l m ls ih =>
      obtain ⟨rfl, hls⟩ := h
      rw [isolated_cons, isolated_cons]
      exact ⟨by simp, by simp, ih hls⟩

theorem filter_evenLines {ls : List Bytes} (h : OddEmpty ls) :
    (evenLines ls).filter (!·.isEmpty) = ls.filter (!·.isEmpty) := by
  induction ls using evenLines.induct with
  | case1 => rfl
  | case2 l => rfl
  | case3 l m ls ih =>
      obtain ⟨rfl, hls⟩ := h
      simp [evenLines, List.filter_cons, ih hls]

/-- Reading gains no characters, and it keeps them all only where every
dropped character is the newline of an empty line. -/
theorem flatten_readLines (ls : List Bytes) :
    (readLines ls).flatten.length ≤ ls.flatten.length
      ∧ (ls.flatten.length ≤ (readLines ls).flatten.length → OddEmpty ls) := by
  match ls with
  | [] => simp [OddEmpty]
  | [l] => simp [readLines_cons, dropFirst, OddEmpty]
  | l :: [] :: ls =>
      have ih := flatten_readLines ls
      simpa [readLines_cons, dropFirst, OddEmpty] using ih
  | l :: (b :: m) :: ls =>
      have ih := (flatten_readLines (m :: ls)).1
      rw [readLines_cons, dropFirst]
      simp only [List.flatten_cons, List.length_append, List.length_cons] at ih ⊢
      -- the character `b` is lost, and nothing makes up for it
      constructor
      · omega
      · intro h
        omega
termination_by ls.length

/-- **Which files are read right**: the paragraphs of the lines read are
those of the file exactly where the lines are spaced. -/
theorem paragraphs_readLines_iff {ls : List Bytes} (h : ∀ l ∈ ls, newline ∉ l)
    (hread : ∀ l ∈ readLines ls, newline ∉ l) :
    paragraphs newline (readLines ls) = paragraphs newline ls ↔ Spaced ls := by
  rw [spaced_iff]
  constructor
  · intro heq
    have hchars := congrArg (fun ps => ps.flatten.filter (· != newline)) heq
    simp only [filter_paragraphs h, filter_paragraphs hread] at hchars
    have hodd := (flatten_readLines ls).2 (by rw [hchars])
    rw [readLines_of_oddEmpty hodd,
      paragraphs_eq_filter_iff.mpr (isolated_of_oddEmpty hodd),
      ← filter_evenLines hodd] at heq
    exact ⟨hodd, paragraphs_eq_filter_iff.mp heq⟩
  · intro h
    obtain ⟨hodd, hiso⟩ := h
    rw [readLines_of_oddEmpty hodd, paragraphs_eq_filter_iff.mpr hiso,
      paragraphs_eq_filter_iff.mpr (isolated_of_oddEmpty hodd),
      filter_evenLines hodd]

theorem newline_not_mem_readLines {ls : List Bytes} (h : ∀ l ∈ ls, newline ∉ l) :
    ∀ l ∈ readLines ls, newline ∉ l := by
  match ls with
  | [] => simp
  | l :: ls =>
      have hdrop : ∀ m ∈ dropFirst ls, newline ∉ m := by
        match ls with
        | [] => simp [dropFirst]
        | [] :: ls =>
            intro m hm
            exact h m (by simp [dropFirst] at hm; simp [hm])
        | (b :: m) :: ls =>
            have hbm := h (b :: m) (by simp)
            intro n hn
            rcases List.mem_cons.mp hn with rfl | hn
            · intro hmem
              exact hbm (by simp [hmem])
            · exact h n (by simp [hn])
      rw [readLines_cons]
      intro m hm
      rcases List.mem_cons.mp hm with rfl | hm
      · exact h m (by simp)
      · exact newline_not_mem_readLines hdrop m hm
termination_by ls.length
decreasing_by
  have := length_dropFirst_le ls
  simp only [List.length_cons]
  omega

/-! ## A call without faults -/

variable {x : Xapian} {fuel : Nat} {documents : List Bytes}
  {inputFilename f : Bytes}

/-- The documents that the loop hands over: the paragraphs of the lines as it
reads them, which lose the characters that `ignore` takes. -/
def handedDocuments (f : Bytes) : List Bytes :=
  paragraphs newline (readLines (fileLines f))

theorem handedDocuments_eq_iff (f : Bytes) :
    handedDocuments f = paragraphs newline (fileLines f) ↔ Spaced (fileLines f) := by
  have hlines : ∀ l ∈ fileLines f, newline ∉ l := fun _ => not_mem_of_mem_splitOn
  exact paragraphs_readLines_iff hlines (newline_not_mem_readLines hlines)

/-- A call on a file adds its documents up to the first fault, and then
closes the database. -/
theorem indexDb_eq (hname : inputFilename ≠ []) (hopen : x.openDb = none)
    (hfuel : f.length + 3 ≤ fuel) :
    indexDb x fuel documents inputFilename (ofFile f)
      = some (finish x (addAll x 0 ⟨documents, []⟩ (handedDocuments f))) := by
  have hlen : (comingLines (ofFile f)).length + 2 ≤ fuel := by
    have := length_splitOn_le newline f
    simp only [comingLines, ofFile, fileLines, Bool.false_eq_true, if_false]
    omega
  rw [indexDb, if_neg (by simpa using hname), hopen]
  simp only [loop_eq x (s := ⟨ofFile f, [], 0, 0, ⟨documents, []⟩⟩) (.inr ⟨f, rfl⟩) hlen]
  rw [handedDocuments, ← collect_nil]
  rfl

/-- How many of the first `n` additions the automatic commits have stored. -/
def Xapian.autoCommitted (x : Xapian) : Nat → Nat
  | 0 => 0
  | n + 1 => if x.autoCommit n then n + 1 else x.autoCommitted n

theorem Xapian.autoCommitted_le (x : Xapian) (n : Nat) : x.autoCommitted n ≤ n := by
  induction n with
  | zero => exact Nat.le_refl 0
  | succ n ih =>
      rw [autoCommitted]
      split <;> omega

/-- The database after the first `n` additions. -/
def Xapian.holding (x : Xapian) (documents handed : List Bytes) (n : Nat) : Database :=
  ⟨documents ++ handed.take (x.autoCommitted n),
    (handed.take n).drop (x.autoCommitted n)⟩

theorem Xapian.holding_all (x : Xapian) (documents handed : List Bytes) (n : Nat) :
    (x.holding documents handed n).committed ++ (x.holding documents handed n).pending
      = documents ++ handed.take n := by
  have htake : handed.take (x.autoCommitted n)
      = (handed.take n).take (x.autoCommitted n) := by
    rw [List.take_take, Nat.min_eq_left (x.autoCommitted_le n)]
  rw [holding, List.append_assoc, htake, List.take_append_drop]

theorem Xapian.holding_add (x : Xapian) (documents : List Bytes) {handed : List Bytes}
    {n : Nat} (hn : n < handed.length) :
    (x.holding documents handed n).add x n handed[n]
      = x.holding documents handed (n + 1) := by
  have hsucc : handed.take (n + 1) = handed.take n ++ [handed[n]] :=
    List.take_succ_eq_append_getElem hn
  by_cases hauto : x.autoCommit n = true
  · have hall := x.holding_all documents handed n
    rw [Database.add, if_pos hauto, ← List.append_assoc, hall, holding, autoCommitted,
      if_pos hauto, List.append_assoc, ← hsucc]
    simp
  · have hle : x.autoCommitted n ≤ (handed.take n).length := by
      have := x.autoCommitted_le n
      rw [List.length_take]
      omega
    rw [Database.add, if_neg hauto, holding, holding, autoCommitted, if_neg hauto, hsucc,
      List.drop_append_of_le_length hle]

/-- Additions `n` to `k - 1`, none of which throws. -/
theorem addAll_upto (documents : List Bytes) {handed : List Bytes} {n k : Nat}
    (hnk : n ≤ k) (hk : k ≤ handed.length)
    (hok : ∀ j, n ≤ j → j < k → x.addDocument j = none) :
    addAll x n (x.holding documents handed n) (handed.drop n)
      = addAll x k (x.holding documents handed k) (handed.drop k) := by
  induction hnk with
  | refl => rfl
  | @step k hnk ih =>
      have hlt : k < handed.length := hk
      rw [ih (by omega) fun j hj hjk => hok j hj (by omega),
        List.drop_eq_getElem_cons hlt, addAll, hok k hnk (Nat.lt_succ_self k),
        x.holding_add documents hlt]

theorem addAll_ok (documents : List Bytes) {handed : List Bytes}
    (hok : ∀ j < handed.length, x.addDocument j = none) :
    addAll x 0 ⟨documents, []⟩ handed
      = ⟨none, x.holding documents handed handed.length⟩ := by
  have hupto := addAll_upto documents (Nat.zero_le _) (Nat.le_refl handed.length)
    fun j _ hj => hok j hj
  simpa [Xapian.holding, Xapian.autoCommitted, addAll] using hupto

/-- The addition after `k` is the first that throws. -/
theorem addAll_fault (documents : List Bytes) {handed : List Bytes} {k : Nat}
    {e : XapianError} (hk : k < handed.length) (hok : ∀ j < k, x.addDocument j = none)
    (hfault : x.addDocument k = some e) :
    addAll x 0 ⟨documents, []⟩ handed = ⟨some e, x.holding documents handed k⟩ := by
  have hupto := addAll_upto documents (Nat.zero_le k) (Nat.le_of_lt hk)
    fun j _ hj => hok j hj
  rw [List.drop_eq_getElem_cons hk] at hupto
  simpa [Xapian.holding, Xapian.autoCommitted, addAll, hfault] using hupto

/-- What the destructor leaves of the first `n` additions. -/
theorem Xapian.close_holding (x : Xapian) (documents handed : List Bytes) (n : Nat) :
    (x.holding documents handed n).close x
      = documents ++ handed.take (if x.implicitCommit then n else x.autoCommitted n) := by
  rw [Database.close, holding_all]
  split
  · rfl
  · rfl

theorem indexDb_healthy (autoCommit : Nat → Bool) (hname : inputFilename ≠ [])
    (hfuel : f.length + 3 ≤ fuel) :
    indexDb (.healthy autoCommit) fuel documents inputFilename (ofFile f)
      = some ⟨none, documents ++ handedDocuments f⟩ := by
  rw [indexDb_eq hname rfl hfuel, addAll_ok documents fun _ _ => rfl]
  simp [finish, Xapian.healthy, Xapian.holding_all]

/-- **What the indexer stores**: a call without faults ends and adds some
documents, and these are the paragraphs of the file exactly when each line
at an odd position is empty and no two lines two apart are both non-empty. -/
theorem indexDb_paragraphs_iff (autoCommit : Nat → Bool) (documents : List Bytes)
    {inputFilename : Bytes} (hname : inputFilename ≠ []) (f : Bytes) {fuel : Nat}
    (hfuel : f.length + 3 ≤ fuel) :
    ∃ stored,
      indexDb (.healthy autoCommit) fuel documents inputFilename (ofFile f)
          = some ⟨none, documents ++ stored⟩
        ∧ (stored = paragraphs newline (fileLines f) ↔ Spaced (fileLines f)) := by
  exact ⟨handedDocuments f, indexDb_healthy autoCommit hname hfuel, handedDocuments_eq_iff f⟩

theorem spaced_twoParagraphs : Spaced (fileLines (ascii "ab\n\n\n\ncd")) := by
  rw [show fileLines (ascii "ab\n\n\n\ncd") = [ascii "ab", [], [], [], ascii "cd"] by decide,
    spaced_iff]
  simp [OddEmpty, evenLines, Isolated]

/-- Two paragraphs, three empty lines apart, are stored as they are. -/
theorem indexDb_paragraphs_two :
    ascii "a.txt" ≠ [] ∧ (ascii "ab\n\n\n\ncd").length + 3 ≤ 11
      ∧ indexDb (.healthy fun _ => false) 11 [] (ascii "a.txt")
          (ofFile (ascii "ab\n\n\n\ncd"))
        = some ⟨none, paragraphs newline (fileLines (ascii "ab\n\n\n\ncd"))⟩ := by
  refine ⟨by decide, by decide, ?_⟩
  have hname : ascii "a.txt" ≠ [] := by decide
  have hfuel : (ascii "ab\n\n\n\ncd").length + 3 ≤ 11 := by decide
  obtain ⟨stored, hstored, hiff⟩ := indexDb_paragraphs_iff (fun _ => false) [] hname _ hfuel
  rw [hstored, hiff.mpr spaced_twoParagraphs, List.nil_append]

/-- The second of two lines loses its first character. -/
theorem indexDb_loses_character :
    indexDb (.healthy fun _ => false) 8 [] (ascii "a.txt") (ofFile (ascii "ab\ncd"))
        = some ⟨none, [ascii "ab\nd"]⟩
      ∧ paragraphs newline (fileLines (ascii "ab\ncd")) ≠ [ascii "ab\nd"] := by
  decide

/-! ## A call with faults -/

/-- What escapes from a call on a file is what opening the database throws,
and nothing else. -/
theorem indexDb_escaped (x : Xapian) (hname : inputFilename ≠ [])
    (hfuel : f.length + 3 ≤ fuel) :
    ∃ out, indexDb x fuel documents inputFilename (ofFile f) = some out
      ∧ out.escaped = x.openDb := by
  cases hopen : x.openDb with
  | some e => exact ⟨⟨some e, documents⟩, by simp [indexDb, hname, hopen], rfl⟩
  | none =>
      refine ⟨_, indexDb_eq hname hopen hfuel, ?_⟩
      unfold finish
      split
      · rfl
      · split <;> rfl

/-- The faults of a call on the file `f` are contained: no exception leaves
the call, and the database holds what it held before, with the documents
accepted before the fault: all of them if the commit of the destructor goes
through, and those that an automatic commit has stored if it does not. -/
def Contained (x : Xapian) (fuel : Nat) (documents : List Bytes)
    (inputFilename f : Bytes) : Prop :=
  ∃ handed,
    let stored n := if x.implicitCommit then n else x.autoCommitted n
    indexDb (.healthy x.autoCommit) fuel documents inputFilename (ofFile f)
        = some ⟨none, documents ++ handed⟩
      ∧ (∀ k e, k < handed.length → (∀ j < k, x.addDocument j = none) →
          x.addDocument k = some e →
          indexDb x fuel documents inputFilename (ofFile f)
            = some ⟨none, documents ++ handed.take (stored k)⟩)
      ∧ (∀ e, (∀ j < handed.length, x.addDocument j = none) →
          x.commit = some e →
          indexDb x fuel documents inputFilename (ofFile f)
            = some ⟨none, documents ++ handed.take (stored handed.length)⟩)

/-- **Contained faults**: on an opened database, wherever `add_document` or
the commit throws. -/
theorem indexDb_fault (x : Xapian) (hopen : x.openDb = none)
    (documents : List Bytes) {inputFilename : Bytes} (hname : inputFilename ≠ [])
    (f : Bytes) {fuel : Nat} (hfuel : f.length + 3 ≤ fuel) :
    Contained x fuel documents inputFilename f := by
  refine ⟨handedDocuments f, indexDb_healthy x.autoCommit hname hfuel, ?_, ?_⟩
  · intro k e hk hok hfault
    rw [indexDb_eq hname hopen hfuel, addAll_fault documents hk hok hfault, finish,
      x.close_holding]
  · intro e hok hcommit
    rw [indexDb_eq hname hopen hfuel, addAll_ok documents hok]
    simp only [finish, hcommit, x.close_holding]

/-- The second `add_document` throws. -/
def secondFails : Xapian :=
  { Xapian.healthy fun _ => false with
    addDocument := fun n => if n = 1 then some ⟨"lock lost"⟩ else none }

theorem indexDb_fault_second :
    secondFails.openDb = none ∧ ascii "a.txt" ≠ []
      ∧ (ascii "a\n\n\n\nb").length + 3 ≤ 9
      ∧ Contained secondFails 9 [] (ascii "a.txt") (ascii "a\n\n\n\nb") :=
  ⟨rfl, by decide, by decide,
    indexDb_fault secondFails rfl [] (by decide) (ascii "a\n\n\n\nb") (by decide)⟩

/-- The first document stays in the database when the second one fails. -/
theorem indexDb_partial_commit :
    secondFails.implicitCommit = true ∧ secondFails.addDocument 1 ≠ none
      ∧ indexDb secondFails 9 [] (ascii "a.txt") (ofFile (ascii "a\n\n\n\nb"))
        = some ⟨none, [ascii "a"]⟩ := by
  decide

end Neroshop.Db
