import Neroshop.Daemon.Process

/-!
# Daemon — what queries see while the indexer runs

The database thread indexes a file while the server thread answers. At each
moment a query sees the documents committed so far: those that the database
held before, and the first ones of the file.

What counts as the first ones of the file is what the reader of `index_db` makes
of it, `handedDocuments`: the paragraphs of the lines that `ignore` leaves. They
are the paragraphs of the file exactly when its lines are `Spaced`.

* `run_snapshots`: every view of a run is such a snapshot, and later views show no
  less than earlier ones.
* `run_quotes`: so is what a reply quotes.
-/

namespace Neroshop.Daemon

open Lib.CStr Lib.Runs Lib.Loop Lib.Paragraphs
open Lib.IStream (Stream ofFile)
open Neroshop.Db

/-! ## One turn of the indexer -/

variable {x : Xapian} {s : Indexing}

/-- A turn is over, or it takes one line. -/
theorem indexTurn_cases (x : Xapian) (hs : Readable s.cin) :
    (indexTurn x s = .leave ⟨none, s.db⟩
        ∧ collect newline s.para (readLines (comingLines s.cin)) = [])
      ∨ ∃ cin lcnt line, indexTurn x s = takeLine x { s with cin := cin, lcnt := lcnt } line
        ∧ Readable cin
        ∧ collect newline s.para (readLines (comingLines s.cin))
          = collect newline s.para (line :: readLines (comingLines cin)) := by
  by_cases heof : s.cin.eof = true
  · have hnone : comingLines s.cin = [] := if_pos heof
    rw [hnone, readLines_nil]
    by_cases hpara : s.para = []
    · left
      simp [indexTurn, heof, hpara]
    · right
      refine ⟨s.cin, s.lcnt, [], by simp [indexTurn, heof, hpara], hs, ?_⟩
      rw [hnone, readLines_nil, collect_blank hpara, collect_open_nil hpara, collect_nil_nil]
  · right
    obtain ⟨r, hr⟩ := hs.resolve_left heof
    obtain ⟨l, ls, cin, hlines, hget, hread, hcoming⟩ := read_line r
    refine ⟨cin.ignore, s.lcnt + 1, l, ?_, hread, ?_⟩
    · rw [indexTurn, if_neg heof, hr, hget]
    · have hl : comingLines s.cin = l :: ls := by
        rw [comingLines, if_neg heof, hr]
        exact hlines
      rw [hl, readLines_cons, hcoming]

/-- A line extends the paragraph, or it ends it and hands it over. -/
theorem takeLine_cases (x : Xapian) (s : Indexing) (line : Bytes) (ls : List Bytes) :
    (∃ para, takeLine x s line = .next { s with para := para }
        ∧ collect newline s.para (line :: ls) = collect newline para ls)
      ∨ (collect newline s.para (line :: ls) = s.para :: collect newline [] ls
        ∧ match x.addDocument s.pcnt with
          | some e => takeLine x s line = .leave ⟨some e, s.db⟩
          | none => takeLine x s line = .next { s with
              db := s.db.add x s.pcnt s.para, para := [], pcnt := s.pcnt + 1 }) := by
  unfold takeLine
  by_cases hline : line = []
  · subst hline
    by_cases hpara : s.para = []
    · left
      exact ⟨[], by simp [← hpara], by rw [hpara, collect_nil_blank]⟩
    · right
      refine ⟨collect_blank hpara, ?_⟩
      cases x.addDocument s.pcnt <;> simp [hpara]
  · left
    rw [collect_line hline]
    by_cases hpara : s.para = []
    · exact ⟨line, by simp [hline, hpara], by rw [hpara, extend_nil]⟩
    · exact ⟨s.para ++ newline :: line, by simp [hline, hpara], by simp [extend, hpara]⟩

/-! ## The thread -/

/-- The database holds what it held before, and the first documents that the
indexer makes of the file. -/
def Snapshot (documents : List Bytes) (f : Bytes) (docs : List Bytes) : Prop :=
  ∃ n, docs = documents ++ (handedDocuments f).take n

/-- Where the thread is in the file `f`. -/
def Indexer.At (x : Xapian) (documents : List Bytes) (inputFilename f : Bytes) :
    Indexer → Prop
  | .opening docs cin => inputFilename ≠ [] ∧ docs = documents ∧ cin = ofFile f
  | .indexing s =>
      inputFilename ≠ [] ∧ x.openDb = none ∧ Readable s.cin
        ∧ s.pcnt ≤ (handedDocuments f).length
        ∧ (∀ j < s.pcnt, x.addDocument j = none)
        ∧ s.db = x.holding documents (handedDocuments f) s.pcnt
        ∧ collect newline s.para (readLines (comingLines s.cin))
          = (handedDocuments f).drop s.pcnt
  -- what `index_db` leaves
  | .done docs =>
      Snapshot documents f docs
        ∧ indexDb x (f.length + 3) documents inputFilename (ofFile f) = some ⟨none, docs⟩

variable {documents : List Bytes} {inputFilename f : Bytes} {i i' : Indexer}

theorem Indexer.at_start (x : Xapian) (documents : List Bytes) (inputFilename f : Bytes) :
    (Indexer.start documents inputFilename (ofFile f)).At x documents inputFilename f := by
  unfold Indexer.start
  by_cases hname : inputFilename = []
  · rw [if_pos (by simp [hname])]
    exact ⟨⟨0, by simp⟩, by simp [indexDb, hname]⟩
  · rw [if_neg (by simp [hname])]
    exact ⟨hname, rfl, rfl⟩

theorem finish_escaped (x : Xapian) (l : Left) : (finish x l).escaped = none := by
  unfold finish
  split
  · rfl
  · split <;> rfl

/-- The destructor and the explicit commit store what is pending, or nothing. -/
theorem finish_cases (x : Xapian) (l : Left) :
    (finish x l).documents = l.db.committed
      ∨ (finish x l).documents = l.db.committed ++ l.db.pending := by
  have hclose : l.db.close x = l.db.committed
      ∨ l.db.close x = l.db.committed ++ l.db.pending := by
    rw [Database.close]
    split
    · exact .inr rfl
    · exact .inl rfl
  unfold finish
  split
  · exact hclose
  · split
    · exact hclose
    · exact .inr rfl

theorem snapshot_holding (x : Xapian) (n : Nat) :
    Snapshot documents f (x.holding documents (handedDocuments f) n).committed :=
  ⟨x.autoCommitted n, rfl⟩

theorem snapshot_finish (x : Xapian) (n : Nat) (error : Option XapianError) :
    Snapshot documents f
      (finish x ⟨error, x.holding documents (handedDocuments f) n⟩).documents := by
  rcases finish_cases x ⟨error, x.holding documents (handedDocuments f) n⟩ with h | h
  · exact h ▸ snapshot_holding x n
  · exact ⟨n, h.trans (x.holding_all documents (handedDocuments f) n)⟩

theorem Indexer.At.snapshot (h : i.At x documents inputFilename f) :
    Snapshot documents f i.committed := by
  cases i with
  | opening docs cin => exact ⟨0, by simpa [Indexer.committed] using h.2.1⟩
  | indexing s =>
      obtain ⟨-, -, -, -, -, hdb, -⟩ := h
      rw [Indexer.committed, hdb]
      exact snapshot_holding x s.pcnt
  | done docs => exact h.1

theorem committed_add (db : Database) (n : Nat) (para : Bytes) :
    db.committed <+: (db.add x n para).committed := by
  unfold Database.add
  split
  · exact List.prefix_append _ _
  · exact List.prefix_refl _

/-- The turn that hands over a paragraph. -/
theorem add_handed {ls : List Bytes}
    (hdb : s.db = x.holding documents (handedDocuments f) s.pcnt)
    (hdrop : s.para :: ls = (handedDocuments f).drop s.pcnt) :
    s.pcnt < (handedDocuments f).length
      ∧ s.db.add x s.pcnt s.para = x.holding documents (handedDocuments f) (s.pcnt + 1)
      ∧ ls = (handedDocuments f).drop (s.pcnt + 1) := by
  have hlt : s.pcnt < (handedDocuments f).length := by
    have hlength := congrArg List.length hdrop
    rw [List.length_cons, List.length_drop] at hlength
    omega
  rw [List.drop_eq_getElem_cons hlt] at hdrop
  obtain ⟨hpara, hls⟩ := List.cons.inj hdrop
  refine ⟨hlt, ?_, hls⟩
  rw [hdb, hpara]
  exact x.holding_add documents hlt

theorem done_of_leave {error : Option XapianError} (hname : inputFilename ≠ [])
    (hopen : x.openDb = none) (n : Nat)
    (hall : addAll x 0 ⟨documents, []⟩ (handedDocuments f)
      = ⟨error, x.holding documents (handedDocuments f) n⟩) :
    (Indexer.done (finish x ⟨error, x.holding documents (handedDocuments f) n⟩).documents).At
      x documents inputFilename f := by
  refine ⟨snapshot_finish x n error, ?_⟩
  rw [indexDb_eq hname hopen (Nat.le_refl _), hall, ← finish_escaped x ⟨error, _⟩]

theorem committed_finish (x : Xapian) (l : Left) :
    l.db.committed <+: (finish x l).documents := by
  rcases finish_cases x l with h | h
  · exact h ▸ List.prefix_refl _
  · exact h ▸ List.prefix_append _ _

/-- A turn of the loop: the thread goes on in the file, and what it has
committed stays. -/
theorem Indexer.At.turn (h : (Indexer.indexing s).At x documents inputFilename f) :
    match indexTurn x s with
    | .next s' => (Indexer.indexing s').At x documents inputFilename f
        ∧ s.db.committed <+: s'.db.committed
    | .leave l => (Indexer.done (finish x l).documents).At x documents inputFilename f
        ∧ s.db.committed <+: (finish x l).documents := by
  obtain ⟨hname, hopen, hread, hle, hok, hdb, hdrop⟩ := h
  rcases indexTurn_cases x hread with ⟨hturn, hnil⟩ | ⟨cin, lcnt, line, hturn, hcin, hlines⟩
  · -- everything is handed over
    have hpcnt : s.pcnt = (handedDocuments f).length := by
      rw [hnil] at hdrop
      exact Nat.le_antisymm hle (List.drop_eq_nil_iff.mp hdrop.symm)
    rw [hturn]
    refine ⟨?_, committed_finish x ⟨none, s.db⟩⟩
    rw [hdb]
    apply done_of_leave hname hopen
    rw [hpcnt] at hok ⊢
    exact addAll_ok documents hok
  · rw [hturn]
    rcases takeLine_cases x { s with cin := cin, lcnt := lcnt } line
      (readLines (comingLines cin)) with ⟨para, htake, hcollect⟩ | ⟨hcollect, htake⟩
    · rw [htake]
      refine ⟨⟨hname, hopen, hcin, hle, hok, hdb, ?_⟩, List.prefix_refl _⟩
      rw [← hdrop, hlines]
      exact hcollect.symm
    · have hhanded := add_handed hdb ((hlines.trans hcollect).symm.trans hdrop)
      obtain ⟨hlt, hadd, hrest⟩ := hhanded
      cases hfault : x.addDocument s.pcnt with
      | some e =>
          simp only [hfault] at htake
          rw [htake]
          refine ⟨?_, committed_finish x ⟨some e, s.db⟩⟩
          show (Indexer.done (finish x ⟨some e, s.db⟩).documents).At _ _ _ _
          rw [hdb]
          exact done_of_leave hname hopen s.pcnt (addAll_fault documents hlt hok hfault)
      | none =>
          simp only [hfault] at htake
          rw [htake]
          refine ⟨⟨hname, hopen, hcin, hlt, ?_, hadd, hrest⟩, committed_add s.db s.pcnt s.para⟩
          intro j hj
          rcases Nat.lt_succ_iff_lt_or_eq.mp hj with hj | rfl
          · exact hok j hj
          · exact hfault

theorem Indexer.At.step (h : i.At x documents inputFilename f) (hstep : i.step x = .ok i') :
    i'.At x documents inputFilename f ∧ i.committed <+: i'.committed := by
  cases i with
  | opening docs cin =>
      obtain ⟨hname, rfl, rfl⟩ := h
      simp only [Indexer.step] at hstep
      split at hstep
      · cases hstep
      · next hopen =>
          cases hstep
          refine ⟨⟨hname, hopen, .inr ⟨f, rfl⟩, Nat.zero_le _, nofun, ?_, ?_⟩,
            List.prefix_refl _⟩
          · simp [Xapian.holding, Xapian.autoCommitted]
          · rw [collect_nil]
            rfl
  | indexing s =>
      have hturn := h.turn
      simp only [Indexer.step] at hstep
      split at hstep
      · next s' hs' =>
          cases hstep
          rw [hs'] at hturn
          exact hturn
      · next l hl =>
          cases hstep
          rw [hl] at hturn
          exact hturn
  | done docs =>
      cases hstep
      exact ⟨h, List.prefix_refl _⟩

/-! ## The queries -/

namespace Process

variable {C : Type} [DecidableEq C] {p p' : Process C} {e : Event C}

/-- What the replies have seen, and what the next one would see. -/
structure Seen (x : Xapian) (documents : List Bytes) (inputFilename f : Bytes)
    (p : Process C) : Prop where
  indexer : p.indexer.At x documents inputFilename f
  snapshots : ∀ v ∈ p.views, Snapshot documents f v
  grows : p.views.Pairwise (· <+: ·)
  seen : ∀ v ∈ p.views, v <+: p.committed

omit [DecidableEq C] in
theorem seen_start (x : Xapian) (documents : List Bytes) (inputFilename f : Bytes) :
    Seen x documents inputFilename f (start documents inputFilename (ofFile f) : Process C) :=
  ⟨Indexer.at_start x documents inputFilename f, nofun, .nil, nofun⟩

theorem Seen.of_does (h : Seen x documents inputFilename f p) (hdoes : Does x p e p') :
    Seen x documents inputFilename f p' := by
  cases hdoes with
  | stays => exact h
  | sends => exact ⟨h.indexer, h.snapshots, h.grows, h.seen⟩
  | delivers => exact ⟨h.indexer, h.snapshots, h.grows, h.seen⟩
  | faults => exact ⟨h.indexer, h.snapshots, h.grows, h.seen⟩
  | takes => exact ⟨h.indexer, h.snapshots, h.grows, h.seen⟩
  | ignores => exact ⟨h.indexer, h.snapshots, h.grows, h.seen⟩
  | answers =>
      refine ⟨h.indexer, ?_, ?_, ?_⟩
      · intro v hv
        rcases List.mem_append.mp hv with hv | hv
        · exact h.snapshots v hv
        · exact List.mem_singleton.mp hv ▸ h.indexer.snapshot
      · refine List.pairwise_append.mpr ⟨h.grows, List.pairwise_singleton _ _, ?_⟩
        intro v hv w hw
        exact List.mem_singleton.mp hw ▸ h.seen v hv
      · intro v hv
        rcases List.mem_append.mp hv with hv | hv
        · exact h.seen v hv
        · exact List.mem_singleton.mp hv ▸ List.prefix_refl _
  | fails => exact ⟨h.indexer, h.snapshots, h.grows, h.seen⟩
  | @indexes i _ hindex =>
      obtain ⟨hat, hprefix⟩ := h.indexer.step hindex
      exact ⟨hat, h.snapshots, h.grows, fun v hv => (h.seen v hv).trans hprefix⟩

/-- Each step keeps what the replies have seen. -/
theorem seen_run (x : Xapian) (documents : List Bytes) (inputFilename f : Bytes)
    (es : List (Event C)) :
    Seen x documents inputFilename f
      (run (Process.step x) (start documents inputFilename (ofFile f)) es) := by
  have hkept : ∀ (p : Process C) e, p.Inv ∧ Seen x documents inputFilename f p →
      (p.step x e).Inv ∧ Seen x documents inputFilename f (p.step x e) := by
    intro p e h
    exact ⟨h.1.step x e, h.2.of_does (h.1.does x e)⟩
  exact (run_inv hkept
    ⟨inv_start documents inputFilename (ofFile f), seen_start x documents inputFilename f⟩ es).2

/-- **Snapshots**: whatever the order of the steps of the two threads and of
the clients, and wherever Xapian throws, each reply and a reader after a crash
find what the database held before, with the first of the documents that the
indexer makes of the file; a later reply never finds less; and once the
database thread has ended, the database is the one that `index_db` leaves. The
documents are the paragraphs of the file exactly when its lines are spaced. -/
theorem run_snapshots (x : Xapian) (documents : List Bytes) (inputFilename f : Bytes)
    (es : List (Event C)) :
    let p : Process C := run (Process.step x) (start documents inputFilename (ofFile f)) es
    (p.views ++ [p.committed]).Pairwise (· <+: ·)
      ∧ (∀ v ∈ p.views ++ [p.committed],
          ∃ n, v = documents ++ (handedDocuments f).take n)
      ∧ (handedDocuments f = paragraphs newline (fileLines f) ↔ Spaced (fileLines f))
      ∧ ∀ docs, p.indexer = .done docs →
          indexDb x (f.length + 3) documents inputFilename (ofFile f) = some ⟨none, docs⟩ := by
  intro p
  have hseen : Seen x documents inputFilename f p := seen_run x documents inputFilename f es
  refine ⟨?_, ?_, handedDocuments_eq_iff f, ?_⟩
  · refine List.pairwise_append.mpr ⟨hseen.grows, List.pairwise_singleton _ _, ?_⟩
    intro v hv w hw
    exact List.mem_singleton.mp hw ▸ hseen.seen v hv
  · intro v hv
    rcases List.mem_append.mp hv with hv | hv
    · exact hseen.snapshots v hv
    · exact List.mem_singleton.mp hv ▸ hseen.indexer.snapshot
  · intro docs hdocs
    have hat := hseen.indexer
    rw [hdocs] at hat
    exact hat.2

/-- What Xapian finds are documents of the database. -/
def Sound (lookup : List Bytes → Search) : Prop :=
  ∀ docs text ms, lookup docs text = .ok ms → ∀ m ∈ ms.matches_, m.data ∈ docs

theorem reply?_query {search : Search} {q r : Bytes} (hq : ascii "db q" <+: q)
    (hr : reply? search q = some r) :
    r = [] ∨ ∃ ms, search (withoutCommand q) = .ok ms ∧ r = ms.text := by
  have hdb : ascii "db" <+: q := (List.prefix_append (ascii "db") (ascii " q")).trans hq
  have hco : ¬ ascii "co" <+: q := fun hco => not_db_of_co hco hdb
  rw [reply?, if_neg hco, if_pos hdb, if_pos hq] at hr
  cases hr
  rw [dbQuery]
  split
  · next ms hms => exact .inr ⟨ms, hms, rfl⟩
  · exact .inl rfl

/-- **Quotes**: a client that searches gets the empty reply, or one whose
matches are documents of the old database or ones that the indexer made of the
file, and never what has not been committed. Of a file whose lines are spaced
these are whole paragraphs. -/
theorem run_quotes (x : Xapian) (documents : List Bytes) (inputFilename f : Bytes)
    (es : List (Event C)) (hsound : ∀ lookup, .dispatch lookup ∈ es → Sound lookup) :
    let p := run (Process.step x) (start documents inputFilename (ofFile f)) es
    ∀ c q r, (c, q, r) ∈ p.net.delivered → ascii "db q" <+: q →
      r = [] ∨ ∃ v ∈ p.views, v <+: p.committed ∧ v <+: documents ++ handedDocuments f
        ∧ (Spaced (fileLines f) → v <+: documents ++ paragraphs newline (fileLines f))
        ∧ ∃ ms : MSet, r = ms.text ∧ ∀ m ∈ ms.matches_, m.data ∈ v := by
  intro p c q r hdelivered hq
  have hrecorded : Recorded es p := recorded_run x documents inputFilename (ofFile f) es
  have hseen : Seen x documents inputFilename f p := seen_run x documents inputFilename f es
  obtain ⟨v, hv, lookup, hlookup, hr⟩ : ∃ v ∈ p.views, AnsweredOn es (c, q, r) v := by
    obtain ⟨⟨i, hi⟩, hget⟩ := List.mem_iff_get.mp (hrecorded.inv.net.answered hdelivered)
    have hlt : i < p.views.length := hrecorded.views.length_eq ▸ hi
    exact ⟨p.views.get ⟨i, hlt⟩, List.get_mem _ _, hget ▸ hrecorded.views.get hi hlt⟩
  rcases reply?_query hq hr with hnil | ⟨ms, hms, htext⟩
  · exact .inl hnil
  · right
    obtain ⟨n, hn⟩ := hseen.snapshots v hv
    have hhanded : v <+: documents ++ handedDocuments f := by
      rw [hn]
      exact (List.prefix_append_right_inj documents).mpr (List.take_prefix n _)
    refine ⟨v, hv, hseen.seen v hv, hhanded, ?_, ms, htext,
      hsound lookup hlookup v _ ms hms⟩
    intro hspaced
    rw [← (handedDocuments_eq_iff f).mpr hspaced]
    exact hhanded

/-- Whatever is asked, the first document is found. -/
def firstFound (docs : List Bytes) : Search := fun _ =>
  .ok ⟨1, (docs.take 1).map fun data => ⟨0, "1", 1, data⟩⟩

theorem sound_firstFound : Sound firstFound := by
  intro docs text ms hms m hm
  cases hms
  obtain ⟨data, hdata, rfl⟩ := List.mem_map.mp hm
  exact List.mem_of_mem_take hdata

/-- A file of two paragraphs is indexed, and then a client searches it. -/
def searchTwo : List (Event Nat) :=
  List.replicate 9 .index
    ++ [.send 0 (ascii "db q ab"), .recv 0, .dispatch firstFound, .deliver 0]

theorem run_quotes_two :
    (∀ lookup, .dispatch lookup ∈ searchTwo → Sound lookup)
      ∧ ∃ v, v <+: [] ++ paragraphs newline (fileLines (ascii "ab\n\n\n\ncd"))
        ∧ ∃ ms : MSet, dbQuery (firstFound [ascii "ab"]) (ascii "db q ab") = ms.text
          ∧ ∀ m ∈ ms.matches_, m.data ∈ v := by
  have hsound : ∀ lookup, .dispatch lookup ∈ searchTwo → Sound lookup := by
    intro lookup h
    simp only [searchTwo, List.mem_append, List.mem_replicate, List.mem_cons,
      Event.dispatch.injEq, reduceCtorEq, List.not_mem_nil, and_false, or_false, false_or] at h
    exact h ▸ sound_firstFound
  refine ⟨hsound, ?_⟩
  have h := run_quotes (.healthy fun _ => false) [] (ascii "a.txt") (ascii "ab\n\n\n\ncd")
    searchTwo hsound 0 (ascii "db q ab") (dbQuery (firstFound [ascii "ab"]) (ascii "db q ab"))
    (List.mem_singleton.mpr rfl) (by decide)
  rcases h with h | ⟨v, -, -, -, hprefix, hms⟩
  · exact absurd h (by decide)
  · exact ⟨v, hprefix spaced_twoParagraphs, hms⟩

end Process

end Neroshop.Daemon
