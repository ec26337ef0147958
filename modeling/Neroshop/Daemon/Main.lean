import Neroshop.Daemon.Snapshots

/-!
# Daemon — the command line

`daemon.cpp`: `main`, from the parsed options to the threads it starts, and
what a daemon started with them ever stores. Of the options `port`, `db` and
`input` the first one that is given is the only one that counts.

`Options.threads` is `main` up to its threads, and `main_stores_iff` says when
some run of these changes what is stored. A database that is named by `db` is
only read, and neither a `port` nor a `db` goes together with an `input`.
-/

namespace Neroshop.Daemon

open Lib.CStr Lib.Runs Lib.Loop
open Lib.IStream (Stream ofFile)
open Neroshop.Db

/-- The options that boost has found. -/
structure Options where
  help : Bool
  version : Bool
  detach : Bool
  port : Option Int
  db : Option Bytes
  input : Option Bytes

/-- How `main` goes on. -/
inductive Launch where
  -- it returns `EXIT_SUCCESS`, or `EXIT_FAILURE`
  | exit (success : Bool)
  -- it starts the two threads
  | threads (dbName : Bytes) (serverPort : Int) (inputFilename : Bytes)
  deriving DecidableEq

/-- The threads, with the arguments that the options leave them. -/
def Options.threads (o : Options) : Launch :=
  match o.port with
  | some port => .threads (ascii "neroshop.db") port []
  | none =>
      match o.db with
      | some db => .threads db 55090 []
      | none =>
          match o.input with
          | some input => .threads (ascii "neroshop.db") 55090 input
          | none => .threads (ascii "neroshop.db") 55090 []

/-- `parsed` is `none` when the parser throws; `pid` is what `fork` returns and
`sid` what `setsid` returns. -/
def main (parsed : Option Options) (pid sid : Int) : Launch :=
  match parsed with
  | none => .exit false
  | some o =>
      if o.help then .exit true
      else if o.version then .exit true
      else if o.detach then
        if pid > 0 then .exit true
        else if pid < 0 then .exit false
        else if sid < 0 then .exit false
        else o.threads
      else o.threads

/-- `std::ifstream`, on what the file of that name holds; `none` cannot be
opened. -/
def opened : Option Bytes → Stream
  | some f => ofFile f
  | none => { ofFile [] with fail := true }

variable {C : Type} [DecidableEq C]

/-- The process in front of its threads' first steps. -/
def Launch.process (databases : Bytes → List Bytes) (files : Bytes → Option Bytes) :
    Launch → Option (Process C)
  | .exit _ => none
  | .threads dbName _ inputFilename =>
      some (.start (databases dbName) inputFilename (opened (files inputFilename)))

/-- `main` gets as far as its threads. -/
def Options.Runs (o : Options) (pid sid : Int) : Prop :=
  o.help = false ∧ o.version = false ∧ (o.detach = true → pid = 0 ∧ 0 ≤ sid)

/-- The input option counts. -/
def Options.Indexes (o : Options) (name : Bytes) : Prop :=
  o.port = none ∧ o.db = none ∧ o.input = some name

/-! ## The options -/

variable {parsed : Option Options} {pid sid : Int} {dbName inputFilename : Bytes}
  {serverPort : Int}

theorem threads_eq_iff {o : Options} (hinput : inputFilename ≠ []) :
    o.threads = .threads dbName serverPort inputFilename
      ↔ o.Indexes inputFilename ∧ dbName = ascii "neroshop.db" ∧ serverPort = 55090 := by
  unfold Options.threads Options.Indexes
  split
  · next port hport => simp [hport, hinput.symm]
  · next hport =>
      split
      · next db hdb => simp [hdb, hinput.symm]
      · next hdb =>
          split
          · next input hin =>
              simp only [hport, hdb, hin, Launch.threads.injEq, Option.some.injEq, true_and]
              constructor
              · rintro ⟨rfl, rfl, rfl⟩
                exact ⟨rfl, rfl, rfl⟩
              · rintro ⟨rfl, rfl, rfl⟩
                exact ⟨rfl, rfl, rfl⟩
          · next hin => simp [hin, hinput.symm]

theorem main_eq (o : Options) (pid sid : Int) (hruns : o.Runs pid sid) :
    main (some o) pid sid = o.threads := by
  obtain ⟨hhelp, hversion, hdetach⟩ := hruns
  simp only [main, hhelp, hversion, Bool.false_eq_true, if_false]
  split
  · next h =>
      obtain ⟨rfl, hsid⟩ := hdetach h
      rw [if_neg (by omega), if_neg (by omega), if_neg (by omega)]
  · rfl

theorem runs_of_main {o : Options}
    (h : main (some o) pid sid = .threads dbName serverPort inputFilename) :
    o.Runs pid sid := by
  unfold main at h
  dsimp only at h
  split at h
  · cases h
  · next hhelp =>
      split at h
      · cases h
      · next hversion =>
          refine ⟨Bool.eq_false_iff.mpr hhelp, Bool.eq_false_iff.mpr hversion, ?_⟩
          intro hdetach
          rw [if_pos hdetach] at h
          split at h
          · cases h
          · split at h
            · cases h
            · split at h
              · cases h
              · exact ⟨by omega, by omega⟩

/-- `input` gives the database thread a file exactly when it comes without
`port` and `db`. -/
theorem main_eq_threads_iff (hinput : inputFilename ≠ []) :
    main parsed pid sid = .threads dbName serverPort inputFilename
      ↔ ∃ o, parsed = some o ∧ o.Runs pid sid ∧ o.Indexes inputFilename
        ∧ dbName = ascii "neroshop.db" ∧ serverPort = 55090 := by
  constructor
  · intro h
    cases parsed with
    | none => cases h
    | some o =>
        have hruns := runs_of_main h
        rw [main_eq o pid sid hruns] at h
        exact ⟨o, rfl, hruns, (threads_eq_iff hinput).mp h⟩
  · rintro ⟨o, rfl, hruns, hrest⟩
    rw [main_eq o pid sid hruns]
    exact (threads_eq_iff hinput).mpr hrest

/-! ## The database thread by itself -/

variable {x : Xapian} {documents : List Bytes} {f : Bytes} {s : Indexing} {l : Left}

/-- The loop, from where it is: it commits nothing that does not stay, and what
it leaves is what `index_db` leaves. -/
theorem Indexer.At.looped {fuel : Nat}
    (h : (Indexer.indexing s).At x documents inputFilename f)
    (hloop : loop (indexTurn x) fuel s = some l) :
    s.db.committed <+: (finish x l).documents
      ∧ indexDb x (f.length + 3) documents inputFilename (ofFile f)
        = some ⟨none, (finish x l).documents⟩ := by
  induction fuel generalizing s with
  | zero => cases hloop
  | succ fuel ih =>
      have hturn := h.turn
      cases hb : indexTurn x s with
      | next s' =>
          rw [hb] at hturn
          rw [loop_next hb] at hloop
          obtain ⟨hgrows, heq⟩ := ih hturn.1 hloop
          exact ⟨hturn.2.trans hgrows, heq⟩
      | leave a =>
          rw [hb] at hturn
          rw [loop_leave hb] at hloop
          cases hloop
          exact ⟨hturn.2, hturn.1.2⟩

theorem Indexer.At.loop_ends (h : (Indexer.indexing s).At x documents inputFilename f) :
    ∃ fuel l, loop (indexTurn x) fuel s = some l := by
  obtain ⟨-, -, hread, -⟩ := h
  exact ⟨_, _, loop_eq x hread (Nat.le_refl _)⟩

namespace Process

variable {p : Process C}

theorem step_done {docs : List Bytes} (hinv : p.Inv) (h : p.indexer = .done docs)
    (e : Event C) : (p.step x e).indexer = .done docs := by
  have hdoes := hinv.does x e
  generalize p.step x e = p' at hdoes
  cases hdoes with
  | indexes _ hindex =>
      rw [h] at hindex
      cases hindex
      rfl
  | _ => exact h

theorem run_done {docs : List Bytes} (hinv : p.Inv) (h : p.indexer = .done docs)
    (es : List (Event C)) : (run (Process.step x) p es).indexer = .done docs := by
  have hstep : ∀ (p : Process C) e, p.Inv ∧ p.indexer = .done docs →
      (p.step x e).Inv ∧ (p.step x e).indexer = .done docs := by
    intro p e h
    exact ⟨h.1.step x e, step_done h.1 h.2 e⟩
  exact (run_inv hstep ⟨hinv, h⟩ es).2

/-- Nothing but steps of the database thread, until it has ended. -/
theorem run_index {fuel : Nat} (hinv : p.Inv) (habort : p.aborted = none)
    (hp : p.indexer = .indexing s) (hloop : loop (indexTurn x) fuel s = some l) :
    (run (Process.step x) p (List.replicate fuel .index)).indexer
      = .done (finish x l).documents := by
  induction fuel generalizing p s with
  | zero => cases hloop
  | succ fuel ih =>
      have hstep : p.step x .index = p.index x := by
        show (if p.aborted.isNone then p.index x else p) = _
        rw [habort]
        rfl
      have hinv' := hinv.step x .index
      rw [List.replicate_succ, run_cons]
      rw [hstep] at hinv' ⊢
      cases hb : indexTurn x s with
      | next s' =>
          rw [loop_next hb] at hloop
          have hindex : p.index x = { p with indexer := .indexing s' } := by
            simp only [Process.index, hp, Indexer.step, hb]
          rw [hindex] at hinv' ⊢
          exact ih hinv' habort rfl hloop
      | leave a =>
          rw [loop_leave hb] at hloop
          cases hloop
          have hindex : p.index x = { p with indexer := .done (finish x l).documents } := by
            simp only [Process.index, hp, Indexer.step, hb]
          rw [hindex] at hinv' ⊢
          exact run_done hinv' rfl _

/-- Where the thread is, the database is no further than where `index_db`
leaves it. -/
theorem indexDb_of_at {i : Indexer} (h : i.At x documents inputFilename f)
    (hne : i.committed ≠ documents) :
    ∃ out, indexDb x (f.length + 3) documents inputFilename (ofFile f) = some out
      ∧ out.documents ≠ documents := by
  cases i with
  | opening docs cin => exact absurd h.2.1 hne
  | done docs => exact ⟨⟨none, docs⟩, h.2, hne⟩
  | indexing s =>
      obtain ⟨fuel, l, hloop⟩ := h.loop_ends
      obtain ⟨hgrows, heq⟩ := h.looped hloop
      refine ⟨_, heq, ?_⟩
      intro hsame
      obtain ⟨n, hn⟩ := h.snapshot
      have hle : s.db.committed.length ≤ documents.length := by
        rw [← hsame]
        exact hgrows.length_le
      rw [Indexer.committed] at hn hne
      rw [hn, List.length_append] at hle
      have hnil : (handedDocuments f).take n = [] := List.length_eq_zero_iff.mp (by omega)
      rw [hn, hnil, List.append_nil] at hne
      exact hne rfl

theorem run_of_indexDb {out : Indexed} (hname : inputFilename ≠ [])
    (hout : indexDb x (f.length + 3) documents inputFilename (ofFile f) = some out)
    (hne : out.documents ≠ documents) :
    ∃ es : List (Event C),
      (run (Process.step x) (start documents inputFilename (ofFile f)) es).committed
        = out.documents := by
  unfold indexDb at hout
  rw [if_neg (by simpa using hname)] at hout
  cases hopen : x.openDb with
  | some e =>
      rw [hopen] at hout
      cases hout
      exact absurd rfl hne
  | none =>
      rw [hopen] at hout
      obtain ⟨l, hloop, rfl⟩ := Option.map_eq_some_iff.mp hout
      have hstart : (start documents inputFilename (ofFile f) : Process C).indexer
          = .opening documents (ofFile f) := by
        simp [start, Indexer.start, hname, Stream.good, ofFile]
      have hstep : ((start documents inputFilename (ofFile f) : Process C).step x .index).indexer
          = .indexing ⟨ofFile f, [], 0, 0, ⟨documents, []⟩⟩ := by
        show ((start documents inputFilename (ofFile f) : Process C).index x).indexer = _
        simp only [Process.index, hstart, Indexer.step, hopen]
      have habort : ((start documents inputFilename (ofFile f) : Process C).step x
          .index).aborted = none := by
        show ((start documents inputFilename (ofFile f) : Process C).index x).aborted = none
        simp only [Process.index, hstart, Indexer.step, hopen]
        rfl
      have hinv := (inv_start documents inputFilename (ofFile f) : (start documents
        inputFilename (ofFile f) : Process C).Inv).step x .index
      refine ⟨.index :: List.replicate (f.length + 3) .index, ?_⟩
      rw [run_cons, committed, run_index hinv habort hstep hloop]
      rfl

omit [DecidableEq C] in
/-- Without a file the database thread has nothing to do. -/
theorem start_idle {files : Bytes → Option Bytes}
    (h : inputFilename = [] ∨ files inputFilename = none) :
    (start documents inputFilename (opened (files inputFilename)) : Process C).indexer
      = .done documents := by
  show Indexer.start documents inputFilename (opened (files inputFilename)) = _
  unfold Indexer.start
  rcases h with rfl | hnone
  · rfl
  · rw [hnone]
    split
    · rfl
    · rfl

omit [DecidableEq C] in
theorem committed_start (documents inputFilename f) :
    (start documents inputFilename f : Process C).committed = documents := by
  show (Indexer.start documents inputFilename f).committed = documents
  unfold Indexer.start
  split
  · rfl
  · split
    · rfl
    · rfl

/-- **What the command line decides**: a daemon ever stores something, in some
order of its steps, exactly when it was given `input` and neither `port` nor
`db`, gets as far as its threads, can read the file, and `index_db` stores
something of it in `neroshop.db`. -/
theorem main_stores_iff (x : Xapian) (databases : Bytes → List Bytes)
    (files : Bytes → Option Bytes) (parsed : Option Options) (pid sid : Int) :
    (∃ p : Process C, (main parsed pid sid).process databases files = some p
        ∧ ∃ es, (run (Process.step x) p es).committed ≠ p.committed)
      ↔ ∃ o name f out, parsed = some o ∧ o.Runs pid sid ∧ o.Indexes name ∧ name ≠ []
        ∧ files name = some f
        ∧ indexDb x (f.length + 3) (databases (ascii "neroshop.db")) name (ofFile f) = some out
        ∧ out.documents ≠ databases (ascii "neroshop.db") := by
  constructor
  · rintro ⟨p, hp, es, hne⟩
    cases hmain : main parsed pid sid with
    | exit success =>
        rw [hmain] at hp
        cases hp
    | threads dbName serverPort name =>
        rw [hmain] at hp
        cases hp
        rw [committed_start] at hne
        have hinv := inv_start (C := C) (databases dbName) name (opened (files name))
        have hidle : ¬ (name = [] ∨ files name = none) := by
          intro hidle
          rw [committed, run_done hinv (start_idle hidle) es] at hne
          exact hne rfl
        rw [not_or] at hidle
        obtain ⟨f, hf⟩ := Option.ne_none_iff_exists'.mp hidle.2
        obtain ⟨o, ho, hruns, hindexes, rfl, -⟩ := (main_eq_threads_iff hidle.1).mp hmain
        rw [hf] at hne
        obtain ⟨out, hout, hstored⟩ :=
          indexDb_of_at (seen_run x _ name f es).indexer hne
        exact ⟨o, name, f, out, ho, hruns, hindexes, hidle.1, hf, hout, hstored⟩
  · rintro ⟨o, name, f, out, ho, hruns, hindexes, hname, hf, hout, hstored⟩
    have hmain : main parsed pid sid = .threads (ascii "neroshop.db") 55090 name :=
      (main_eq_threads_iff hname).mpr ⟨o, ho, hruns, hindexes, rfl, rfl⟩
    obtain ⟨es, hes⟩ := run_of_indexDb (C := C) hname hout hstored
    refine ⟨_, by rw [hmain]; rfl, es, ?_⟩
    rw [committed_start, hf]
    show (run (Process.step x) (start _ name (ofFile f)) es).committed ≠ _
    rw [hes]
    exact hstored

end Process

end Neroshop.Daemon
