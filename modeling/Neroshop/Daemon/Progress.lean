import Neroshop.Daemon.Process

/-!
# Daemon — progress and starvation

How far the messages of the clients get: every request is served after three
steps with it, whatever else the process does, unless the dispatch leaves one
without a reply.

* `run_progress`: each accepted request takes three message steps (it is received,
  dispatched and delivered), and as long as some are left to take there is one
  that can be taken.
* `run_starved`: after a request without a reply nobody is served any more, and
  the next `recv` ends the process.
-/

namespace Neroshop.Daemon

open Lib.CStr Lib.Runs
open Lib.IStream (Stream ofFile)
open Lib.ReqRep (Net exchanges)
open Neroshop.Db

namespace Process

variable {C : Type} [DecidableEq C] {p p' : Process C} {x : Xapian} {e : Event C}
  {es : List (Event C)}

/-! ## Progress -/

/-- The step takes a request, dispatches it or delivers a reply. -/
def Moves (p : Process C) : Event C → Prop
  | .recv k => p.request = none ∧ k < p.net.requests.length
  | .dispatch _ => p.request ≠ none
  | .deliver k => k < p.net.replies.length
  | _ => False

instance (p : Process C) : (e : Event C) → Decidable (Moves p e)
  | .recv k => inferInstanceAs (Decidable (p.request = none ∧ k < p.net.requests.length))
  | .dispatch _ => inferInstanceAs (Decidable (p.request ≠ none))
  | .deliver k => inferInstanceAs (Decidable (k < p.net.replies.length))
  | .send _ _ => .isFalse id
  | .index => .isFalse id

/-- The client's socket takes the request. -/
def Accepted (p : Process C) : Event C → Prop
  | .send c _ => p.net.waiting c = none
  | _ => False

instance (p : Process C) : (e : Event C) → Decidable (Accepted p e)
  | .send c _ => inferInstanceAs (Decidable (p.net.waiting c = none))
  | .recv _ => .isFalse id
  | .dispatch _ => .isFalse id
  | .deliver _ => .isFalse id
  | .index => .isFalse id

/-- The process runs, and its server thread is in service. -/
structure Up (p : Process C) : Prop where
  service : InService p
  running : p.aborted = none

theorem work_send (p : Process C) (c : C) (m : Bytes) :
    (p.step x (.send c m)).net.work
      = p.net.work + 3 * if Accepted p (.send c m) then 1 else 0 := by
  rw [Process.step]
  cases hc : p.net.waiting c with
  | some m' => simp [Net.send, Accepted, hc]
  | none =>
      simp only [Net.send, Accepted, hc, if_true, Net.work, List.length_append,
        List.length_singleton]
      omega

theorem work_deliver (p : Process C) (k : Nat) :
    (p.step x (.deliver k)).net.work + (if Moves p (.deliver k) then 1 else 0)
      = p.net.work := by
  show (p.net.deliver k).work + (if k < p.net.replies.length then 1 else 0) = _
  split
  case isTrue hk => exact Net.work_deliver hk
  case isFalse hk =>
    rw [Net.deliver, List.getElem?_eq_none (Nat.le_of_not_lt hk), Nat.add_zero]

theorem Up.work_recv (h : p.Up) (k : Nat) :
    (p.step x (.recv k)).net.work + (if Moves p (.recv k) then 1 else 0)
      = p.net.work := by
  have hmoves : Moves p (.recv k) ↔ p.request = none ∧ k < p.net.requests.length := Iff.rfl
  rw [Process.step, h.running]
  cases hrequest : p.request with
  | some q => simp [hmoves, hrequest]
  | none =>
      have howing := h.service.idle hrequest
      by_cases hk : k < p.net.requests.length
      · obtain ⟨net, hrecv, hwork⟩ := Net.work_recv howing hk
        simp only [hmoves, hrequest, hk, and_self, Option.isNone_none, Bool.and_self, if_true,
          Process.recv, hrecv]
        exact hwork
      · simp [hmoves, hk, Process.recv, Net.recv, howing]

theorem Up.work_dispatch (h : p.Up) (lookup : List Bytes → Search) :
    (p.step x (.dispatch lookup)).net.work + (if Moves p (.dispatch lookup) then 1 else 0)
      = p.net.work := by
  have hmoves : Moves p (.dispatch lookup) ↔ p.request ≠ none := Iff.rfl
  cases hq : p.request with
  | none => simp [Process.step, hmoves, hq]
  | some q =>
      obtain ⟨c, howing⟩ := h.service.inv.sender hq
      have hsome := (reply?_isSome_iff (lookup p.committed) q).mpr (h.service.request q hq)
      obtain ⟨r, hr⟩ := Option.isSome_iff_exists.mp hsome
      obtain ⟨net, hreply, hwork⟩ := Net.work_reply howing r
      simp only [Process.step, hq, h.running, Option.isNone_none, if_true, dispatch,
        dispatched_eq (h.service.inv.owing q hq), hr, respond, hreply, hmoves, ne_eq,
        reduceCtorEq, not_false_eq_true]
      exact hwork

omit [DecidableEq C] in
theorem net_index (x : Xapian) (p : Process C) : (p.index x).net = p.net := by
  unfold Process.index
  split <;> rfl

/-- A request that is sent costs three steps: it is taken, dispatched, and its
reply delivered. -/
theorem Up.work_step (h : p.Up) (x : Xapian) (e : Event C) :
    (p.step x e).net.work + (if Moves p e then 1 else 0)
      = p.net.work + 3 * if Accepted p e then 1 else 0 := by
  cases e with
  | send c m => exact work_send p c m
  | recv k => exact h.work_recv k
  | dispatch lookup => exact h.work_dispatch lookup
  | deliver k => exact work_deliver p k
  | index =>
      have hnet : (p.step x .index).net = p.net := by
        rw [Process.step, h.running]
        exact net_index x p
      rw [hnet]
      rfl

theorem Indexer.step_ok (hopen : x.openDb = none) (i : Indexer) :
    ∃ i', i.step x = .ok i' := by
  cases i with
  | opening documents cin => exact ⟨_, by rw [Indexer.step, hopen]⟩
  | indexing s =>
      rw [Indexer.step]
      split <;> exact ⟨_, rfl⟩
  | done documents => exact ⟨_, rfl⟩

theorem Up.of_does (h : p.Up) (hopen : x.openDb = none) (hdoes : Does x p e p')
    (he : ∀ c m, e = .send c m → Answered m) : p'.Up := by
  refine ⟨h.service.of_does hdoes he, ?_⟩
  cases hdoes with
  | faults _ hrequest howing =>
      rw [h.service.idle hrequest] at howing
      cases howing
  | fails _ hindex =>
      obtain ⟨i, hi⟩ := Indexer.step_ok hopen p.indexer
      rw [hi] at hindex
      cases hindex
  | stays => exact h.running
  | sends => exact h.running
  | delivers => exact h.running
  | takes => exact h.running
  | ignores => exact h.running
  | answers => exact h.running
  | indexes => exact h.running

/-- A client waits exactly while some step moves a message. -/
theorem Up.waiting_iff (h : p.Up) : (∃ e, Moves p e) ↔ ∃ c, p.net.waiting c ≠ none := by
  rw [← h.service.inv.net.busy_iff]
  constructor
  · intro hmoves
    obtain ⟨e, he⟩ := hmoves
    have haccepted : ¬ Accepted p e := by
      cases e with
      | send => exact he.elim
      | recv => exact id
      | dispatch => exact id
      | deliver => exact id
      | index => exact id
    have hstep := h.work_step (.healthy fun _ => false) e
    rw [if_pos he, if_neg haccepted] at hstep
    omega
  · intro hwork
    by_cases hq : p.request = none
    · by_cases hrequests : p.net.requests = []
      · refine ⟨.deliver 0, ?_⟩
        simp only [Net.work, hrequests, h.service.idle hq, Option.toList_none,
          List.length_nil] at hwork
        show 0 < p.net.replies.length
        omega
      · exact ⟨.recv 0, hq, List.length_pos_iff.mpr hrequests⟩
    · exact ⟨.dispatch fun _ _ => .error ⟨""⟩, hq⟩

/-- The steps of a run that move a message. -/
def moves (x : Xapian) (s : Process C) (es : List (Event C)) : Nat :=
  total (Process.step x) (fun p e => if Moves p e then 1 else 0) s es

/-- The requests that the sockets of the clients accept in a run. -/
def accepted (x : Xapian) (s : Process C) (es : List (Event C)) : Nat :=
  total (Process.step x) (fun p e => if Accepted p e then 1 else 0) s es

/-- **Progress**: while the database opens and no client sends a request
without an answer, the process stays up. A run makes at most three steps for
each request, and as long as it has made fewer, some client waits and such a
step is possible; a client that does not wait has all its replies. -/
theorem run_progress (x : Xapian) (hopen : x.openDb = none) (documents : List Bytes)
    (inputFilename : Bytes) (f : Stream) (es : List (Event C))
    (hsent : ∀ c m, .send c m ∈ es → Answered m) :
    let s : Process C := start documents inputFilename f
    let p := run (Process.step x) s es
    p.aborted = none
      ∧ moves x s es ≤ 3 * accepted x s es
      ∧ ((∃ e, Moves p e) ↔ moves x s es < 3 * accepted x s es)
      ∧ ((∃ c, p.net.waiting c ≠ none) ↔ moves x s es < 3 * accepted x s es)
      ∧ ∀ c, p.net.waiting c = none →
        exchanges c p.net.delivered = exchanges c p.net.answered := by
  intro s p
  have hall : Along (Process.step x) (fun _ e => ∀ c m, e = .send c m → Answered m) s es :=
    along_const_iff.mpr fun e he c m heq => hsent c m (heq ▸ he)
  have hstart : Up s := ⟨inService_start documents inputFilename f, rfl⟩
  have hstep : ∀ (p : Process C) e, Up p → (∀ c m, e = .send c m → Answered m) →
      Up (Process.step x p e) := by
    intro p e h he
    exact h.of_does hopen (h.service.inv.does x e) he
  have hup : Up p := hall.run_inv hstep hstart
  have hledger : p.net.work + moves x s es = 3 * accepted x s es := by
    let work : Process C → Nat := fun p => p.net.work
    have hone : ∀ (p : Process C) e, Up p → (∀ c m, e = .send c m → Answered m) →
        work (p.step x e) + (if Moves p e then 1 else 0)
          = work p + 3 * if Accepted p e then 1 else 0 := fun p e h _ => h.work_step x e
    have hbalance := hall.total_balance hstep hone hstart
    rw [total_mul] at hbalance
    exact hbalance.trans (Nat.zero_add _)
  have hbusy : (∃ c, p.net.waiting c ≠ none) ↔ moves x s es < 3 * accepted x s es := by
    rw [← hup.service.inv.net.busy_iff]
    omega
  refine ⟨hup.running, by omega, ?_, hbusy, ?_⟩
  · rw [hup.waiting_iff]
    exact hbusy
  · intro c hc
    obtain ⟨missing, hanswered, -, hnone⟩ := hup.service.inv.net.received c
    rw [hanswered, hnone hc, List.append_nil]

theorem run_progress_two :
    (Xapian.healthy fun _ => false).openDb = none
      ∧ (∀ c m, .send c m ∈ ([.send 0 (ascii "co"), .send 1 (ascii "db q tea"), .recv 1] :
          List (Event Nat)) → Answered m)
      ∧ ∃ e, Moves (run (Process.step (.healthy fun _ => false)) (start [] [] (ofFile []))
          [.send 0 (ascii "co"), .send 1 (ascii "db q tea"), .recv 1]) e := by
  have hsent : ∀ c m, .send c m ∈ ([.send 0 (ascii "co"), .send 1 (ascii "db q tea"),
      .recv 1] : List (Event Nat)) → Answered m := by
    intro c m h
    simp only [List.mem_cons, Event.send.injEq, reduceCtorEq, List.not_mem_nil, or_false]
      at h
    rcases h with ⟨-, rfl⟩ | ⟨-, rfl⟩
    · exact fun _ => by contradiction
    · exact fun _ => .inl (by decide)
  refine ⟨rfl, hsent, ?_⟩
  obtain ⟨-, -, hmoves, -, -⟩ := run_progress (.healthy fun _ => false) rfl [] []
    (ofFile []) _ hsent
  exact hmoves.mpr (by decide)

/-! ## A request without an answer -/

/-- The dispatch has left the request of the client without a reply. -/
structure Stuck (c : C) (q : Bytes) (p : Process C) : Prop where
  inv : p.Inv
  owing : p.net.owing = some (c, q)
  request : p.request = none

variable {c : C} {q : Bytes}

theorem Stuck.of_does (h : Stuck c q p) (hdoes : Does x p e p') :
    Stuck c q p' ∧ p'.net.answered = p.net.answered := by
  have hinv := h.inv.of_does hdoes
  cases hdoes with
  | stays => exact ⟨h, rfl⟩
  | sends hsend =>
      obtain ⟨-, howing, hanswered⟩ := send_eq hsend
      exact ⟨⟨hinv, howing.trans h.owing, h.request⟩, hanswered⟩
  | delivers =>
      obtain ⟨-, howing, hanswered⟩ := deliver_eq p.net _
      exact ⟨⟨hinv, howing.trans h.owing, h.request⟩, hanswered⟩
  | faults => exact ⟨⟨hinv, h.owing, h.request⟩, rfl⟩
  | takes _ howing =>
      rw [h.owing] at howing
      cases howing
  | ignores _ hrequest =>
      rw [h.request] at hrequest
      cases hrequest
  | answers _ hrequest =>
      rw [h.request] at hrequest
      cases hrequest
  | fails => exact ⟨⟨hinv, h.owing, h.request⟩, rfl⟩
  | indexes => exact ⟨⟨hinv, h.owing, h.request⟩, rfl⟩

/-- The next `recv` ends the process. -/
theorem Stuck.recv (h : Stuck c q p) (x : Xapian) (k : Nat) :
    (p.step x (.recv k)).aborted ≠ none := by
  rw [Process.step]
  split
  case isTrue => simp [Process.recv, Net.recv, h.owing]
  case isFalse habort =>
    intro hnone
    exact habort (by simp [hnone, h.request])

theorem aborted_of_does (h : p.aborted ≠ none) (hdoes : Does x p e p') : p'.aborted ≠ none := by
  cases hdoes with
  | stays => exact h
  | sends => exact h
  | delivers => exact h
  | faults => nofun
  | takes => exact h
  | ignores => exact h
  | answers => exact h
  | fails => nofun
  | indexes => exact h

theorem Stuck.run (h : Stuck c q p) (x : Xapian) (es : List (Event C)) :
    Stuck c q (run (Process.step x) p es)
      ∧ (run (Process.step x) p es).net.answered = p.net.answered
      ∧ (∀ k, .recv k ∈ es → (run (Process.step x) p es).aborted ≠ none) := by
  induction es generalizing p with
  | nil => exact ⟨h, rfl, nofun⟩
  | cons e es ih =>
      obtain ⟨hstuck, hanswered⟩ := h.of_does (h.inv.does x e)
      obtain ⟨hrun, heq, hrecv⟩ := ih hstuck
      refine ⟨hrun, heq.trans hanswered, ?_⟩
      intro k hk
      rcases List.mem_cons.mp hk with rfl | hk
      · have hdown := h.recv x k
        have hkept : ∀ (p : Process C) e, p.Inv ∧ p.aborted ≠ none →
            (Process.step x p e).Inv ∧ (Process.step x p e).aborted ≠ none := by
          intro p e hp
          exact ⟨hp.1.step x e, aborted_of_does hp.2 (hp.1.does x e)⟩
        exact (run_inv hkept ⟨hstuck.inv, hdown⟩ es).2
      · exact hrecv k hk

/-- **Starvation**: a request that starts with `db` and goes on in another way
than as a query or an addition stops the server for everybody. Whatever the
clients, the threads and the network do after its dispatch, no client gets a
reply that was not answered before, the sender waits for ever, and the next
`recv` ends the process. -/
theorem run_starved (x : Xapian) (documents : List Bytes) (inputFilename : Bytes)
    (f : Stream) (es es' : List (Event C)) (lookup : List Bytes → Search) (q : Bytes)
    (hq : ¬ Answered q) :
    let p := run (Process.step x) (start documents inputFilename f : Process C) es
    let p' := run (Process.step x) p (.dispatch lookup :: es')
    p.request = some q → p.aborted = none →
      (∀ d, exchanges d p'.net.delivered <+: exchanges d p.net.answered)
        ∧ (∃ c, p.net.owing = some (c, q) ∧ p'.net.waiting c = some q)
        ∧ ∀ k, .recv k ∈ es' → p'.aborted ≠ none := by
  intro p p' hrequest habort
  have hinv : p.Inv := inv_run (inv_start documents inputFilename f) x es
  obtain ⟨c, howing⟩ := hinv.sender hrequest
  have hr : reply? (lookup p.committed) q = none := by
    rw [← Option.not_isSome_iff_eq_none, reply?_isSome_iff]
    exact hq
  have hstep : p.step x (.dispatch lookup) = { p with request := none } := by
    simp only [Process.step, hrequest, habort, Option.isNone_none, if_true, dispatch,
      dispatched_eq (hinv.owing q hrequest), hr]
  have hstuck : Stuck c q (p.step x (.dispatch lookup)) := by
    rw [hstep]
    refine ⟨⟨hinv.net, ?_⟩, howing, rfl⟩
    intro q' hq'
    cases hq'
  obtain ⟨hend, hanswered, hrecv⟩ := hstuck.run x es'
  have hsame : p'.net.answered = p.net.answered := hanswered.trans (by rw [hstep])
  refine ⟨?_, ⟨c, howing, hend.inv.net.owed (c, q) hend.owing⟩, hrecv⟩
  intro d
  obtain ⟨missing, hmissing, -, -⟩ := hend.inv.net.received d
  rw [← hsame]
  exact ⟨missing, hmissing.symm⟩

theorem run_starved_two :
    ¬ Answered (ascii "db")
      ∧ ∀ es' : List (Event Nat), ∃ c,
        (run (Process.step (.healthy fun _ => false)) (start [] [] (ofFile []))
          ([.send 0 (ascii "db"), .send 1 (ascii "co"), .recv 0]
            ++ .dispatch (fun _ _ => .error ⟨"no database"⟩) :: es')).net.waiting c
          = some (ascii "db") := by
  have hq : ¬ Answered (ascii "db") := by
    intro h
    exact absurd (h (List.prefix_refl _)) (by decide)
  refine ⟨hq, ?_⟩
  intro es'
  obtain ⟨-, ⟨c, -, hwaiting⟩, -⟩ := run_starved (.healthy fun _ => false) [] [] (ofFile [])
    ([.send 0 (ascii "db"), .send 1 (ascii "co"), .recv 0] : List (Event Nat)) es'
    (fun _ _ => .error ⟨"no database"⟩) (ascii "db") hq rfl rfl
  refine ⟨c, ?_⟩
  rw [run_append]
  exact hwaiting

end Process

end Neroshop.Daemon
