import Neroshop.Daemon.Server
import Neroshop.Db.Documents
import Neroshop.Lib.ReqRep

/-!
# Daemon — the process and its clients

`daemon.cpp`: the two threads that `main` starts, `run_server` and
`run_database`, with the clients of the server, in any order of their steps.
The server thread is in front of `recv` or in front of `interpret_query`. An
exception that leaves a thread ends the process. What Xapian finds is part of
the step that asks it; it sees the documents committed at that moment.

The runs start behind the `bind` of the server's socket. A `bind` that throws
leaves the server thread too, and ends the process before it has answered
anybody.

* `Process.step`: one step of a client, a thread or the network.
* `Inv` and `Does`: what a step keeps, and what it can do.
* `run_exchanges`: whose replies the clients get, and what is in them.
-/

namespace Neroshop.Daemon

open Lib.CStr Lib.Runs Lib.Loop
open Lib.Rep (Socket)
open Lib.ReqRep (Net)
open Lib.IStream (Stream ofFile)
open Neroshop.Db

/-- The database thread. -/
inductive Indexer where
  -- in front of `index_db`
  | opening (documents : List Bytes) (cin : Stream)
  | indexing (s : Indexing)
  -- `run_database` has returned
  | done (documents : List Bytes)

/-- `run_database`, up to the call of `index_db`. -/
def Indexer.start (documents : List Bytes) (inputFilename : Bytes) (f : Stream) : Indexer :=
  if inputFilename.isEmpty then .done documents
  else if !f.good then .done documents
  else .opening documents f

/-- What a query finds in the database. -/
def Indexer.committed : Indexer → List Bytes
  | .opening documents _ => documents
  | .indexing s => s.db.committed
  | .done documents => documents

/-- One step of the thread; the exception is the one that `index_db` lets
escape. -/
def Indexer.step (x : Xapian) : Indexer → Except XapianError Indexer
  | .opening documents cin =>
      match x.openDb with
      | some e => .error e
      | none => .ok (.indexing ⟨cin, [], 0, 0, ⟨documents, []⟩⟩)
  | .indexing s =>
      match indexTurn x s with
      | .next s' => .ok (.indexing s')
      | .leave l => .ok (.done (finish x l).documents)
  | .done documents => .ok (.done documents)

/-- The exception that ended the process, by the thread it left. -/
inductive Abort where
  | server (f : Fault)
  | database (e : XapianError)

/-- The process with its two threads, and the network with its clients. -/
structure Process (C : Type) where
  net : Net C Bytes
  -- the request in front of `interpret_query`
  request : Option Bytes
  indexer : Indexer
  aborted : Option Abort
  -- the committed documents at each reply
  views : List (List Bytes)

/-- A step of a client, of a thread or of the network. -/
inductive Event (C : Type) where
  -- a client sends a request
  | send (c : C) (m : Bytes)
  -- `socket.recv` in `run_server`
  | recv (k : Nat)
  -- `interpret_query`, with what Xapian finds in the committed documents
  | dispatch (lookup : List Bytes → Search)
  -- a reply arrives
  | deliver (k : Nat)
  -- a step of the database thread
  | index

/-- What the dispatch sends on the socket, if it sends anything. -/
def dispatched (search : Search) (q : Bytes) (s : Socket Bytes) :
    Except Fault (Option Bytes) :=
  (interpretQuery search q s).map fun (_, s') =>
    (s'.exchanges.drop s.exchanges.length).head?.map Prod.snd

variable {C : Type} [DecidableEq C]

namespace Process

/-- The socket of the server is bound, and the threads start. -/
def start (documents : List Bytes) (inputFilename : Bytes) (f : Stream) : Process C :=
  ⟨.start, none, .start documents inputFilename f, none, []⟩

/-- What a query finds in the database. -/
def committed (p : Process C) : List Bytes := p.indexer.committed

/-- The server thread takes a request. -/
def recv (p : Process C) (k : Nat) : Process C :=
  match p.net.recv k with
  | none => { p with aborted := some (.server .socketState) }
  | some net => { p with net := net, request := net.owing.map Prod.snd }

/-- The reply goes to the sender of the request. -/
def respond (p : Process C) (r : Bytes) : Process C :=
  match p.net.reply r with
  | none => { p with aborted := some (.server .socketState) }
  | some net => { p with net := net, request := none, views := p.views ++ [p.committed] }

/-- The server thread answers its request, if there is an answer. -/
def dispatch (p : Process C) (lookup : List Bytes → Search) (q : Bytes) : Process C :=
  match dispatched (lookup p.committed) q p.net.server with
  | .error f => { p with aborted := some (.server f) }
  | .ok none => { p with request := none }
  | .ok (some r) => p.respond r

/-- A step of the database thread. -/
def index (x : Xapian) (p : Process C) : Process C :=
  match p.indexer.step x with
  | .error e => { p with aborted := some (.database e) }
  | .ok indexer => { p with indexer := indexer }

/-- The threads stop with the process. Its clients and the network do not. -/
def step (x : Xapian) (p : Process C) : Event C → Process C
  | .send c m =>
      match p.net.send c m with
      | none => p
      | some net => { p with net := net }
  | .deliver k => { p with net := p.net.deliver k }
  | .recv k => if p.aborted.isNone && p.request.isNone then p.recv k else p
  | .dispatch lookup =>
      match p.request with
      | none => p
      | some q => if p.aborted.isNone then p.dispatch lookup q else p
  | .index => if p.aborted.isNone then p.index x else p

end Process

/-! ## What a step can do -/

/-- The dispatch answers the request that the socket owes a reply to. -/
theorem dispatched_eq {search : Search} {q : Bytes} {s : Socket Bytes}
    (hs : s.pending = some q) : dispatched search q s = .ok (reply? search q) := by
  obtain ⟨exchanges, pending⟩ := s
  obtain rfl : pending = some q := hs
  rw [dispatched, interpretQuery_eq]
  cases reply? search q with
  | none => simp [Except.map]
  | some r => simp [send, Except.map]

namespace Process

/-- What every run keeps of the network and of the server thread. -/
structure Inv (p : Process C) : Prop where
  net : p.net.Inv
  -- the request in front of the dispatch is the one that the socket owes
  owing : ∀ q, p.request = some q → p.net.server.pending = some q

/-- The steps, with what each of them has found. -/
inductive Does (x : Xapian) (p : Process C) : Event C → Process C → Prop
  | stays {e} : Does x p e p
  | sends {c m net} (hsend : p.net.send c m = some net) :
      Does x p (.send c m) { p with net := net }
  | delivers {k} : Does x p (.deliver k) { p with net := p.net.deliver k }
  -- the request before has got no reply
  | faults {k a} (habort : p.aborted = none) (hrequest : p.request = none)
      (howing : p.net.owing = some a) :
      Does x p (.recv k) { p with aborted := some (.server .socketState) }
  | takes {k c q net} (habort : p.aborted = none) (howing : p.net.owing = none)
      (hk : p.net.requests[k]? = some (c, q)) (hrecv : p.net.recv k = some net)
      (hnet : net.owing = some (c, q)) (hanswered : net.answered = p.net.answered)
      (hrequests : ∀ a ∈ net.requests, a ∈ p.net.requests) :
      Does x p (.recv k) { p with net := net, request := some q }
  | ignores {lookup q} (habort : p.aborted = none) (hrequest : p.request = some q)
      (hr : reply? (lookup p.committed) q = none) :
      Does x p (.dispatch lookup) { p with request := none }
  | answers {lookup c q r net} (habort : p.aborted = none)
      (hrequest : p.request = some q) (howing : p.net.owing = some (c, q))
      (hr : reply? (lookup p.committed) q = some r) (hreply : p.net.reply r = some net)
      (hnet : net.owing = none) (hanswered : net.answered = p.net.answered ++ [(c, q, r)])
      (hrequests : net.requests = p.net.requests) :
      Does x p (.dispatch lookup)
        { p with net := net, request := none, views := p.views ++ [p.committed] }
  | fails {err} (habort : p.aborted = none) (hindex : p.indexer.step x = .error err) :
      Does x p .index { p with aborted := some (.database err) }
  | indexes {i} (habort : p.aborted = none) (hindex : p.indexer.step x = .ok i) :
      Does x p .index { p with indexer := i }

variable {p p' : Process C} {x : Xapian} {e : Event C} {es : List (Event C)}

theorem Inv.sender (h : p.Inv) {q : Bytes} (hq : p.request = some q) :
    ∃ c, p.net.owing = some (c, q) := by
  have howing := h.owing q hq
  simp only [Net.server, Option.map_eq_some_iff] at howing
  obtain ⟨⟨c, q'⟩, howing, rfl⟩ := howing
  exact ⟨c, howing⟩

theorem does_recv (habort : p.aborted = none) (hrequest : p.request = none) (k : Nat) :
    Does x p (.recv k) (p.recv k) := by
  unfold Process.recv
  cases howing : p.net.owing with
  | some a =>
      rw [Net.recv, howing]
      exact .faults habort hrequest howing
  | none =>
      cases hk : p.net.requests[k]? with
      | none =>
          rw [Net.recv, howing]
          simp only [hk, howing, Option.map_none, ← hrequest]
          exact .stays
      | some a =>
          have hrecv : p.net.recv k = some { p.net with
              requests := p.net.requests.eraseIdx k, owing := some a } := by
            simp only [Net.recv, howing, hk]
          rw [hrecv]
          exact .takes habort howing hk hrecv rfl rfl fun a ha => List.mem_of_mem_eraseIdx ha

theorem Inv.does_dispatch (h : p.Inv) (habort : p.aborted = none) {q : Bytes}
    (hq : p.request = some q) (lookup : List Bytes → Search) :
    Does x p (.dispatch lookup) (p.dispatch lookup q) := by
  obtain ⟨c, howing⟩ := h.sender hq
  rw [dispatch, dispatched_eq (h.owing q hq)]
  cases hr : reply? (lookup p.committed) q with
  | none => exact .ignores habort hq hr
  | some r =>
      have hreply := Net.reply_eq howing r
      simp only [respond, hreply]
      exact .answers habort hq howing hr hreply rfl rfl rfl

theorem Inv.does (h : p.Inv) (x : Xapian) (e : Event C) : Does x p e (p.step x e) := by
  cases e with
  | send c m =>
      rw [Process.step]
      cases hsend : p.net.send c m with
      | none => exact .stays
      | some net => exact .sends hsend
  | deliver k => exact .delivers
  | recv k =>
      rw [Process.step]
      split
      case isFalse => exact .stays
      case isTrue hready =>
        rw [Bool.and_eq_true, Option.isNone_iff_eq_none, Option.isNone_iff_eq_none] at hready
        exact does_recv hready.1 hready.2 k
  | dispatch lookup =>
      cases hq : p.request with
      | none =>
          rw [Process.step, hq]
          exact .stays
      | some q =>
          simp only [Process.step, hq]
          split
          case isFalse => exact .stays
          case isTrue hready =>
            exact h.does_dispatch (Option.isNone_iff_eq_none.mp hready) hq lookup
  | index =>
      rw [Process.step]
      split
      case isFalse => exact .stays
      case isTrue hready =>
        have habort := Option.isNone_iff_eq_none.mp hready
        unfold Process.index
        cases hindex : p.indexer.step x with
        | error err => exact .fails habort hindex
        | ok i => exact .indexes habort hindex

/-! ## The network -/

theorem inv_start (documents : List Bytes) (inputFilename : Bytes) (f : Stream) :
    (start documents inputFilename f : Process C).Inv := ⟨Net.inv_start, nofun⟩

theorem Inv.of_net (h : p.Inv) {net : Net C Bytes} (hnet : net.Inv)
    (hserver : net.server = p.net.server) : ({ p with net := net } : Process C).Inv := by
  refine ⟨hnet, ?_⟩
  intro q hq
  show net.server.pending = some q
  rw [hserver]
  exact h.owing q hq

theorem server_send {n n' : Net C Bytes} {c : C} {m : Bytes} (h : n.send c m = some n') :
    n'.server = n.server := by
  unfold Net.send at h
  split at h
  · cases h
  · cases h
    rfl

theorem server_deliver (n : Net C Bytes) (k : Nat) : (n.deliver k).server = n.server := by
  unfold Net.deliver
  split
  · rfl
  · split <;> rfl

theorem Inv.of_does (h : p.Inv) (hdoes : Does x p e p') : p'.Inv := by
  cases hdoes with
  | stays => exact h
  | sends hsend => exact h.of_net (h.net.send hsend) (server_send hsend)
  | delivers => exact h.of_net (h.net.deliver _) (server_deliver p.net _)
  | faults => exact ⟨h.net, h.owing⟩
  | @takes _ c q _ _ _ _ hrecv hnet =>
      refine ⟨h.net.recv hrecv, ?_⟩
      intro q' hq'
      cases hq'
      simp only [Net.server, hnet, Option.map_some]
  | ignores =>
      refine ⟨h.net, ?_⟩
      intro q hq
      cases hq
  | answers _ _ _ _ hreply =>
      refine ⟨h.net.reply hreply, ?_⟩
      intro q hq
      cases hq
  | fails => exact ⟨h.net, h.owing⟩
  | indexes => exact ⟨h.net, h.owing⟩

theorem Inv.step (h : p.Inv) (x : Xapian) (e : Event C) : (p.step x e).Inv :=
  h.of_does (h.does x e)

theorem inv_run (h : p.Inv) (x : Xapian) (es : List (Event C)) :
    (run (Process.step x) p es).Inv := run_inv (fun _ e h => h.step x e) h es

/-! ## Exchanges -/

/-- The reply is what the dispatch of the request gives on the documents `view`,
with one of the searches of the run. -/
def AnsweredOn (es : List (Event C)) (a : C × Bytes × Bytes) (view : List Bytes) : Prop :=
  ∃ lookup, .dispatch lookup ∈ es ∧ reply? (lookup view) a.2.1 = some a.2.2

/-- Requests come from the events of the run, and replies from its searches. -/
structure Recorded (es : List (Event C)) (p : Process C) : Prop where
  inv : p.Inv
  requested : ∀ a ∈ p.net.requests, .send a.1 a.2 ∈ es
  owed : ∀ a, p.net.owing = some a → .send a.1 a.2 ∈ es
  answered : ∀ a ∈ p.net.answered, .send a.1 a.2.1 ∈ es
  views : List.Forall₂ (AnsweredOn es) p.net.answered p.views

theorem recorded_start (es : List (Event C)) (documents : List Bytes) (inputFilename : Bytes)
    (f : Stream) : Recorded es (start documents inputFilename f) :=
  ⟨inv_start documents inputFilename f, nofun, nofun, nofun, .nil⟩

theorem send_eq {n n' : Net C Bytes} {c : C} {m : Bytes} (h : n.send c m = some n') :
    n'.requests = n.requests ++ [(c, m)] ∧ n'.owing = n.owing ∧ n'.answered = n.answered := by
  unfold Net.send at h
  split at h
  · cases h
  · cases h
    exact ⟨rfl, rfl, rfl⟩

theorem deliver_eq (n : Net C Bytes) (k : Nat) :
    (n.deliver k).requests = n.requests ∧ (n.deliver k).owing = n.owing
      ∧ (n.deliver k).answered = n.answered := by
  unfold Net.deliver
  split
  · exact ⟨rfl, rfl, rfl⟩
  · split <;> exact ⟨rfl, rfl, rfl⟩

theorem Recorded.of_does (h : Recorded es p) (he : e ∈ es) (hdoes : Does x p e p') :
    Recorded es p' := by
  have hinv := h.inv.of_does hdoes
  cases hdoes with
  | stays => exact h
  | @sends c m net hsend =>
      obtain ⟨hrequests, howing, hanswered⟩ := send_eq hsend
      refine ⟨hinv, ?_, howing ▸ h.owed, hanswered ▸ h.answered, hanswered ▸ h.views⟩
      intro a ha
      rw [hrequests, List.mem_append, List.mem_singleton] at ha
      rcases ha with ha | rfl
      · exact h.requested a ha
      · exact he
  | @delivers k =>
      obtain ⟨hrequests, howing, hanswered⟩ := deliver_eq p.net k
      exact ⟨hinv, hrequests ▸ h.requested, howing ▸ h.owed, hanswered ▸ h.answered,
        hanswered ▸ h.views⟩
  | faults => exact ⟨hinv, h.requested, h.owed, h.answered, h.views⟩
  | @takes _ c q net _ _ hk _ hnet hanswered hrequests =>
      refine ⟨hinv, fun a ha => h.requested a (hrequests a ha), ?_, hanswered ▸ h.answered,
        hanswered ▸ h.views⟩
      intro a ha
      rw [hnet] at ha
      cases ha
      exact h.requested (c, q) (List.mem_of_getElem? hk)
  | ignores => exact ⟨hinv, h.requested, h.owed, h.answered, h.views⟩
  | @answers lookup c q r net _ _ howing hr _ hnet hanswered hrequests =>
      refine ⟨hinv, hrequests ▸ h.requested, ?_, ?_, ?_⟩
      · intro a ha
        rw [hnet] at ha
        cases ha
      · intro a ha
        rw [hanswered, List.mem_append, List.mem_singleton] at ha
        rcases ha with ha | rfl
        · exact h.answered a ha
        · exact h.owed (c, q) howing
      · show List.Forall₂ (AnsweredOn es) net.answered (p.views ++ [p.committed])
        rw [hanswered]
        exact List.rel_append h.views (.cons ⟨lookup, he, hr⟩ .nil)
  | fails => exact ⟨hinv, h.requested, h.owed, h.answered, h.views⟩
  | indexes => exact ⟨hinv, h.requested, h.owed, h.answered, h.views⟩

/-- The server thread goes on: it is ready for the next request, or it has one
that it will answer. -/
structure InService (p : Process C) : Prop where
  inv : p.Inv
  requests : ∀ a ∈ p.net.requests, Answered a.2
  request : ∀ q, p.request = some q → Answered q
  idle : p.request = none → p.net.owing = none
  up : ∀ f, p.aborted ≠ some (.server f)

theorem InService.of_does (h : InService p) (hdoes : Does x p e p')
    (he : ∀ c m, e = .send c m → Answered m) : InService p' := by
  have hinv := h.inv.of_does hdoes
  cases hdoes with
  | stays => exact h
  | @sends c m net hsend =>
      obtain ⟨hrequests, howing, -⟩ := send_eq hsend
      refine ⟨hinv, ?_, h.request, fun hq => howing ▸ h.idle hq, h.up⟩
      intro a ha
      rw [hrequests, List.mem_append, List.mem_singleton] at ha
      rcases ha with ha | rfl
      · exact h.requests a ha
      · exact he c m rfl
  | @delivers k =>
      obtain ⟨hrequests, howing, -⟩ := deliver_eq p.net k
      exact ⟨hinv, hrequests ▸ h.requests, h.request, fun hq => howing ▸ h.idle hq, h.up⟩
  | faults _ hrequest howing =>
      rw [h.idle hrequest] at howing
      cases howing
  | @takes _ c q net _ _ hk _ hnet _ hrequests =>
      refine ⟨hinv, fun a ha => h.requests a (hrequests a ha), ?_, nofun, h.up⟩
      intro q' hq'
      cases hq'
      exact h.requests (c, q) (List.mem_of_getElem? hk)
  | @ignores lookup q _ hrequest hr =>
      have hsome := (reply?_isSome_iff (lookup p.committed) q).mpr (h.request q hrequest)
      rw [hr] at hsome
      cases hsome
  | answers _ _ _ _ _ hnet _ hrequests =>
      exact ⟨hinv, hrequests ▸ h.requests, nofun, fun _ => hnet, h.up⟩
  | fails => exact ⟨hinv, h.requests, h.request, h.idle, nofun⟩
  | indexes => exact ⟨hinv, h.requests, h.request, h.idle, h.up⟩

theorem inService_start (documents : List Bytes) (inputFilename : Bytes) (f : Stream) :
    InService (start documents inputFilename f : Process C) :=
  ⟨inv_start documents inputFilename f, nofun, nofun, fun _ => rfl, nofun⟩

theorem inService_run (h : InService p) (hsent : ∀ c m, .send c m ∈ es → Answered m) :
    InService (run (Process.step x) p es) := by
  have hall : Along (Process.step x) (fun _ e => ∀ c m, e = .send c m → Answered m) p es :=
    along_const_iff.mpr fun e he c m heq => hsent c m (heq ▸ he)
  exact hall.run_inv (fun p e h he => h.of_does (h.inv.does x e) he) h

theorem recorded_run (x : Xapian) (documents : List Bytes) (inputFilename : Bytes)
    (f : Stream) (es : List (Event C)) :
    Recorded es (run (Process.step x) (start documents inputFilename f) es) := by
  have hall : Along (Process.step x) (fun _ e => e ∈ es) (start documents inputFilename f) es :=
    along_const_iff.mpr fun _ he => he
  exact hall.run_inv (fun p e h he => h.of_does he (h.inv.does x e))
    (recorded_start es documents inputFilename f)

/-- **Exchanges**: in every order of the steps of the clients, of the two
threads and of the network, each client gets the replies to its own requests,
in order and once each; every reply is the answer to a request that its client
sent, on the documents committed at that moment; and while no client sends a
request without an answer, the server thread does not end the process. -/
theorem run_exchanges (x : Xapian) (documents : List Bytes) (inputFilename : Bytes)
    (f : Stream) (es : List (Event C)) :
    let p := run (Process.step x) (start documents inputFilename f) es
    (∀ c, p.net.Received c)
      ∧ (∀ a ∈ p.net.answered, .send a.1 a.2.1 ∈ es)
      ∧ List.Forall₂ (AnsweredOn es) p.net.answered p.views
      ∧ ((∀ c m, .send c m ∈ es → Answered m) → ∀ f, p.aborted ≠ some (.server f)) := by
  intro p
  have hrecorded : Recorded es p := recorded_run x documents inputFilename f es
  refine ⟨hrecorded.inv.net.received, hrecorded.answered, hrecorded.views, ?_⟩
  intro hsent
  exact (inService_run (inService_start documents inputFilename f) hsent).up

end Process

end Neroshop.Daemon
