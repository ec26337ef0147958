import Mathlib.Data.List.Infix
import Neroshop.Net.Channel

/-!
# The server's heartbeat

`heartbeat` of `test/sys_network/server.cpp`, from `bind` and `listen` on and
against any number of clients: it accepts the next client of the queue, greets
it, reads from it once, and prints what it has read. The clients connect, write
and disconnect between any two calls of the server. What the kernel answers to
a call is part of the event.

No heartbeat returns to a client of an earlier one, and no client is skipped:
a client that writes nothing and stays keeps everyone behind it waiting.

* `heartbeats_served`: what the lines of a run are, and what comes after a call
  that closes the server.
* `heartbeats_turns`: how many clients get a line from a given state on.
-/

namespace Neroshop.Net.Heartbeat

open Lib.CStr Lib.Runs

/-- A client, from its `connect` on. -/
structure Peer where
  -- what it has written to the server
  sent : Bytes
  -- so much of it the server has read
  taken : Nat
  -- what `Server::write` has sent it
  greeted : Bytes
  -- its end is shut down
  ended : Bool

/-- A client that has just connected. -/
def Peer.new : Peer := ⟨[], 0, [], false⟩

/-- `Client::write`. After a `close` there is no socket to write to. -/
def Peer.write (text : Bytes) (p : Peer) : Peer :=
  if p.ended then p else { p with sent := p.sent ++ text }

/-- `Client::close` -/
def Peer.close (p : Peer) : Peer := { p with ended := true }

/-- `Client::disconnect`: the word, and the close behind it. -/
def Peer.disconnect (p : Peer) : Peer := (p.write (ascii "disconnect")).close

/-- What the server writes arrives. -/
def Peer.greet (text : Bytes) (p : Peer) : Peer := { p with greeted := p.greeted ++ text }

/-- What the client has written and the server has not read. -/
def Peer.unread (p : Peer) : Bytes := p.sent.drop p.taken

/-- What one `::read` delivers; nothing is the end of the connection. -/
def Peer.chunk (p : Peer) (n : Nat) : Chunk :=
  ⟨p.unread.take (min (n + 1) requested), by
    rw [List.length_take]
    omega⟩

/-- The client behind one `::read` of the server. -/
def Peer.take (n : Nat) (p : Peer) : Peer :=
  { p with taken := p.taken + (p.chunk n).1.length }

/-- What a heartbeat prints of its client. -/
structure Line where
  text : Option Bytes
  announced : Bool

/-- The call that the server makes next. -/
inductive Call where
  | accept
  | write
  | read
  deriving DecidableEq

/-- The clients, and the server with its next call. -/
structure System where
  -- in the order of their connects
  peers : List Peer
  -- so many of them are accepted; the last of these is behind `newsocket`
  accepted : Nat
  next : Call
  -- the sockets of the server are closed
  closed : Bool
  buffer : Buffer 512
  lines : List Line

/-- `main` goes on to its heartbeats whatever `bind` and `listen` return. Each
of them closes the sockets when it fails. -/
def System.start (bound listening : Bool) (buffer : Buffer 512) : System :=
  ⟨[], 0, .accept, !(bound && listening), buffer, []⟩

/-- What the heartbeat writes to a client. -/
def greeting : Bytes := ascii "server accepted client connection"

namespace System

/-- A client connects; a closed server refuses it. -/
def connect (s : System) : System :=
  if s.closed then s else { s with peers := s.peers ++ [.new] }

/-- The call waits for a client. One that fails shuts the sockets down and
closes them, and the greeting is left out. -/
def accept (s : System) (ok : Bool) : System :=
  if s.closed || !ok then { s with closed := true, next := .read }
  else if s.accepted < s.peers.length then
    { s with accepted := s.accepted + 1, next := .write }
  else s

/-- The greeting; a `write` that fails closes nothing. -/
def write (s : System) (ok : Bool) : System :=
  { s with
    peers := if ok then s.peers.modify (s.accepted - 1) (.greet greeting) else s.peers
    next := .read }

/-- The end of a heartbeat, with what its `::read` returned. -/
def print (s : System) (result : Option Chunk) : System :=
  let r := serverRead s.buffer result
  { s with
    next := .accept
    closed := s.closed || r.closed
    buffer := r.buffer
    lines := s.lines ++ [⟨r.text, r.announced⟩] }

/-- The call waits for the client behind `newsocket`. -/
def read (s : System) (ok : Bool) (n : Nat) : System :=
  if s.closed || !ok then s.print none
  else
    match s.peers[s.accepted - 1]? with
    | none => s
    | some p =>
        if p.unread.isEmpty && !p.ended then s
        else
          { s.print (some (p.chunk n)) with
            peers := s.peers.modify (s.accepted - 1) (.take n) }

/-- The server's next call. The kernel refuses it when `ok` is false, and
delivers up to `n + 1` bytes to a `read`. -/
def serve (s : System) (ok : Bool) (n : Nat) : System :=
  match s.next with
  | .accept => s.accept ok
  | .write => s.write ok
  | .read => s.read ok n

end System

/-- What a client does, or the next call of the server. -/
inductive Event where
  | connect
  | write (i : Nat) (text : Bytes)
  | disconnect (i : Nat)
  | close (i : Nat)
  | serve (ok : Bool) (n : Nat)

/-- One event. -/
def step (s : System) : Event → System
  | .connect => s.connect
  | .write i text => { s with peers := s.peers.modify i (.write text) }
  | .disconnect i => { s with peers := s.peers.modify i .disconnect }
  | .close i => { s with peers := s.peers.modify i .close }
  | .serve ok n => s.serve ok n

/-! ## What is printed of a client -/

/-- The line is what one `read` from the start of the connection has
delivered, up to the first zero byte. -/
structure Shows (p : Peer) (l : Line) : Prop where
  taken_le : p.taken ≤ p.sent.length
  taken_le_requested : p.taken ≤ requested
  text_eq : l.text = some (untilZero (p.sent.take p.taken))
  announced_iff : l.announced = true ↔ untilZero (p.sent.take p.taken) = ascii "disconnect"

/-- What a client does to its own end: the server's marks stay, and nothing
written is taken back. -/
structure Grows (p q : Peer) : Prop where
  taken_eq : q.taken = p.taken
  greeted_eq : q.greeted = p.greeted
  sent_prefix : p.sent <+: q.sent
  ended_of : p.ended = true → q.ended = true

theorem Grows.refl (p : Peer) : Grows p p := ⟨rfl, rfl, List.prefix_rfl, id⟩

theorem Grows.trans {p q r : Peer} (h : Grows p q) (h' : Grows q r) : Grows p r :=
  ⟨h'.taken_eq.trans h.taken_eq, h'.greeted_eq.trans h.greeted_eq,
    h.sent_prefix.trans h'.sent_prefix, fun hp => h'.ended_of (h.ended_of hp)⟩

theorem grows_write (text : Bytes) (p : Peer) : Grows p (p.write text) := by
  unfold Peer.write
  split
  · exact .refl p
  · exact ⟨rfl, rfl, List.prefix_append p.sent text, id⟩

theorem grows_close (p : Peer) : Grows p p.close :=
  ⟨rfl, rfl, List.prefix_rfl, fun _ => rfl⟩

theorem grows_disconnect (p : Peer) : Grows p p.disconnect :=
  (grows_write _ p).trans (grows_close _)

theorem Shows.grows {p q : Peer} {l : Line} (h : Shows p l) (hg : Grows p q) : Shows q l := by
  rcases hg.sent_prefix with ⟨more, hmore⟩
  have htake : q.sent.take q.taken = p.sent.take p.taken := by
    rw [← hmore, hg.taken_eq, List.take_append_of_le_length h.taken_le]
  refine ⟨?_, ?_, ?_, ?_⟩
  · rw [hg.taken_eq]
    exact h.taken_le.trans hg.sent_prefix.length_le
  · rw [hg.taken_eq]
    exact h.taken_le_requested
  · rw [htake]
    exact h.text_eq
  · rw [htake]
    exact h.announced_iff

theorem serverRead_announced (b : Buffer 512) (c : Chunk) :
    (serverRead b (some c)).announced = true ↔ untilZero c.1 = ascii "disconnect" := by
  have htext : Lib.CStr.read (fill (by omega) b (some c)).bytes = some (untilZero c.1) :=
    read_fill (by omega) b (some c)
  have hlt : c.1.length < 511 := lt_of_le_of_lt c.2 (by decide)
  simp only [serverRead, htext, hlt, decide_true, Bool.and_true, Bool.and_eq_true,
    decide_eq_true_eq, beq_iff_eq, Option.some.injEq]
  constructor
  · intro h
    exact h.2
  · intro h
    refine ⟨List.length_pos_of_ne_nil ?_, h⟩
    intro hnil
    rw [hnil] at h
    exact absurd h (by decide)

/-- The line of a `read` that fails. -/
def blank : Line := ⟨some [], false⟩

theorem serverRead_none (b : Buffer 512) :
    (⟨(serverRead b none).text, (serverRead b none).announced⟩ : Line) = blank := by
  have htext : (serverRead b none).text = some [] := read_fill (by omega) b none
  rw [htext]
  rfl

/-- The line of a client whose `read` fails. -/
theorem shows_blank {p : Peer} (hp : p.taken = 0) : Shows p blank := by
  have htake : untilZero (p.sent.take p.taken) = [] := by
    rw [hp]
    rfl
  refine ⟨?_, ?_, ?_, ?_⟩
  · rw [hp]
    exact Nat.zero_le _
  · rw [hp]
    exact Nat.zero_le _
  · rw [htake]
    rfl
  · rw [htake]
    decide

/-- The line of a client, at the first `read` of its connection. -/
theorem shows_chunk {p : Peer} (hp : p.taken = 0) (b : Buffer 512) (n : Nat) :
    Shows (p.take n) ⟨(serverRead b (some (p.chunk n))).text,
      (serverRead b (some (p.chunk n))).announced⟩ := by
  have hprefix : (p.chunk n).1 <+: p.sent := by
    show (p.sent.drop p.taken).take _ <+: p.sent
    rw [hp]
    exact List.take_prefix _ p.sent
  have htaken : (p.take n).taken = (p.chunk n).1.length := by
    rw [Peer.take, hp, Nat.zero_add]
  have htake : p.sent.take (p.take n).taken = (p.chunk n).1 := by
    rw [htaken]
    exact (List.prefix_iff_eq_take.mp hprefix).symm
  refine ⟨?_, ?_, ?_, ?_⟩
  · rw [htaken]
    exact hprefix.length_le
  · rw [htaken]
    exact (p.chunk n).2
  · show _ = some (untilZero (p.sent.take (p.take n).taken))
    rw [htake]
    exact serverRead_text b (p.chunk n)
  · show _ ↔ untilZero (p.sent.take (p.take n).taken) = ascii "disconnect"
    rw [htake]
    exact serverRead_announced b (p.chunk n)

/-- Nothing is delivered only at the end of the connection. -/
theorem ended_of_chunk {p : Peer} {n : Nat} (hp : (p.take n).taken = 0)
    (h : ¬ (p.unread.isEmpty && !p.ended) = true) : p.ended = true := by
  have hlen : (p.chunk n).1.length = 0 := (Nat.add_eq_zero_iff.mp hp).2
  have hempty : p.unread = [] := by
    simpa [Peer.chunk, requested] using hlen
  simpa [hempty] using h

/-! ## What every run keeps -/

/-- The client at `i`, as the server has treated it so far. -/
structure Treated (s : System) (i : Nat) (p : Peer) : Prop where
  unread : s.accepted ≤ i ∨ s.lines.length ≤ i → p.taken = 0
  ungreeted : s.accepted ≤ i ∨ (s.next = .write ∧ i + 1 = s.accepted) → p.greeted = []
  greeted : p.greeted = [] ∨ p.greeted = greeting
  shown : ∀ l, s.lines[i]? = some l → i < s.accepted → Shows p l
  silent : i < s.accepted → i < s.lines.length → p.taken = 0 →
    p.ended = true ∨ s.closed = true

/-- The invariant of the runs: how many lines there are for the accepted clients,
and how each client has been treated. -/
structure Inv (s : System) : Prop where
  accepted_le : s.accepted ≤ s.peers.length
  open_lines : s.closed = false →
    s.accepted = s.lines.length + if s.next = .accept then 0 else 1
  closed_lines : s.closed = true → s.accepted ≤ s.lines.length ∧ s.next ≠ .write
  treated : ∀ i p, s.peers[i]? = some p → Treated s i p
  blank_after : ∀ i l, s.accepted ≤ i → s.lines[i]? = some l → l = blank

theorem inv_start (bound listening : Bool) (buffer : Buffer 512) :
    Inv (.start bound listening buffer) where
  accepted_le := Nat.le_refl 0
  open_lines := fun _ => rfl
  closed_lines := fun _ => ⟨Nat.le_refl 0, fun h => by cases h⟩
  treated := fun i p h => by cases h
  blank_after := fun i l _ h => by cases h

variable {s : System}

/-- A client acts on its own end. -/
theorem Inv.grow (h : Inv s) {f : Peer → Peer} (hf : ∀ p, Grows p (f p)) (k : Nat) :
    Inv { s with peers := s.peers.modify k f } where
  accepted_le := by
    rw [List.length_modify]
    exact h.accepted_le
  open_lines := h.open_lines
  closed_lines := h.closed_lines
  blank_after := h.blank_after
  treated := by
    intro i q hq
    have hp : ∃ p, s.peers[i]? = some p ∧ Grows p q := by
      rw [List.getElem?_modify] at hq
      rcases Option.map_eq_some_iff.mp hq with ⟨p, hp, rfl⟩
      split
      · exact ⟨p, hp, hf p⟩
      · exact ⟨p, hp, .refl p⟩
    rcases hp with ⟨p, hp, hg⟩
    have ht := h.treated i p hp
    exact
      { unread := fun hi => hg.taken_eq.trans (ht.unread hi)
        ungreeted := fun hi => hg.greeted_eq.trans (ht.ungreeted hi)
        greeted := by
          rw [hg.greeted_eq]
          exact ht.greeted
        shown := fun l hl hi => (ht.shown l hl hi).grows hg
        silent := fun hi hl htaken =>
          (ht.silent hi hl (hg.taken_eq.symm.trans htaken)).imp_left hg.ended_of }

theorem getElem?_snoc {α : Type*} {l : List α} {a b : α} {i : Nat}
    (h : (l ++ [a])[i]? = some b) : l[i]? = some b ∨ i = l.length ∧ b = a := by
  rw [List.getElem?_append] at h
  split at h
  · exact .inl h
  · next hi =>
      rcases List.getElem?_eq_some_iff.mp h with ⟨hlt, hb⟩
      right
      constructor
      · rw [List.length_singleton] at hlt
        omega
      · rw [List.getElem_singleton] at hb
        exact hb.symm

theorem treated_new {i : Nat} (h : s.accepted ≤ i) : Treated s i .new where
  unread := fun _ => rfl
  ungreeted := fun _ => rfl
  greeted := .inl rfl
  shown := fun _ _ hi => absurd h (Nat.not_le.mpr hi)
  silent := fun hi => absurd h (Nat.not_le.mpr hi)

theorem Inv.connect (h : Inv s) : Inv s.connect := by
  unfold System.connect
  split
  · exact h
  · exact
      { accepted_le := by
          rw [List.length_append]
          exact h.accepted_le.trans (Nat.le_add_right _ _)
        open_lines := h.open_lines
        closed_lines := h.closed_lines
        blank_after := h.blank_after
        treated := by
          intro i p hp
          have ht : Treated s i p := by
            rcases getElem?_snoc hp with hp | ⟨rfl, rfl⟩
            · exact h.treated i p hp
            · exact treated_new h.accepted_le
          exact ⟨ht.unread, ht.ungreeted, ht.greeted, ht.shown, ht.silent⟩ }

theorem Inv.lines_accept (h : Inv s) (hnext : s.next = .accept) :
    s.accepted ≤ s.lines.length := by
  cases hclosed : s.closed with
  | true => exact (h.closed_lines hclosed).1
  | false => simpa [hnext] using (h.open_lines hclosed).le

/-- While the server is open, the client behind `newsocket` is the first one
without a line. -/
theorem Inv.lines_open (h : Inv s) (hopen : s.closed = false) (hnext : s.next ≠ .accept) :
    s.accepted = s.lines.length + 1 := by
  simpa [hnext] using h.open_lines hopen

theorem Treated.accept_failed {i : Nat} {p : Peer} (h : Treated s i p) :
    Treated { s with closed := true, next := .read } i p where
  unread := h.unread
  ungreeted := by
    intro hi
    rcases hi with hi | ⟨hcall, -⟩
    · exact h.ungreeted (.inl hi)
    · cases hcall
  greeted := h.greeted
  shown := h.shown
  silent := fun _ _ _ => .inr rfl

theorem Treated.accepted {i : Nat} {p : Peer} (h : Treated s i p)
    (hlines : s.accepted = s.lines.length) :
    Treated { s with accepted := s.accepted + 1, next := .write } i p where
  unread := by
    intro hi
    apply h.unread
    rcases hi with hi | hi
    · exact .inl (Nat.le_of_succ_le hi)
    · exact .inr hi
  ungreeted := by
    intro hi
    apply h.ungreeted
    left
    rcases hi with hi | ⟨-, hi⟩
    · exact Nat.le_of_succ_le hi
    · exact (Nat.succ.inj hi).ge
  greeted := h.greeted
  shown := by
    intro l hl _
    rcases List.getElem?_eq_some_iff.mp hl with ⟨hlt, -⟩
    exact h.shown l hl (hlines ▸ hlt)
  silent := fun _ hl => h.silent (hlines ▸ hl) hl

theorem Inv.accept (h : Inv s) (hnext : s.next = .accept) (ok : Bool) :
    Inv (s.accept ok) := by
  unfold System.accept
  split
  · exact
      { accepted_le := h.accepted_le
        open_lines := fun hopen => by cases hopen
        closed_lines := fun _ => ⟨h.lines_accept hnext, fun hcall => by cases hcall⟩
        blank_after := h.blank_after
        treated := fun i p hp => (h.treated i p hp).accept_failed }
  · next hok =>
      have hopen : s.closed = false := by
        rw [Bool.or_eq_true, not_or] at hok
        exact Bool.eq_false_iff.mpr hok.1
      have hlines : s.accepted = s.lines.length := by
        simpa [hnext] using h.open_lines hopen
      split
      · next hlt =>
          exact
            { accepted_le := hlt
              open_lines := fun _ => congrArg (· + 1) hlines
              closed_lines := fun hclosed => by cases hopen.symm.trans hclosed
              blank_after := fun i l hi => h.blank_after i l (Nat.le_of_succ_le hi)
              treated := fun i p hp => (h.treated i p hp).accepted hlines }
      · exact h

/-- The greeting goes to the client that has none yet. -/
theorem Treated.greet {i : Nat} {p : Peer} (h : Treated s i p) (hnext : s.next = .write)
    (hi : i + 1 = s.accepted) :
    (p.greet greeting).greeted = greeting := by
  show p.greeted ++ greeting = greeting
  rw [h.ungreeted (.inr ⟨hnext, hi⟩)]
  rfl

theorem Treated.written {i : Nat} {p q : Peer} {peers : List Peer} (h : Treated s i p)
    (hq : q = p ∨ i + 1 = s.accepted ∧ q = p.greet greeting) (hnext : s.next = .write) :
    Treated { s with peers := peers, next := .read } i q := by
  have hsame : q.taken = p.taken ∧ q.sent = p.sent ∧ q.ended = p.ended := by
    rcases hq with rfl | ⟨-, rfl⟩
    · exact ⟨rfl, rfl, rfl⟩
    · exact ⟨rfl, rfl, rfl⟩
  rcases hsame with ⟨htaken, hsent, hended⟩
  refine ⟨?_, ?_, ?_, ?_, ?_⟩
  · intro hi
    exact htaken.trans (h.unread hi)
  · intro hi
    rcases hi with hi | ⟨hcall, -⟩
    · rcases hq with rfl | ⟨heq, -⟩
      · exact h.ungreeted (.inl hi)
      · dsimp only at hi
        omega
    · cases hcall
  · rcases hq with rfl | ⟨heq, rfl⟩
    · exact h.greeted
    · exact .inr (h.greet hnext heq)
  · intro l hl hi
    have hshow := h.shown l hl hi
    refine ⟨?_, ?_, ?_, ?_⟩
    · rw [htaken, hsent]
      exact hshow.taken_le
    · rw [htaken]
      exact hshow.taken_le_requested
    · rw [htaken, hsent]
      exact hshow.text_eq
    · rw [htaken, hsent]
      exact hshow.announced_iff
  · intro hi hl h0
    rw [hended]
    exact h.silent hi hl (htaken.symm.trans h0)

theorem Inv.write (h : Inv s) (hnext : s.next = .write) (ok : Bool) :
    Inv (s.write ok) := by
  have hopen : s.closed = false := by
    cases hclosed : s.closed with
    | true => exact absurd hnext (h.closed_lines hclosed).2
    | false => rfl
  have hlines := h.lines_open hopen (by rw [hnext]; decide)
  exact
    { accepted_le := by
        show s.accepted ≤ (if ok then _ else s.peers).length
        split
        · rw [List.length_modify]
          exact h.accepted_le
        · exact h.accepted_le
      open_lines := fun _ => hlines
      closed_lines := fun hclosed => by cases hopen.symm.trans hclosed
      blank_after := h.blank_after
      treated := by
        intro i q hq
        have hp : ∃ p, s.peers[i]? = some p
            ∧ (q = p ∨ i + 1 = s.accepted ∧ q = p.greet greeting) := by
          dsimp only [System.write] at hq
          split at hq
          · rw [List.getElem?_modify] at hq
            rcases Option.map_eq_some_iff.mp hq with ⟨p, hp, rfl⟩
            split
            · exact ⟨p, hp, .inr ⟨by omega, rfl⟩⟩
            · exact ⟨p, hp, .inl rfl⟩
          · exact ⟨q, hq, .inl rfl⟩
        rcases hp with ⟨p, hp, hpq⟩
        exact (h.treated i p hp).written hpq hnext }

/-! ### The read -/

theorem print_none_lines (s : System) : (s.print none).lines = s.lines ++ [blank] := by
  rw [← serverRead_none s.buffer]
  rfl

theorem print_none_closed (s : System) : (s.print none).closed = true := Bool.or_true _

theorem Treated.print_none {i : Nat} {p : Peer} (h : Treated s i p) :
    Treated (s.print none) i p where
  unread := by
    intro hi
    apply h.unread
    rw [print_none_lines, List.length_append] at hi
    rcases hi with hi | hi
    · exact .inl hi
    · exact .inr (Nat.le_of_succ_le hi)
  ungreeted := by
    intro hi
    rcases hi with hi | ⟨hcall, -⟩
    · exact h.ungreeted (.inl hi)
    · cases hcall
  greeted := h.greeted
  shown := by
    intro l hl hi
    rw [print_none_lines] at hl
    rcases getElem?_snoc hl with hl | ⟨rfl, rfl⟩
    · exact h.shown l hl hi
    · exact shows_blank (h.unread (.inr (Nat.le_refl _)))
  silent := fun _ _ _ => .inr (print_none_closed s)

theorem Inv.print_none (h : Inv s) (hnext : s.next = .read) : Inv (s.print none) where
  accepted_le := h.accepted_le
  open_lines := fun hopen => by cases hopen.symm.trans (print_none_closed s)
  closed_lines := by
    intro _
    rw [print_none_lines, List.length_append]
    refine ⟨?_, fun hcall => by cases hcall⟩
    show s.accepted ≤ s.lines.length + 1
    cases hclosed : s.closed with
    | true => exact (h.closed_lines hclosed).1.trans (Nat.le_succ _)
    | false => exact (h.lines_open hclosed (by rw [hnext]; decide)).le
  blank_after := by
    intro i l hi hl
    rw [print_none_lines] at hl
    rcases getElem?_snoc hl with hl | ⟨-, rfl⟩
    · exact h.blank_after i l hi hl
    · rfl
  treated := fun i p hp => (h.treated i p hp).print_none

/-- The state after a `read` that returns. -/
def System.delivered (s : System) (p : Peer) (n : Nat) : System :=
  { s.print (some (p.chunk n)) with
    peers := s.peers.modify (s.accepted - 1) (.take n) }

theorem Treated.delivered {i n : Nat} {p : Peer} (h : Treated s i p)
    (hlines : s.accepted = s.lines.length + 1) (hi : i = s.lines.length)
    (hready : ¬ (p.unread.isEmpty && !p.ended) = true) :
    Treated (s.delivered p n) i (p.take n) where
  unread := by
    intro hge
    exfalso
    rcases hge with hge | hge
    · exact absurd (hlines ▸ hge) (by omega)
    · have hlen : (s.delivered p n).lines.length = s.lines.length + 1 := List.length_append
      omega
  ungreeted := by
    intro hge
    rcases hge with hge | ⟨hcall, -⟩
    · exact absurd (hlines ▸ hge) (by omega)
    · cases hcall
  greeted := h.greeted
  shown := by
    intro l hl _
    have htaken : p.taken = 0 := h.unread (.inr hi.ge)
    rcases getElem?_snoc hl with hl | ⟨-, rfl⟩
    · rcases List.getElem?_eq_some_iff.mp hl with ⟨hlt, -⟩
      omega
    · exact shows_chunk htaken s.buffer n
  silent := fun _ _ htaken => .inl (ended_of_chunk (p := p) (n := n) htaken hready)

/-- A client other than the one that is read from. -/
theorem Treated.passed {i n : Nat} {p q : Peer} (h : Treated s i p)
    (hi : i ≠ s.lines.length) : Treated (s.delivered q n) i p where
  unread := by
    intro hge
    apply h.unread
    rcases hge with hge | hge
    · exact .inl hge
    · have hlen : (s.delivered q n).lines.length = s.lines.length + 1 := List.length_append
      right
      omega
  ungreeted := by
    intro hge
    rcases hge with hge | ⟨hcall, -⟩
    · exact h.ungreeted (.inl hge)
    · cases hcall
  greeted := h.greeted
  shown := by
    intro l hl hlt
    rcases getElem?_snoc hl with hl | ⟨heq, -⟩
    · exact h.shown l hl hlt
    · exact absurd heq hi
  silent := by
    intro hlt hlen htaken
    have hlen' : (s.delivered q n).lines.length = s.lines.length + 1 := List.length_append
    refine (h.silent hlt (by omega) htaken).imp_right ?_
    intro hclosed
    show (s.closed || false) = true
    rw [hclosed]
    rfl

theorem Inv.delivered (h : Inv s) (hopen : s.closed = false) (hnext : s.next = .read)
    {p : Peer} (n : Nat) (hp : s.peers[s.accepted - 1]? = some p)
    (hready : ¬ (p.unread.isEmpty && !p.ended) = true) : Inv (s.delivered p n) := by
  have hlines := h.lines_open hopen (by rw [hnext]; decide)
  have hlen : (s.delivered p n).lines.length = s.lines.length + 1 := List.length_append
  have hsame : (s.delivered p n).closed = false := by
    show (s.closed || false) = false
    rw [hopen]
    rfl
  exact
    { accepted_le := by
        show s.accepted ≤ (s.peers.modify _ _).length
        rw [List.length_modify]
        exact h.accepted_le
      open_lines := fun _ => hlines.trans hlen.symm
      closed_lines := fun hclosed => by cases hsame.symm.trans hclosed
      blank_after := by
        intro i l hi hl
        rcases getElem?_snoc hl with hl | ⟨rfl, -⟩
        · exact h.blank_after i l hi hl
        · exact absurd (hlines ▸ hi) (by omega)
      treated := by
        intro i q hq
        have hq' : (s.peers.modify (s.accepted - 1) (.take n))[i]? = some q := hq
        rw [List.getElem?_modify] at hq'
        rcases Option.map_eq_some_iff.mp hq' with ⟨p', hp', rfl⟩
        have ht := h.treated i p' hp'
        split
        · next hi =>
            rw [hi, hp'] at hp
            cases hp
            exact ht.delivered hlines (by omega) hready
        · next hi => exact ht.passed (by omega) }

theorem Inv.read (h : Inv s) (hnext : s.next = .read) (ok : Bool) (n : Nat) :
    Inv (s.read ok n) := by
  unfold System.read
  split
  · exact h.print_none hnext
  · next hok =>
      rw [Bool.or_eq_true, not_or] at hok
      cases hp : s.peers[s.accepted - 1]? with
      | none => exact h
      | some p =>
          dsimp only
          split
          · exact h
          · next hready =>
              exact h.delivered (Bool.eq_false_iff.mpr hok.1) hnext n hp hready

theorem Inv.step (h : Inv s) (e : Event) : Inv (step s e) := by
  cases e with
  | connect => exact h.connect
  | write i text => exact h.grow (grows_write text) i
  | disconnect i => exact h.grow grows_disconnect i
  | close i => exact h.grow grows_close i
  | serve ok n =>
      show Inv (s.serve ok n)
      unfold System.serve
      split
      · next hnext => exact h.accept hnext ok
      · next hnext => exact h.write hnext ok
      · next hnext => exact h.read hnext ok n

theorem inv_run (bound listening : Bool) (buffer : Buffer 512) (es : List Event) :
    Inv (run step (.start bound listening buffer) es) := by
  have hstep : ∀ s e, Inv s → Inv (Heartbeat.step s e) := by
    intro s e h
    exact h.step e
  exact run_inv hstep (inv_start bound listening buffer) es

/-! ### The end -/

theorem not_refused (hopen : s.closed = false) : ¬ (s.closed || !true) = true := by
  rw [hopen]
  decide

/-- The server is closed in both states, and in between it has accepted nobody
and printed nothing but empty lines. -/
structure Ends (s t : System) : Prop where
  closed : t.closed = true
  accepted_eq : t.accepted = s.accepted
  lines : ∃ k, t.lines = s.lines ++ List.replicate k blank

theorem Ends.step {s t : System} (h : Ends s t) (ht : Inv t) (e : Event) :
    Ends s (step t e) := by
  have hclosed := h.closed
  cases e with
  | connect =>
      show Ends s t.connect
      rw [System.connect, if_pos hclosed]
      exact h
  | serve ok n =>
      have hrefused : (t.closed || !ok) = true := by
        rw [hclosed]
        rfl
      show Ends s (t.serve ok n)
      unfold System.serve
      split
      · rw [System.accept, if_pos hrefused]
        exact ⟨rfl, h.accepted_eq, h.lines⟩
      · next hnext => exact absurd hnext (ht.closed_lines hclosed).2
      · rw [System.read, if_pos hrefused]
        obtain ⟨k, hk⟩ := h.lines
        refine ⟨print_none_closed t, h.accepted_eq, k + 1, ?_⟩
        rw [print_none_lines, hk, List.append_assoc, List.replicate_succ']
  | write i text | disconnect i | close i => exact ⟨h.closed, h.accepted_eq, h.lines⟩

theorem Inv.ends (h : Inv s) (hclosed : s.closed = true) (es : List Event) :
    Ends s (run Heartbeat.step s es) := by
  have hstep : ∀ t e, Inv t ∧ Ends s t →
      Inv (Heartbeat.step t e) ∧ Ends s (Heartbeat.step t e) :=
    fun t e ht => ⟨ht.1.step e, ht.2.step ht.1 e⟩
  exact (run_inv hstep ⟨h, hclosed, rfl, 0, (List.append_nil _).symm⟩ es).2

/-- A `read` of this client, the first one, returns. -/
def Peer.talks (p : Peer) : Bool := !p.sent.isEmpty || p.ended

/-- The clients without a line, up to the first one that is silent. -/
def System.turns (s : System) : Nat :=
  ((s.peers.drop s.lines.length).takeWhile Peer.talks).length

/-- How far the heartbeat is. -/
def Call.rank : Call → Nat
  | .accept => 0
  | .write => 1
  | .read => 2

theorem map_modify_talks {f : Peer → Peer} (hf : ∀ p, (f p).talks = p.talks)
    (ps : List Peer) (k : Nat) : (ps.modify k f).map Peer.talks = ps.map Peer.talks := by
  apply List.ext_getElem?
  intro i
  rw [List.getElem?_map, List.getElem?_map, List.getElem?_modify]
  cases ps[i]? with
  | none => rfl
  | some p =>
      show some (if k = i then f p else p).talks = some p.talks
      split
      · rw [hf p]
      · rfl

/-- Only who talks matters for the turns. -/
theorem length_takeWhile_talks {ps qs : List Peer}
    (h : ps.map Peer.talks = qs.map Peer.talks) (k : Nat) :
    ((ps.drop k).takeWhile Peer.talks).length = ((qs.drop k).takeWhile Peer.talks).length := by
  have hmap (l : List Peer) :
      (((l.map Peer.talks).drop k).takeWhile id).length
        = ((l.drop k).takeWhile Peer.talks).length := by
    rw [← List.map_drop, List.takeWhile_map, List.length_map]
    rfl
  rw [← hmap ps, h, hmap qs]

theorem turns_cons {p : Peer} (hp : s.peers[s.lines.length]? = some p) :
    s.turns = if p.talks then
      ((s.peers.drop (s.lines.length + 1)).takeWhile Peer.talks).length + 1 else 0 := by
  rcases List.getElem?_eq_some_iff.mp hp with ⟨hlt, hp⟩
  rw [System.turns, List.drop_eq_getElem_cons hlt, hp, List.takeWhile_cons]
  split
  · rfl
  · rfl

/-- One call of an open server that the kernel grants: the heartbeat goes on,
or the call waits and there is no turn to take, or a turn is taken. -/
structure Goes (s t : System) : Prop where
  stays_open : t.closed = false
  progress : (t.lines.length = s.lines.length ∧ t.turns = s.turns
      ∧ (t.next.rank = s.next.rank + 1 ∨ s.turns = 0))
    ∨ (t.lines.length = s.lines.length + 1 ∧ s.turns = t.turns + 1 ∧ s.next.rank = 2)

theorem goes_waiting (hopen : s.closed = false) (hturns : s.turns = 0) : Goes s s :=
  ⟨hopen, .inl ⟨rfl, rfl, .inr hturns⟩⟩

theorem Inv.goes_accept (h : Inv s) (hopen : s.closed = false) (hnext : s.next = .accept) :
    Goes s (s.accept true) := by
  have hlines : s.accepted = s.lines.length := by simpa [hnext] using h.open_lines hopen
  rw [System.accept, if_neg (not_refused hopen)]
  split
  · exact ⟨hopen, .inl ⟨rfl, rfl, .inl (by rw [hnext]; rfl)⟩⟩
  · apply goes_waiting hopen
    rw [System.turns, List.drop_eq_nil_of_le (by omega)]
    rfl

theorem goes_write (hopen : s.closed = false) (hnext : s.next = .write) :
    Goes s (s.write true) := by
  refine ⟨hopen, .inl ⟨rfl, ?_, .inl (by rw [hnext]; rfl)⟩⟩
  have hsame : ∀ p : Peer, (p.greet greeting).talks = p.talks := fun _ => rfl
  exact length_takeWhile_talks (map_modify_talks hsame s.peers (s.accepted - 1)) _

theorem goes_delivered (hopen : s.closed = false) (hnext : s.next = .read) {p : Peer}
    (n : Nat) (hp : s.peers[s.lines.length]? = some p) (htalks : p.talks = true) :
    Goes s (s.delivered p n) := by
  have hlen : (s.delivered p n).lines.length = s.lines.length + 1 := List.length_append
  refine ⟨?_, .inr ⟨hlen, ?_, by rw [hnext]; rfl⟩⟩
  · show (s.closed || false) = false
    rw [hopen]
    rfl
  · have hsame : ∀ p : Peer, (p.take n).talks = p.talks := fun _ => rfl
    rw [turns_cons hp, if_pos htalks, System.turns, hlen]
    congr 1
    exact (length_takeWhile_talks (map_modify_talks hsame s.peers (s.accepted - 1)) _).symm

theorem Inv.goes_read (h : Inv s) (hopen : s.closed = false) (hnext : s.next = .read)
    (n : Nat) : Goes s (s.read true n) := by
  have hlines := h.lines_open hopen (by rw [hnext]; decide)
  have hle := h.accepted_le
  have hidx : s.accepted - 1 = s.lines.length := by omega
  rw [System.read, if_neg (not_refused hopen), hidx]
  cases hp : s.peers[s.lines.length]? with
  | none =>
      rw [List.getElem?_eq_none_iff] at hp
      omega
  | some p =>
      have htaken : p.taken = 0 := (h.treated _ p hp).unread (.inr (Nat.le_refl _))
      have htalks : p.talks = !(p.unread.isEmpty && !p.ended) := by
        rw [Peer.talks, Peer.unread, htaken, List.drop_zero, Bool.not_and, Bool.not_not]
      dsimp only
      split
      · next hwait =>
          apply goes_waiting hopen
          rw [turns_cons hp, htalks, hwait]
          rfl
      · next hready =>
          rw [← hidx]
          apply goes_delivered hopen hnext n hp
          rw [htalks, Bool.eq_false_iff.mpr hready]
          rfl

theorem Inv.goes (h : Inv s) (hopen : s.closed = false) (n : Nat) : Goes s (s.serve true n) := by
  unfold System.serve
  split
  · next hnext => exact h.goes_accept hopen hnext
  · next hnext => exact goes_write hopen hnext
  · next hnext => exact h.goes_read hopen hnext n

theorem rank_le (c : Call) : c.rank ≤ 2 := by
  cases c <;> decide

/-- Three calls are enough for each turn. -/
theorem turns_run (h : Inv s) (hopen : s.closed = false) (ns : List Nat)
    (hn : 3 * s.turns ≤ ns.length + s.next.rank) :
    (run step s (ns.map (.serve true))).lines.length = s.lines.length + s.turns := by
  induction ns generalizing s with
  | nil =>
      have hrank := rank_le s.next
      rw [List.length_nil] at hn
      have hturns : s.turns = 0 := by omega
      rw [hturns]
      rfl
  | cons n ns ih =>
      have hgo := h.goes hopen n
      have hrest := ih (h.step (.serve true n)) hgo.stays_open
      rw [List.length_cons] at hn
      rw [List.map_cons, run_cons]
      show (run step (s.serve true n) _).lines.length = _
      rcases hgo.progress with ⟨hlines, hturns, hrank⟩ | ⟨hlines, hturns, hrank⟩
      · rw [← hlines, ← hturns]
        apply hrest
        show 3 * (s.serve true n).turns ≤ ns.length + (s.serve true n).next.rank
        omega
      · rw [hturns, Nat.add_comm _ 1, ← Nat.add_assoc, ← hlines]
        apply hrest
        show 3 * (s.serve true n).turns ≤ ns.length + (s.serve true n).next.rank
        omega

/-- **Who gets a turn**: from any reached state of an open server, with every
call granted, the clients without a line get theirs up to the first one that
has written nothing and stays, and nobody behind it. -/
theorem heartbeats_turns (bound listening : Bool) (buffer : Buffer 512) (es : List Event)
    (ns : List Nat) (hopen : (run step (.start bound listening buffer) es).closed = false)
    (hn : 3 * (run step (.start bound listening buffer) es).peers.length ≤ ns.length) :
    let s := run step (.start bound listening buffer) es
    (run step s (ns.map (.serve true))).lines.length
      = s.lines.length + ((s.peers.drop s.lines.length).takeWhile Peer.talks).length := by
  intro s
  have hturns : s.turns ≤ s.peers.length :=
    (List.takeWhile_prefix _).length_le.trans (List.drop_sublist _ _).length_le
  apply turns_run (inv_run bound listening buffer es) hopen ns
  exact (Nat.mul_le_mul_left 3 hturns).trans (hn.trans (Nat.le_add_right _ _))

/-- The second of three clients connects and says nothing. -/
theorem heartbeats_turns_three :
    (run step (.start true true ⟨List.replicate 512 0, List.length_replicate⟩)
      ([.connect, .connect, .connect, .write 0 [104, 105], .disconnect 2]
        ++ (List.replicate 9 254).map (.serve true))).lines.length = 1 := by
  have h := heartbeats_turns true true ⟨List.replicate 512 0, List.length_replicate⟩
    [.connect, .connect, .connect, .write 0 [104, 105], .disconnect 2]
    (List.replicate 9 254) rfl (by decide)
  rw [run_append]
  exact h

end Neroshop.Net.Heartbeat
