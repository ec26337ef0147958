import Neroshop.Lib.Descriptors
import Neroshop.Lib.Runs

/-!
# The server's two sockets

`server.cpp`, the Linux code: the listening `socket` and the `newsocket` of
the last client, and which descriptors a server obtains, shuts down and
closes. The constructor leaves `newsocket` as the memory has it. What the
kernel answers is part of the operation. What a `read` returns is in
`Net.Channel`.

* `Waiting` and `Serving`: a server before and after its one `accept`.
* `Serves`: the lives that leave nothing behind.
* `server_clean_iff`: a server closes each of its descriptors once, and nothing
  else, in exactly these.
-/

namespace Neroshop.Net

open Lib.Descriptors Lib.Runs

/-- A `Server`, with a record of its system calls. -/
structure Server where
  socket : Int
  newsocket : Int
  -- the calls of `::socket`, `::accept`, `::shutdown` and `::close`, the
  -- latest first
  calls : List Call
  deriving DecidableEq

/-- `Server::Server`, over memory that holds `garbage` and with a kernel that
offers `fd` to `::socket`. -/
def Server.new (garbage fd : Int) : Server :=
  match grant [] fd with
  | some fd => ⟨fd, garbage, [.obtained fd]⟩
  | none => ⟨-1, garbage, []⟩

namespace Server

/-- `Server::close` -/
def close (s : Server) : Server :=
  { s with calls := .closed s.newsocket :: .closed s.socket :: s.calls }

/-- `Server::shutdown` -/
def shutdown (s : Server) : Server :=
  { s with calls := .used s.newsocket :: .used s.socket :: s.calls }

/-- `Server::bind`; `bound` is the answer of `::bind`. -/
def bind (s : Server) (bound : Bool) : Bool × Server :=
  if !bound then (false, s.close) else (true, s)

/-- `Server::listen`; `listening` is the answer of `::listen`. -/
def listen (s : Server) (listening : Bool) : Bool × Server :=
  if !listening then (false, s.shutdown.close) else (true, s)

/-- What `::accept` on the socket returns when the kernel offers `fd`. The
socket it is called on is open, so it is never given out itself. -/
def accepted (s : Server) (fd : Int) : Option Int :=
  if fd = s.socket then none else grant s.calls fd

/-- `Server::accept`; `fd` is the answer of `::accept`. -/
def accept (s : Server) (fd : Int) : Bool × Server :=
  match s.accepted fd with
  | some fd => (true, { s with newsocket := fd, calls := .obtained fd :: s.calls })
  | none => (false, ({ s with newsocket := -1 } : Server).shutdown.close)

/-- `Server::write`, whose answer is dropped. -/
def write (s : Server) : Server := s

/-- `Server::read`, whose text does not matter here. -/
def read (s : Server) (delivered : Bool) : Server :=
  if !delivered then s.shutdown.close else s

/-- `~Server`. -/
def destroy (s : Server) : Server := s.close

/-- The operations of a server, with the answers of the kernel. -/
inductive Op where
  | bind (bound : Bool)
  | listen (listening : Bool)
  | accept (fd : Int)
  | read (delivered : Bool)
  | write
  | shutdown
  | close

/-- One operation. -/
def step (s : Server) : Op → Server
  | .bind bound => (s.bind bound).2
  | .listen listening => (s.listen listening).2
  | .accept fd => (s.accept fd).2
  | .read delivered => s.read delivered
  | .write => s.write
  | .shutdown => s.shutdown
  | .close => s.close

/-! ## Where the descriptors are -/

variable {s : Server}

/-- Before the first client: only the listening socket is held. -/
structure Waiting (s : Server) : Prop where
  granted : Granted s.calls
  sound : Sound s.calls
  owns : owned s.calls = {s.socket}

/-- Both fields hold a descriptor. -/
structure Serving (s : Server) : Prop where
  granted : Granted s.calls
  sound : Sound s.calls
  ne : s.newsocket ≠ s.socket
  owns : owned s.calls = {s.socket, s.newsocket}

/-- Past saving: a foreign descriptor was closed or shut down, the one in
`socket` is not the server's any more, or one is held that no field names. -/
structure Doomed (s : Server) : Prop where
  granted : Granted s.calls
  cause : ¬ Sound s.calls ∨ s.socket ∉ owned s.calls
    ∨ ∃ fd ∈ owned s.calls, fd ≠ s.socket ∧ fd ≠ s.newsocket

/-- After any `close` the destructor closes a second time. -/
theorem doomed_close (h : Granted s.calls) : Doomed s.close := by
  refine ⟨h, .inr (.inl ?_)⟩
  show s.socket ∉ ((owned s.calls).erase s.socket).erase s.newsocket
  intro hin
  exact Finset.notMem_erase s.socket _ (Finset.mem_of_mem_erase hin)

theorem Doomed.shutdown (h : Doomed s) : Doomed s.shutdown := by
  obtain ⟨hg, hcause⟩ := h
  refine ⟨hg, ?_⟩
  rcases hcause with hs | hrest
  · left
    intro hsound
    exact hs hsound.2.2
  · exact .inr hrest

theorem accept_some {fd fd' : Int} (h : s.accepted fd = some fd') :
    (s.accept fd).2 = { s with newsocket := fd, calls := .obtained fd :: s.calls }
      ∧ fd ≠ s.socket ∧ 0 ≤ fd ∧ fd ∉ owned s.calls := by
  unfold accept
  rw [h]
  unfold accepted at h
  split at h
  · cases h
  · next hne =>
      obtain ⟨rfl, hpos, hnew⟩ := grant_eq_some.mp h
      exact ⟨rfl, hne, hpos, hnew⟩

theorem doomed_accept_none {fd : Int} (hg : Granted s.calls)
    (h : s.accepted fd = none) : Doomed (s.accept fd).2 := by
  unfold accept
  rw [h]
  exact doomed_close hg

theorem Doomed.accept (h : Doomed s) (fd : Int) : Doomed (s.accept fd).2 := by
  cases hacc : s.accepted fd with
  | none => exact doomed_accept_none h.granted hacc
  | some fd' =>
      obtain ⟨heq, hne, hpos, hnew⟩ := accept_some hacc
      rw [heq]
      obtain ⟨hg, hcause⟩ := h
      refine ⟨⟨hpos, hnew, hg⟩, ?_⟩
      rcases hcause with hs | hgone | ⟨lost, hin, hsock, -⟩
      · exact .inl hs
      · right; left
        intro hin
        rcases Finset.mem_insert.mp hin with hfd | hold
        · exact hne hfd.symm
        · exact hgone hold
      · right; right
        refine ⟨lost, Finset.mem_insert_of_mem hin, hsock, ?_⟩
        rintro rfl
        exact hnew hin

/-- No `close`, no failing `bind`, `listen` or `read`, and no `accept`. -/
def Quiet : Op → Prop
  | .bind ok | .listen ok | .read ok => ok = true
  | .accept _ | .close => False
  | .write | .shutdown => True

theorem step_quiet {o : Op} (ho : Quiet o) (hsd : o ≠ .shutdown) : s.step o = s := by
  cases o with
  | bind bound =>
      obtain rfl : bound = true := ho
      rfl
  | listen listening =>
      obtain rfl : listening = true := ho
      rfl
  | accept fd => exact absurd ho id
  | read delivered =>
      obtain rfl : delivered = true := ho
      rfl
  | write => rfl
  | shutdown => exact absurd rfl hsd
  | close => exact absurd ho id

/-- An operation that is neither quiet nor an `accept` closes the sockets. -/
theorem doomed_of_not_quiet {o : Op} (hg : Granted s.calls) (ho : ¬ Quiet o)
    (hacc : ∀ fd, o ≠ .accept fd) : Doomed (s.step o) := by
  cases o with
  | bind bound =>
      obtain rfl : bound = false := Bool.eq_false_iff.mpr ho
      exact doomed_close hg
  | listen listening =>
      obtain rfl : listening = false := Bool.eq_false_iff.mpr ho
      exact doomed_close hg
  | accept fd => exact absurd rfl (hacc fd)
  | read delivered =>
      obtain rfl : delivered = false := Bool.eq_false_iff.mpr ho
      exact doomed_close hg
  | write => exact absurd trivial ho
  | shutdown => exact absurd trivial ho
  | close => exact doomed_close hg

theorem Doomed.step (o : Op) (h : Doomed s) : Doomed (s.step o) := by
  by_cases hacc : ∃ fd, o = .accept fd
  · rcases hacc with ⟨fd, rfl⟩
    exact h.accept fd
  by_cases ho : Quiet o
  · by_cases hsd : o = .shutdown
    · subst hsd
      exact h.shutdown
    · rw [step_quiet ho hsd]
      exact h
  · exact doomed_of_not_quiet h.granted ho (not_exists.mp hacc)

theorem Doomed.not_clean (h : Doomed s) : ¬ Clean s.destroy.calls := by
  obtain ⟨hg, hcause⟩ := h
  have hgranted : Granted s.destroy.calls := hg
  rcases hcause with hs | hgone | ⟨lost, hin, hsock, hnews⟩
  · intro hclean
    exact hs hclean.1.2.2
  · intro hclean
    exact hgone hclean.1.2.1
  · have hlost : lost ∈ owned s.destroy.calls :=
      Finset.mem_erase.mpr ⟨hnews, Finset.mem_erase.mpr ⟨hsock, hin⟩⟩
    exact not_clean_of_owned hgranted hlost

theorem doomed_run (h : Doomed s) (ops : List Op) :
    ¬ Clean (run step s ops).destroy.calls := by
  have hstep : ∀ s o, Doomed s → Doomed (s.step o) := by
    intro s o hs
    exact hs.step o
  exact (run_inv hstep h ops).not_clean

/-! ## From the first client on -/

theorem Serving.close (h : Serving s) : Clean s.close.calls := by
  have hg : Granted s.close.calls := h.granted
  have hnews : s.newsocket ∈ (owned s.calls).erase s.socket := by
    rw [h.owns]
    exact Finset.mem_erase.mpr ⟨h.ne, by simp⟩
  have hsock : s.socket ∈ owned s.calls := by simp [h.owns]
  refine (clean_iff hg).mpr ⟨⟨hnews, hsock, h.sound⟩, ?_⟩
  show ((owned s.calls).erase s.socket).erase s.newsocket = ∅
  rw [h.owns]
  ext fd
  simp only [Finset.mem_erase, Finset.mem_insert, Finset.mem_singleton,
    Finset.notMem_empty, iff_false]
  tauto

theorem Serving.shutdown (h : Serving s) : Serving s.shutdown := by
  have hsock : s.socket ∈ owned s.calls := by simp [h.owns]
  have hnews : s.newsocket ∈ owned s.calls := by simp [h.owns]
  exact ⟨h.granted, ⟨hnews, hsock, h.sound⟩, h.ne, h.owns⟩

theorem Serving.quiet_step {o : Op} (h : Serving s) (ho : Quiet o) :
    Serving (s.step o) := by
  by_cases hsd : o = .shutdown
  · subst hsd
    exact h.shutdown
  · rw [step_quiet ho hsd]
    exact h

/-- A second `accept` loses the first client's descriptor. -/
theorem Serving.doomed_accept (h : Serving s) (fd : Int) : Doomed (s.accept fd).2 := by
  cases hacc : s.accepted fd with
  | none => exact doomed_accept_none h.granted hacc
  | some fd' =>
      obtain ⟨heq, -, hpos, hnew⟩ := accept_some hacc
      rw [heq]
      have hin : s.newsocket ∈ owned s.calls := by simp [h.owns]
      refine ⟨⟨hpos, hnew, h.granted⟩, .inr (.inr ⟨s.newsocket, ?_, h.ne, ?_⟩)⟩
      · exact Finset.mem_insert_of_mem hin
      · rintro rfl
        exact hnew hin

theorem Serving.doomed_step {o : Op} (h : Serving s) (ho : ¬ Quiet o) :
    Doomed (s.step o) := by
  by_cases hacc : ∃ fd, o = .accept fd
  · obtain ⟨fd, rfl⟩ := hacc
    exact h.doomed_accept fd
  · exact doomed_of_not_quiet h.granted ho (not_exists.mp hacc)

theorem Serving.clean_iff (h : Serving s) (ops : List Op) :
    Clean (run step s ops).destroy.calls ↔ ∀ o ∈ ops, Quiet o := by
  have hgood : ∀ s o, Serving s → Quiet o → Serving (s.step o) := by
    intro s o hs ho
    exact hs.quiet_step ho
  have hbad : ∀ s o, Serving s → ¬ Quiet o → Doomed (s.step o) := by
    intro s o hs ho
    exact hs.doomed_step ho
  have hdoomed : ∀ s o, Doomed s → Doomed (s.step o) := by
    intro s o hs
    exact hs.step o
  have hclean : ∀ s, Serving s → Clean s.destroy.calls := by
    intro s hs
    exact hs.close
  have hnot : ∀ s, Doomed s → ¬ Clean s.destroy.calls := by
    intro s hs
    exact hs.not_clean
  rw [final_iff_along hgood hbad hdoomed hclean hnot h ops]
  exact along_const_iff

/-! ## Up to the first client -/

/-- The lives of a server that leave nothing behind: one `accept`, which
succeeds, everything else quiet, and a `shutdown` before the `accept` only
if the memory under `newsocket` happens to hold the listening descriptor. -/
def Serves (garbage fd : Int) : List Op → Prop
  | [] => False
  | .accept client :: ops => 0 ≤ client ∧ client ≠ fd ∧ ∀ o ∈ ops, Quiet o
  | .shutdown :: ops => garbage = fd ∧ Serves garbage fd ops
  | o :: ops => Quiet o ∧ Serves garbage fd ops

theorem Waiting.not_clean (h : Waiting s) : ¬ Clean s.destroy.calls := by
  intro hclean
  have hin : s.newsocket ∈ (owned s.calls).erase s.socket := hclean.1.1
  simp [h.owns] at hin

theorem Waiting.shutdown_iff (h : Waiting s) :
    Sound s.shutdown.calls ↔ s.newsocket = s.socket := by
  show s.newsocket ∈ owned s.calls ∧ s.socket ∈ owned s.calls ∧ Sound s.calls ↔ _
  simp [h.owns, h.sound]

theorem Waiting.shutdown (h : Waiting s) (heq : s.newsocket = s.socket) :
    Waiting s.shutdown := ⟨h.granted, h.shutdown_iff.mpr heq, h.owns⟩

theorem Waiting.accept {fd : Int} (h : Waiting s) (hpos : 0 ≤ fd) (hne : fd ≠ s.socket) :
    Serving (s.accept fd).2 := by
  have hnew : fd ∉ owned s.calls := by simp [h.owns, hne]
  have hacc : s.accepted fd = some fd := by
    unfold accepted
    rw [if_neg hne]
    exact grant_eq_some.mpr ⟨rfl, hpos, hnew⟩
  obtain ⟨heq, -⟩ := accept_some hacc
  rw [heq]
  refine ⟨⟨hpos, hnew, h.granted⟩, h.sound, hne, ?_⟩
  show insert fd (owned s.calls) = {s.socket, fd}
  rw [h.owns]
  exact Finset.pair_comm fd s.socket

theorem Waiting.doomed_accept {fd : Int} (h : Waiting s)
    (hfd : ¬ (0 ≤ fd ∧ fd ≠ s.socket)) : Doomed (s.accept fd).2 := by
  cases hacc : s.accepted fd with
  | none => exact doomed_accept_none h.granted hacc
  | some fd' =>
      obtain ⟨-, hne, hpos, -⟩ := accept_some hacc
      exact absurd ⟨hpos, hne⟩ hfd

theorem serves_cons {garbage fd : Int} {o : Op} {ops : List Op}
    (hacc : ∀ client, o ≠ .accept client) (hsd : o ≠ .shutdown) :
    Serves garbage fd (o :: ops) ↔ Quiet o ∧ Serves garbage fd ops := by
  cases o with
  | accept client => exact absurd rfl (hacc client)
  | shutdown => exact absurd rfl hsd
  | bind | listen | read | write | close => exact Iff.rfl

theorem Waiting.clean_iff (h : Waiting s) (ops : List Op) :
    Clean (run step s ops).destroy.calls ↔ Serves s.newsocket s.socket ops := by
  induction ops generalizing s with
  | nil => exact iff_of_false h.not_clean id
  | cons o ops ih =>
      rw [run_cons]
      by_cases hacc : ∃ client, o = .accept client
      · obtain ⟨client, rfl⟩ := hacc
        rw [Serves, ← and_assoc]
        by_cases hc : 0 ≤ client ∧ client ≠ s.socket
        · rw [and_iff_right hc]
          exact (h.accept hc.1 hc.2).clean_iff ops
        · refine iff_of_false (doomed_run (h.doomed_accept hc) ops) ?_
          intro hserves
          exact hc hserves.1
      · have hacc := not_exists.mp hacc
        by_cases hsd : o = .shutdown
        · subst hsd
          by_cases heq : s.newsocket = s.socket
          · rw [Serves, and_iff_right heq]
            exact ih (h.shutdown heq)
          · have hd : Doomed s.shutdown :=
              ⟨h.granted, .inl (h.shutdown_iff.not.mpr heq)⟩
            refine iff_of_false (doomed_run hd ops) ?_
            intro hserves
            exact heq hserves.1
        · rw [serves_cons hacc hsd]
          by_cases hq : Quiet o
          · rw [step_quiet hq hsd, and_iff_right hq]
            exact ih h
          · have hd := doomed_of_not_quiet h.granted hq hacc
            refine iff_of_false (doomed_run hd ops) ?_
            intro hserves
            exact hq hserves.1

/-! ## A server's life -/

/-- **When a server closes each of its descriptors once, and nothing else**:
over every life, exactly when the constructor gets a socket and the
operations serve one client. -/
theorem server_clean_iff (garbage fd : Int) (ops : List Op) :
    Clean (run step (.new garbage fd) ops).destroy.calls
      ↔ 0 ≤ fd ∧ Serves garbage fd ops := by
  by_cases hfd : 0 ≤ fd
  · have hgrant : grant [] fd = some fd := by simp [grant, hfd]
    have hw : Waiting (.new garbage fd) := by
      simp only [Server.new, hgrant]
      exact ⟨⟨hfd, Finset.notMem_empty fd, trivial⟩, trivial, rfl⟩
    rw [and_iff_right hfd, hw.clean_iff ops]
    simp only [Server.new, hgrant]
  · have hgrant : grant [] fd = none := by simp [grant, hfd]
    have hd : Doomed (.new garbage fd) := by
      simp only [Server.new, hgrant]
      exact ⟨trivial, .inr (.inl (Finset.notMem_empty (-1)))⟩
    refine iff_of_false (doomed_run hd ops) ?_
    intro h
    exact hfd h.1

/-- A heartbeat that accepts a second client never closes the first one's
descriptor. -/
theorem server_second_client :
    ¬ ∀ garbage fd ops, Clean (run step (.new garbage fd) ops).destroy.calls := by
  intro hall
  have h := (hall 0 3 [.bind true, .listen true, .accept 4, .write, .read true,
    .accept 5, .write, .read true, .shutdown]).2 4
  exact absurd h (by decide)

end Server

end Neroshop.Net
