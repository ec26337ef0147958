import Neroshop.Lib.Descriptors
import Neroshop.Lib.Runs

/-!
# The client's socket

`client.cpp`, the Linux code: every operation of `Client` on its `socket`,
where `0` stands for "no socket", with the system calls it makes. What the
kernel and the name service answer is part of the operation. What a `read`
returns is in `Net.Channel`.

* `Lib.Descriptors`: what it is to use descriptors well.
* `Fits`: the operations that do, in a given state.
* `client_clean_iff`: over every life of a client, it owns what it touches and
  closes what it got exactly when each of its operations fits.
-/

namespace Neroshop.Net

open Lib.Descriptors Lib.Runs

/-- A `Client`, with a record of its system calls. -/
structure Client where
  socket : Int
  -- the calls made, the latest first
  calls : List Call
  deriving DecidableEq

/-- `Client::Client`, after the calls of the process so far. -/
def Client.new (calls : List Call) : Client := ⟨0, calls⟩

namespace Client

/-- A system call on the socket that leaves it open. -/
def use (c : Client) : Client := { c with calls := .used c.socket :: c.calls }

/-- `Client::create` -/
def create (c : Client) (fd : Int) : Client :=
  if c.socket ≠ 0 then c
  else
    match grant c.calls fd with
    | some fd => ⟨fd, .obtained fd :: c.calls⟩
    | none => { c with socket := -1 }

/-- `Client::close` -/
def close (c : Client) : Client :=
  if c.socket = 0 then c else ⟨0, .closed c.socket :: c.calls⟩

/-- `Client::shutdown` -/
def shutdown (c : Client) : Client := c.use

/-- `Client::read`, whose text does not matter here. -/
def read (c : Client) : Client := c.use

/-- `Client::write`; `sent` is the answer of `::write`. -/
def write (c : Client) (sent : Bool) : Bool × Client := (sent, c.use)

/-- What the calls of a `connect` answer: the descriptor the kernel offers to
`::socket`, whether the host has an address, and whether `::connect`
succeeds. -/
structure Dial where
  fd : Int
  host : Bool
  accepted : Bool
  deriving DecidableEq

/-- `Client::connect` -/
def connect (c : Client) (d : Dial) : Bool × Client :=
  let c := c.create d.fd
  if !d.host then (false, c)
  else
    let c := c.use
    if !d.accepted then (false, c.close) else (true, c)

/-- `Client::disconnect` -/
def disconnect (c : Client) (sent : Bool) : Client :=
  (c.write sent).2.shutdown.close

/-- `Client::reconnect` -/
def reconnect (c : Client) (d : Dial) : Bool × Client := c.close.connect d

/-- `Client::connected`: it writes, to find out. -/
def connected (c : Client) (sent : Bool) : Bool × Client :=
  if c.socket = 0 then (false, c) else (sent, c.use)

/-- `~Client`. -/
def destroy (c : Client) : Client := c.close

/-- The operations of a client, with the answers of the kernel. -/
inductive Op where
  | create (fd : Int)
  | connect (d : Dial)
  | reconnect (d : Dial)
  | write (sent : Bool)
  | read
  | shutdown
  | disconnect (sent : Bool)
  | close
  | connected (sent : Bool)

/-- One operation. -/
def step (c : Client) : Op → Client
  | .create fd => c.create fd
  | .connect d => (c.connect d).2
  | .reconnect d => (c.reconnect d).2
  | .write sent => (c.write sent).2
  | .read => c.read
  | .shutdown => c.shutdown
  | .disconnect sent => c.disconnect sent
  | .close => c.close
  | .connected sent => (c.connected sent).2

/-! ## What the three primitives do -/

variable {c : Client}

/-- The client holds the descriptor in `socket`, or nothing and `0`. -/
structure Tidy (c : Client) : Prop where
  granted : Granted c.calls
  sound : Sound c.calls
  nonneg : 0 ≤ c.socket
  owns : owned c.calls = if c.socket = 0 then ∅ else {c.socket}

/-- Past saving: a foreign descriptor was used, descriptor `0` is held and
taken for "no socket", or the socket is a failed one. -/
structure Doomed (c : Client) : Prop where
  granted : Granted c.calls
  cause : ¬ Sound c.calls ∨ 0 ∈ owned c.calls ∨ c.socket < 0

theorem Tidy.new : Tidy (.new []) := ⟨trivial, trivial, Int.le_refl 0, rfl⟩

theorem Tidy.open_iff (h : Tidy c) : c.socket ∈ owned c.calls ↔ c.socket ≠ 0 := by
  rw [h.owns]
  split
  · next h0 => simp [h0]
  · next h0 => simp [h0]

theorem create_open (h : c.socket ≠ 0) (fd : Int) : c.create fd = c := if_pos h

theorem create_none {fd : Int} (h : c.socket = 0) (hg : grant c.calls fd = none) :
    c.create fd = { c with socket := -1 } := by
  rw [create, if_neg (not_not_intro h), hg]

theorem create_some {fd : Int} (h : c.socket = 0) (hg : 0 ≤ fd ∧ fd ∉ owned c.calls) :
    c.create fd = ⟨fd, .obtained fd :: c.calls⟩ := by
  rw [create, if_neg (not_not_intro h), grant, if_pos hg]

theorem close_zero (h : c.socket = 0) : c.close = c := if_pos h

theorem close_open (h : c.socket ≠ 0) :
    c.close = ⟨0, .closed c.socket :: c.calls⟩ := if_neg h

@[simp] theorem close_socket (c : Client) : c.close.socket = 0 := by
  unfold close
  split
  · assumption
  · rfl

theorem Tidy.create {fd : Int} (h : Tidy c) (hfd : c.socket = 0 → 0 < fd) :
    Tidy (c.create fd) ∧ (c.create fd).socket ≠ 0 := by
  by_cases h0 : c.socket = 0
  · have hpos := hfd h0
    have howned : owned c.calls = ∅ := by rw [h.owns, if_pos h0]
    have hnew : fd ∉ owned c.calls := by simp [howned]
    have hne : fd ≠ 0 := by omega
    have hle : 0 ≤ fd := by omega
    rw [create_some h0 ⟨hle, hnew⟩]
    exact ⟨⟨⟨hle, hnew, h.granted⟩, h.sound, hle, by simp [howned, hne]⟩, hne⟩
  · rw [create_open h0]
    exact ⟨h, h0⟩

theorem Tidy.use (h : Tidy c) (h0 : c.socket ≠ 0) : Tidy c.use :=
  ⟨h.granted, ⟨h.open_iff.mpr h0, h.sound⟩, h.nonneg, h.owns⟩

theorem Tidy.close (h : Tidy c) : Tidy c.close := by
  by_cases h0 : c.socket = 0
  · rw [close_zero h0]
    exact h
  · rw [close_open h0]
    have howned : owned c.calls = {c.socket} := by rw [h.owns, if_neg h0]
    exact ⟨h.granted, ⟨h.open_iff.mpr h0, h.sound⟩, Int.le_refl 0, by simp [howned]⟩

theorem Doomed.create (h : Doomed c) (fd : Int) : Doomed (c.create fd) := by
  obtain ⟨hg, hcause⟩ := h
  by_cases h0 : c.socket = 0
  · have hcause' : ¬ Sound c.calls ∨ 0 ∈ owned c.calls := by
      rcases hcause with hs | hzero | hneg
      · exact .inl hs
      · exact .inr hzero
      · omega
    cases hgrant : grant c.calls fd with
    | none =>
        rw [create_none h0 hgrant]
        exact ⟨hg, hcause'.imp_right .inl⟩
    | some fd' =>
        obtain ⟨rfl, hfd⟩ := grant_eq_some.mp hgrant
        rw [create_some h0 hfd]
        refine ⟨⟨hfd.1, hfd.2, hg⟩, ?_⟩
        rcases hcause' with hs | hzero
        · exact .inl hs
        · exact .inr (.inl (Finset.mem_insert_of_mem hzero))
  · rw [create_open h0]
    exact ⟨hg, hcause⟩

theorem Doomed.use (h : Doomed c) : Doomed c.use := by
  obtain ⟨hg, hcause⟩ := h
  refine ⟨hg, ?_⟩
  rcases hcause with hs | hzero | hneg
  · left
    intro hsound
    exact hs hsound.2
  · exact .inr (.inl hzero)
  · exact .inr (.inr hneg)

/-- What `close` leaves of a doomed client. -/
theorem Doomed.close_cause (h : Doomed c) :
    ¬ Sound c.close.calls ∨ 0 ∈ owned c.close.calls := by
  obtain ⟨hg, hcause⟩ := h
  by_cases h0 : c.socket = 0
  · rw [close_zero h0]
    rcases hcause with hs | hzero | hneg
    · exact .inl hs
    · exact .inr hzero
    · omega
  · rw [close_open h0]
    rcases hcause with hs | hzero | hneg
    · left
      intro hsound
      exact hs hsound.2
    · right
      exact Finset.mem_erase.mpr ⟨Ne.symm h0, hzero⟩
    · left
      intro hsound
      have hpos := nonneg_of_owned hg hsound.1
      omega

theorem granted_close (h : Granted c.calls) : Granted c.close.calls := by
  unfold close
  split
  · exact h
  · exact h

theorem Doomed.close (h : Doomed c) : Doomed c.close :=
  ⟨granted_close h.granted, h.close_cause.imp_right .inl⟩

/-! ## Every operation -/

/-- The operations that keep the client tidy: where a new socket is made,
`::socket` returns a descriptor above `0`, and there is a socket to write to,
read from, shut down or disconnect. -/
def Fits (c : Client) : Op → Prop
  | .create fd => c.socket = 0 → 0 < fd
  | .connect d => c.socket = 0 → 0 < d.fd
  | .reconnect d => 0 < d.fd
  | .write _ | .read | .shutdown | .disconnect _ => c.socket ≠ 0
  | .close | .connected _ => True

instance (c : Client) (o : Op) : Decidable (Fits c o) := by
  cases o <;> unfold Fits <;> infer_instance

theorem Tidy.connect {d : Dial} (h : Tidy c) (hfd : c.socket = 0 → 0 < d.fd) :
    Tidy (c.connect d).2 := by
  obtain ⟨hc, h0⟩ := h.create hfd
  unfold Client.connect
  dsimp only
  split
  · exact hc
  · split
    · exact (hc.use h0).close
    · exact hc.use h0

theorem Doomed.connect {d : Dial} (h : Doomed (c.create d.fd)) :
    Doomed (c.connect d).2 := by
  unfold Client.connect
  dsimp only
  split
  · exact h
  · split
    · exact h.use.close
    · exact h.use

theorem Tidy.step {o : Op} (h : Tidy c) (ho : Fits c o) : Tidy (c.step o) := by
  cases o with
  | create fd => exact (h.create ho).1
  | connect d => exact h.connect ho
  | reconnect d => exact h.close.connect fun _ => ho
  | write sent => exact h.use ho
  | read => exact h.use ho
  | shutdown => exact h.use ho
  | disconnect sent => exact ((h.use ho).use ho).close
  | close => exact h.close
  | connected sent =>
      show Tidy (c.connected sent).2
      unfold connected
      split
      · exact h
      · next h0 => exact h.use h0

theorem Doomed.step (o : Op) (h : Doomed c) : Doomed (c.step o) := by
  cases o with
  | create fd => exact h.create fd
  | connect d => exact (h.create d.fd).connect
  | reconnect d => exact (h.close.create d.fd).connect
  | write sent => exact h.use
  | read => exact h.use
  | shutdown => exact h.use
  | disconnect sent => exact h.use.use.close
  | close => exact h.close
  | connected sent =>
      show Doomed (c.connected sent).2
      unfold connected
      split
      · exact h
      · exact h.use

/-- A socket that fails, or is descriptor `0`. -/
theorem Tidy.doomed_create {fd : Int} (h : Tidy c) (h0 : c.socket = 0) (hfd : ¬ 0 < fd) :
    Doomed (c.create fd) := by
  cases hgrant : grant c.calls fd with
  | none =>
      rw [create_none h0 hgrant]
      have hneg : (-1 : Int) < 0 := by decide
      exact ⟨h.granted, .inr (.inr hneg)⟩
  | some fd' =>
      obtain ⟨rfl, hpos, hnew⟩ := grant_eq_some.mp hgrant
      obtain rfl : fd = 0 := by omega
      rw [create_some h0 ⟨hpos, hnew⟩]
      exact ⟨⟨hpos, hnew, h.granted⟩, .inr (.inl (Finset.mem_insert_self 0 _))⟩

theorem Tidy.doomed_use (h : Tidy c) (h0 : c.socket = 0) : Doomed c.use := by
  refine ⟨h.granted, .inl ?_⟩
  intro hsound
  exact absurd h0 (h.open_iff.mp hsound.1)

theorem Tidy.doomed_step {o : Op} (h : Tidy c) (ho : ¬ Fits c o) : Doomed (c.step o) := by
  cases o with
  | create fd =>
      rw [Fits, Classical.not_imp] at ho
      exact h.doomed_create ho.1 ho.2
  | connect d =>
      rw [Fits, Classical.not_imp] at ho
      exact (h.doomed_create ho.1 ho.2).connect
  | reconnect d => exact (h.close.doomed_create (close_socket c) ho).connect
  | write sent => exact h.doomed_use (not_not.mp ho)
  | read => exact h.doomed_use (not_not.mp ho)
  | shutdown => exact h.doomed_use (not_not.mp ho)
  | disconnect sent => exact (h.doomed_use (not_not.mp ho)).use.close
  | close => exact absurd trivial ho
  | connected sent => exact absurd trivial ho

/-! ## A client's life -/

theorem Tidy.clean (h : Tidy c) : Clean c.destroy.calls := by
  have hc := h.close
  refine (clean_iff hc.granted).mpr ⟨hc.sound, ?_⟩
  rw [hc.owns, if_pos (close_socket c)]

theorem Doomed.not_clean (h : Doomed c) : ¬ Clean c.destroy.calls := by
  rcases h.close_cause with hs | hzero
  · intro hclean
    exact hs hclean.1
  · exact not_clean_of_owned h.close.granted hzero

/-- **When a client owns what it touches and closes what it got**: over every
life of a client, exactly when each of its operations fits. -/
theorem client_clean_iff (ops : List Op) :
    Clean (run step (.new []) ops).destroy.calls ↔ Along step Fits (.new []) ops := by
  have hgood : ∀ c o, Tidy c → Fits c o → Tidy (c.step o) := by
    intro c o hc ho
    exact hc.step ho
  have hbad : ∀ c o, Tidy c → ¬ Fits c o → Doomed (c.step o) := by
    intro c o hc ho
    exact hc.doomed_step ho
  have hdoomed : ∀ c o, Doomed c → Doomed (c.step o) := by
    intro c o hc
    exact hc.step o
  have hclean : ∀ c, Tidy c → Clean c.destroy.calls := by
    intro c hc
    exact hc.clean
  have hnot : ∀ c, Doomed c → ¬ Clean c.destroy.calls := by
    intro c hc
    exact hc.not_clean
  exact final_iff_along hgood hbad hdoomed hclean hnot Tidy.new ops

/-- A connect that is refused leaves no socket, and the read after it is a
read of descriptor `0`. -/
theorem client_reads_zero :
    ¬ ∀ ops, Clean (run step (.new []) ops).destroy.calls := by
  intro hall
  have h := (hall [.connect ⟨3, true, false⟩, .read]).1
  exact absurd h (by decide)

end Client

end Neroshop.Net
