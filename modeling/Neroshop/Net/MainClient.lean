import Neroshop.Net.Client

/-!
# The main client

`Client::get_main_client` over the global `client_obj`, and
`User::is_online`, which goes through it. The world holds the one client
object, a name for each object made, and the connection that stands, which
ends when its descriptor is closed or the other side closes.

`get_main_client` makes a new object on every call, and the destructor of the old
one closes its socket. `one_connection_iff`: the main client is one connection in
the runs with one access at most.
-/

namespace Neroshop.Net

open Lib.Descriptors Lib.Runs

/-- The main client, and the connection of the program. -/
structure World where
  -- `client_obj`: the name of the object and the object
  clientObj : Option (Nat × Client)
  -- how many objects have been made; the next one gets this name
  made : Nat
  -- the names of the objects that `get_main_client` has returned
  returned : List Nat
  -- the descriptor of the connection that both sides keep open
  established : Option Int
  -- the last `connect` succeeded
  succeeded : Bool

namespace World

/-- Before the first call of the process. -/
def start : World := ⟨none, 0, [], none, false⟩

/-- The calls made on the descriptors so far. -/
def calls (w : World) : List Call :=
  match w.clientObj with
  | none => []
  | some (_, c) => c.calls

/-- A connection does not outlive its descriptor. -/
def settle (w : World) : World :=
  { w with established := w.established.filter fun fd => fd ∈ owned w.calls }

/-- `Client::get_main_client`: the new object takes the place of the old one,
which is destroyed. -/
def getMainClient (w : World) : World :=
  let calls := match w.clientObj with
    | none => []
    | some (_, old) => old.destroy.calls
  settle { w with
    clientObj := some (w.made, .new calls)
    made := w.made + 1
    returned := w.made :: w.returned }

/-- `User::is_online`, when `::send` on a connection that does not stand goes
as `sent` says. -/
def isOnline (w : World) (sent : Bool) : Bool × World :=
  let w := w.getMainClient
  match w.clientObj with
  | none => (false, w)
  | some (name, c) =>
      let r := c.connected (sent || w.established.isSome)
      (r.1, { w with clientObj := some (name, r.2) })

/-- `connect` on the client. On a connection that stands, `::connect`
succeeds. A lookup that fails leaves the connection alone. -/
def connect (w : World) (d : Client.Dial) : World :=
  match w.clientObj with
  | none => w
  | some (name, c) =>
      let r := c.connect { d with accepted := d.accepted || w.established.isSome }
      settle { w with
        clientObj := some (name, r.2)
        established := if r.1 then some r.2.socket else w.established
        succeeded := r.1 }

/-- An operation of the client that opens no connection. -/
def onClient (w : World) (f : Client → Client) : World :=
  match w.clientObj with
  | none => w
  | some (name, c) => settle { w with clientObj := some (name, f c) }

/-- What the program does with its main client. -/
inductive Event where
  | getMainClient
  | isOnline (sent : Bool)
  | connect (d : Client.Dial)
  | write (sent : Bool)
  | disconnect (sent : Bool)
  -- the other side closes the connection
  | peerCloses

/-- One event. -/
def step (w : World) : Event → World
  | .getMainClient => w.getMainClient
  | .isOnline sent => (w.isOnline sent).2
  | .connect d => w.connect d
  | .write sent => w.onClient fun c => (c.write sent).2
  | .disconnect sent => w.onClient fun c => c.disconnect sent
  | .peerCloses => { w with established := none }

/-- The calls that go through `get_main_client`. -/
def Event.accesses : Event → Bool
  | .getMainClient | .isOnline _ => true
  | _ => false

/-! ## What an access does -/

/-- The descriptor of the main client. -/
def socket (w : World) : Option Int := w.clientObj.map fun p => p.2.socket

/-- The connection that stands before the call stands after it, over the
socket of the main client. -/
def KeepsConnection (w : World) (e : Event) : Prop :=
  ∀ fd, w.established = some fd →
    (w.step e).established = some fd ∧ (w.step e).socket = some fd

/-- Every call so far returned the object that this one returns. -/
def SameClient (w : World) (e : Event) : Prop :=
  ∀ name ∈ w.returned, (w.step e).clientObj.map Prod.fst = some name

/-- `is_online` sees the connection that the last `connect` made. -/
def SeesConnection (w : World) : Event → Prop
  | .isOnline sent =>
      w.established.isSome → w.succeeded = true → (w.isOnline sent).1 = true
  | _ => True

/-- What the main client promises of each access. -/
def OneConnection (w : World) (e : Event) : Prop :=
  e.accesses = true → KeepsConnection w e ∧ SameClient w e ∧ SeesConnection w e

/-- **Nobody is online**: whatever the connection, `is_online` asks an object
that has no socket. -/
theorem isOnline_eq (w : World) (sent : Bool) :
    w.isOnline sent = (false, w.getMainClient) := by
  unfold isOnline getMainClient settle
  rfl

/-! ## Before and after the first access -/

/-- Nobody has asked for the main client yet. -/
structure Untouched (w : World) : Prop where
  clientObj : w.clientObj = none
  returned : w.returned = []
  established : w.established = none

/-- The main client has been returned, under a name that is not used again. -/
structure Known (w : World) : Prop where
  returned : w.returned ≠ []
  names : ∀ name ∈ w.returned, name < w.made

theorem step_access (w : World) {e : Event} (he : e.accesses = true) :
    w.step e = w.getMainClient := by
  cases e with
  | getMainClient => rfl
  | isOnline sent => exact congrArg Prod.snd (isOnline_eq w sent)
  | connect | write | disconnect | peerCloses => cases he

theorem step_other (w : World) {e : Event} (he : e.accesses = false) :
    (w.step e).made = w.made ∧ (w.step e).returned = w.returned
      ∧ (w.clientObj = none → w.established = none →
          (w.step e).clientObj = none ∧ (w.step e).established = none) := by
  obtain ⟨clientObj, made, returned, established, succeeded⟩ := w
  cases e with
  | getMainClient => cases he
  | isOnline sent => cases he
  | peerCloses => exact ⟨rfl, rfl, fun hobj _ => ⟨hobj, rfl⟩⟩
  | connect d =>
      cases clientObj with
      | none => exact ⟨rfl, rfl, fun hobj hest => ⟨hobj, hest⟩⟩
      | some p => exact ⟨rfl, rfl, fun hobj => by cases hobj⟩
  | write sent | disconnect sent =>
      cases clientObj with
      | none => exact ⟨rfl, rfl, fun hobj hest => ⟨hobj, hest⟩⟩
      | some p => exact ⟨rfl, rfl, fun hobj => by cases hobj⟩

/-- **The main client is a new one each time**: no access returns an object
that was returned before. -/
theorem Known.not_oneConnection {w : World} (h : Known w) {e : Event}
    (he : e.accesses = true) : ¬ OneConnection w e := by
  intro hone
  obtain ⟨-, hsame, -⟩ := hone he
  obtain ⟨name, hname⟩ := List.exists_mem_of_ne_nil _ h.returned
  have heq := hsame name hname
  rw [step_access w he] at heq
  have hmade : some w.made = some name := heq
  have hlt := h.names name hname
  cases hmade
  exact absurd hlt (Nat.lt_irrefl _)

theorem Untouched.oneConnection {w : World} (h : Untouched w) (e : Event) :
    OneConnection w e := by
  intro _
  refine ⟨?_, ?_, ?_⟩
  · intro fd hfd
    rw [h.established] at hfd
    cases hfd
  · intro name hname
    rw [h.returned] at hname
    cases hname
  · cases e with
    | isOnline sent =>
        intro hest
        rw [h.established] at hest
        cases hest
    | getMainClient | connect | write | disconnect | peerCloses => trivial

theorem Untouched.known {w : World} (h : Untouched w) : Known w.getMainClient := by
  have hret : w.getMainClient.returned = [w.made] :=
    congrArg (List.cons w.made) h.returned
  refine ⟨?_, ?_⟩
  · rw [hret]
    exact List.cons_ne_nil _ _
  · intro name hname
    rw [hret] at hname
    rw [List.mem_singleton.mp hname]
    exact Nat.lt_succ_self w.made

theorem Untouched.other {w : World} (h : Untouched w) {e : Event}
    (he : e.accesses = false) : Untouched (w.step e) := by
  obtain ⟨-, hret, hrest⟩ := step_other w he
  obtain ⟨hobj, hest⟩ := hrest h.clientObj h.established
  exact ⟨hobj, hret.trans h.returned, hest⟩

theorem Known.other {w : World} (h : Known w) {e : Event}
    (he : e.accesses = false) : Known (w.step e) := by
  obtain ⟨hmade, hret, -⟩ := step_other w he
  refine ⟨?_, ?_⟩
  · rw [hret]
    exact h.returned
  · rw [hret, hmade]
    exact h.names

theorem oneConnection_other (w : World) {e : Event} (he : e.accesses = false) :
    OneConnection w e := by
  intro h
  rw [he] at h
  cases h

/-! ## Every run -/

theorem Known.along_iff {w : World} (h : Known w) (es : List Event) :
    Along step OneConnection w es ↔ es.countP Event.accesses = 0 := by
  have hexact : ∀ w e, Known w → (OneConnection w e ↔ ¬ e.accesses = true) := by
    intro w e hw
    constructor
    · intro hone he
      exact hw.not_oneConnection he hone
    · intro he
      exact oneConnection_other w (Bool.eq_false_iff.mpr he)
  have hkeep : ∀ w e, Known w → OneConnection w e → Known (w.step e) := by
    intro w e hw hone
    exact hw.other (Bool.eq_false_iff.mpr ((hexact w e hw).mp hone))
  rw [along_iff_of_exact hexact hkeep h es, along_const_iff, List.countP_eq_zero]

/-- **When the main client is one connection**: in exactly the runs with at
most one call of `get_main_client` or `is_online`. -/
theorem one_connection_iff (es : List Event) :
    Along step OneConnection .start es ↔ es.countP Event.accesses ≤ 1 := by
  have hstart : Untouched .start := ⟨rfl, rfl, rfl⟩
  have key : ∀ w, Untouched w →
      (Along step OneConnection w es ↔ es.countP Event.accesses ≤ 1) := by
    induction es with
    | nil =>
        intro w _
        exact iff_of_true trivial (Nat.zero_le 1)
    | cons e es ih =>
        intro w hw
        rw [along_cons, and_iff_right (hw.oneConnection e), List.countP_cons]
        cases he : e.accesses with
        | false =>
            rw [ih _ (hw.other he)]
            rfl
        | true =>
            rw [step_access w he, hw.known.along_iff es, if_pos rfl]
            omega
  exact key _ hstart

/-- The question whether the user is online closes the connection that it
asks about. -/
theorem isOnline_disconnects : ¬ ∀ es, Along step OneConnection .start es := by
  intro hall
  have h := hall [.getMainClient, .connect ⟨3, true, true⟩, .isOnline true]
  have hkeeps := (h.2.2.1 rfl).1 3 (by decide)
  exact absurd hkeeps.1 (by decide)

end World

end Neroshop.Net
