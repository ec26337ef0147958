import Neroshop.Db.Query
import Neroshop.Lib.Rep
import Neroshop.Lib.Runs

/-!
# Daemon — the request server

`daemon.cpp`: `interpret_query` and the loop of `run_server`. The dispatch
runs over a reply socket; its character tests are `std::string::operator[]`,
defined up to the terminating zero at index `size()` and undefined past it,
and are evaluated in the order of the source (`&&` short-circuits).

* `reply?`: what the dispatch answers to a request, if it answers.
* `interpretQuery_in_bounds`: its tests stay within the string.
* `runServer_served_iff`: a sequence of requests is served to the end exactly when
  each of them has an answer.
-/

namespace Neroshop.Daemon

open Lib.CStr Lib.Runs
open Lib.Rep (Socket)
open Neroshop.Db

/-- How the server thread stops. -/
inductive Fault where
  -- a character was read past the terminating zero
  | outOfBounds
  -- ZeroMQ: the socket is not in the state for this operation
  | socketState
  deriving DecidableEq, Repr

/-- Code of the server thread, over its socket. -/
abbrev Serving (α : Type) := StateT (Socket Bytes) (Except Fault) α

/-- `socket.recv` -/
def recv (request : Bytes) : Serving Unit := fun s =>
  match s.recv request with
  | some s' => .ok ((), s')
  | none => .error .socketState

/-- `socket.send` -/
def send (reply : Bytes) : Serving Unit := fun s =>
  match s.send reply with
  | some s' => .ok ((), s')
  | none => .error .socketState

/-- `q[i] == c` -/
def charIs (q : Bytes) (i : Nat) (c : Char) : Serving Bool := fun s =>
  if q.length < i then .error .outOfBounds
  else .ok (q.getD i 0 == UInt8.ofNat c.toNat, s)

/-- `interpret_query` -/
def interpretQuery (search : Search) (q : Bytes) : Serving Unit := do
  if ← charIs q 0 'c' <&&> charIs q 1 'o' then
    send (ascii "accept")
  else if ← charIs q 0 'd' <&&> charIs q 1 'b' then
    if ← charIs q 2 ' ' <&&> charIs q 3 'q' then
      send (dbQuery search q)
    else if ← charIs q 2 ' ' <&&> charIs q 3 'a' then
      send (dbAdd q)
  else
    -- the buffer of a literal is the whole array, its zero included
    send (ascii "unknown command" ++ [0])

/-- One turn of the loop of `run_server`: `request` is the next message. -/
def turn (search : Search) (request : Bytes) : Serving Unit := do
  recv request
  interpretQuery search request

/-- The server thread: serving on a socket, or ended by a fault. -/
abbrev Thread := Except Fault (Socket Bytes)

/-- The next turn of the server, if it goes on. -/
def step (search : Search) (t : Thread) (request : Bytes) : Thread :=
  match t with
  | .error f => .error f
  | .ok s => (turn search request s).map Prod.snd

/-- `run_server`, up to the requests `qs`. -/
def runServer (search : Search) (qs : List Bytes) : Thread :=
  run (step search) (.ok Socket.fresh) qs

/-! ## The dispatch -/

/-- What the dispatch sends for a request, if it sends anything. -/
def reply? (search : Search) (q : Bytes) : Option Bytes :=
  if ascii "co" <+: q then some (ascii "accept")
  else if ascii "db" <+: q then
    if ascii "db q" <+: q then some (dbQuery search q)
    else if ascii "db a" <+: q then some (dbAdd q)
    else none
  else some (ascii "unknown command" ++ [0])

theorem charIs_append (pre r : Bytes) (c : Char) (s : Socket Bytes) :
    charIs (pre ++ r) pre.length c s
      = .ok (r.getD 0 0 == UInt8.ofNat c.toNat, s) := by
  simp [charIs, List.getElem?_append_right]

/-- `&&` evaluates its right side only after a true left side. -/
theorem andM_eval {x y : Serving Bool} {s : Socket Bytes} {b : Bool}
    (hx : x s = .ok (b, s)) :
    (x <&&> y) s = if b then y s else .ok (false, s) := by
  show (x s >>= fun p => _) = _
  rw [hx]
  cases b <;> rfl

/-- The test of two neighbouring characters `cd`, behind a part `pre` of the
string: it stays in bounds, and it is a prefix test of the rest. -/
theorem charIs_and {q pre r cd : Bytes} {i : Nat} {c d : Char}
    (s : Socket Bytes) (hq : q = pre ++ r) (hi : i = pre.length)
    (hcd : cd = [UInt8.ofNat c.toNat, UInt8.ofNat d.toNat]) (h0 : 0 ∉ cd) :
    (charIs q i c <&&> charIs q (i + 1) d) s = .ok (decide (cd <+: r), s) := by
  subst hq hi hcd
  simp only [List.mem_cons, List.not_mem_nil, or_false, not_or] at h0
  rw [andM_eval (charIs_append pre r c s)]
  cases r with
  | nil => simp [h0.1]
  | cons x r =>
      have hnext := charIs_append (pre ++ [x]) r d s
      rw [List.append_assoc, List.singleton_append, List.length_append,
        List.length_singleton] at hnext
      rw [hnext]
      by_cases hx : x = UInt8.ofNat c.toNat
      · cases r with
        | nil => simp [hx, h0.2]
        | cons y r => simp [hx, eq_comm, beq_eq_decide]
      · simp [hx, List.cons_prefix_cons, Ne.symm hx]

/-- The outer tests, of the first two characters. -/
theorem charIs_outer (c d : Char) {cd : Bytes}
    (hcd : cd = [UInt8.ofNat c.toNat, UInt8.ofNat d.toNat]) (h0 : 0 ∉ cd) (q : Bytes)
    (s : Socket Bytes) :
    (charIs q 0 c <&&> charIs q 1 d) s = .ok (decide (cd <+: q), s) :=
  charIs_and s (List.nil_append q).symm rfl hcd h0

/-- The inner tests, of the blank and the character behind `db`. -/
theorem charIs_inner (c : Char) {cmd : Bytes}
    (hcmd : cmd = ascii "db" ++ [32, UInt8.ofNat c.toNat]) (h0 : UInt8.ofNat c.toNat ≠ 0)
    {q : Bytes} (h : ascii "db" <+: q) (s : Socket Bytes) :
    (charIs q 2 ' ' <&&> charIs q 3 c) s = .ok (decide (cmd <+: q), s) := by
  obtain ⟨r, rfl⟩ := h
  have hr : cmd <+: ascii "db" ++ r ↔ [32, UInt8.ofNat c.toNat] <+: r := by
    rw [hcmd]
    exact List.prefix_append_right_inj (ascii "db")
  simp only [hr]
  exact charIs_and s rfl rfl rfl (by simpa using h0.symm)

theorem ite_eval {t : Serving Bool} {p : Prop} [Decidable p]
    {s : Socket Bytes} (ht : t s = .ok (decide p, s)) (a b : Serving Unit) :
    (t >>= fun x => if x = true then a else b) s = if p then a s else b s := by
  show (t s >>= fun x => (if x.1 = true then a else b) x.2) = _
  rw [ht]
  by_cases hp : p <;> simp [hp, bind, Except.bind]

/-- **The dispatch**: it never reads out of bounds, and it sends what
`reply?` says, once or not at all. -/
theorem interpretQuery_eq (search : Search) (q : Bytes) (s : Socket Bytes) :
    interpretQuery search q s
      = match reply? search q with
        | some r => send r s
        | none => .ok ((), s) := by
  unfold interpretQuery reply?
  rw [ite_eval (charIs_outer 'c' 'o' (show ascii "co" = _ from rfl) (by decide) q s)]
  split
  · rfl
  rw [ite_eval (charIs_outer 'd' 'b' (show ascii "db" = _ from rfl) (by decide) q s)]
  split
  · next hdb =>
      rw [ite_eval (charIs_inner 'q' (show ascii "db q" = _ from rfl) (by decide) hdb s),
        ite_eval (charIs_inner 'a' (show ascii "db a" = _ from rfl) (by decide) hdb s)]
      split
      · rfl
      · split <;> rfl
  · rfl

/-! ## The loop -/

theorem turn_eq (search : Search) (q : Bytes) (xs : List (Bytes × Bytes)) :
    turn search q ⟨xs, none⟩
      = match reply? search q with
        | some r => .ok ((), ⟨xs ++ [(q, r)], none⟩)
        | none => .ok ((), ⟨xs, some q⟩) := by
  show interpretQuery search q ⟨xs, some q⟩ = _
  rw [interpretQuery_eq]
  cases reply? search q <;> rfl

/-- The request is one that the dispatch answers: it does not start with
`db`, or it goes on with ` q` or with ` a`. -/
def Answered (q : Bytes) : Prop :=
  ascii "db" <+: q → ascii "db q" <+: q ∨ ascii "db a" <+: q

theorem not_db_of_co {q : Bytes} (h : ascii "co" <+: q) : ¬ ascii "db" <+: q := by
  intro hdb
  obtain ⟨r, rfl⟩ := h
  simp [ascii, List.cons_prefix_cons] at hdb

theorem reply?_isSome_iff (search : Search) (q : Bytes) :
    (reply? search q).isSome ↔ Answered q := by
  unfold reply? Answered
  by_cases hco : ascii "co" <+: q
  · simp [hco, not_db_of_co hco]
  · by_cases hdb : ascii "db" <+: q
    · by_cases hq : ascii "db q" <+: q <;> simp [hco, hdb, hq]
    · simp [hco, hdb]

/-- The thread takes the request, sends exactly one reply, and is ready for
the next request. -/
def Served (search : Search) (t : Thread) (q : Bytes) : Prop :=
  ∃ s r, t = .ok s ∧ turn search q s = .ok ((), ⟨s.exchanges ++ [(q, r)], none⟩)

/-- The server is in front of `recv`. -/
def Ready (t : Thread) : Prop := ∃ xs, t = .ok ⟨xs, none⟩

theorem served_iff {search : Search} {t : Thread} {q : Bytes} (ht : Ready t) :
    Served search t q ↔ Answered q := by
  obtain ⟨xs, rfl⟩ := ht
  rw [← reply?_isSome_iff search q, Option.isSome_iff_exists]
  constructor
  · intro h
    obtain ⟨s, r, hs, hturn⟩ := h
    cases hs
    rw [turn_eq] at hturn
    cases hr : reply? search q with
    | none => simp [hr] at hturn
    | some r' => exact ⟨r', rfl⟩
  · intro h
    obtain ⟨r, hr⟩ := h
    exact ⟨_, r, rfl, by rw [turn_eq, hr]⟩

theorem ready_step {search : Search} {t : Thread} {q : Bytes}
    (h : Served search t q) : Ready (step search t q) := by
  obtain ⟨s, r, rfl, hturn⟩ := h
  exact ⟨_, by simp only [step, hturn]; rfl⟩

/-- **No read out of bounds**: whatever the request, and whatever the state
of the socket. -/
theorem interpretQuery_in_bounds (search : Search) (q : Bytes)
    (s : Socket Bytes) : interpretQuery search q s ≠ .error .outOfBounds := by
  rw [interpretQuery_eq]
  cases reply? search q with
  | none => simp
  | some r => cases hs : s.send r <;> simp [send, hs]

/-- **The request/reply discipline**: no dispatch reads past the end of its
request, and a run answers every request once, before it takes the next,
exactly when none of the requests starts with `db` without going on as a
query or as an addition. -/
theorem runServer_served_iff (search : Search) (qs : List Bytes) :
    (∀ q s, interpretQuery search q s ≠ .error .outOfBounds)
      ∧ (Along (step search) (Served search) (.ok Socket.fresh) qs
          ↔ ∀ q ∈ qs, Answered q) := by
  have hexact : ∀ t q, Ready t → (Served search t q ↔ Answered q) := by
    intro t q ht
    exact served_iff ht
  have hkeep : ∀ t q, Ready t → Served search t q → Ready (step search t q) := by
    intro t q _ h
    exact ready_step h
  have hfresh : Ready (.ok Socket.fresh) := ⟨[], rfl⟩
  refine ⟨interpretQuery_in_bounds search, ?_⟩
  rw [along_iff_of_exact hexact hkeep hfresh]
  exact along_const_iff

/-- One bare `db` kills the server thread at the next request. -/
theorem runServer_db_kills :
    runServer (fun _ => .error ⟨"no database"⟩) [ascii "db", ascii "connect"]
        = .error .socketState
      ∧ ¬ Along (step fun _ => .error ⟨"no database"⟩)
          (Served fun _ => .error ⟨"no database"⟩) (.ok Socket.fresh)
          [ascii "db", ascii "connect"] := by
  refine ⟨rfl, ?_⟩
  intro h
  have hdb := (served_iff ⟨[], rfl⟩).mp h.1
  revert hdb
  unfold Answered
  decide

end Neroshop.Daemon
