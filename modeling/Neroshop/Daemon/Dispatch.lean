import Neroshop.Cli.Session
import Neroshop.Daemon.Server

/-!
# Daemon — which database calls a message leads to

`interpret_query` once more, with a record of the calls that it makes into
`db.cpp`, and what the command line client sends it. The record is kept when
the dispatch ends in a fault, so it is part of a state beside the socket.

`callsOf` reads the calls off a message, by its first four characters. A message
of another form than the client sends may begin with these four as well:
`dispatch_agrees_iff` says which do.
-/

namespace Neroshop.Daemon

open Lib.CStr Lib.EState
open Lib.Rep (Socket)
open Neroshop.Db

/-- A call into the database, with the text that is left after the prefix is
removed. -/
inductive DbCall where
  | query (text : Bytes)
  | add (text : Bytes)
  deriving DecidableEq

/-- The socket, with the calls that the dispatch has made. -/
structure Tracked where
  socket : Socket Bytes
  calls : List DbCall

/-- The dispatch, with a record of its calls. -/
abbrev Tracking := EStateM Fault Tracked

/-- Something that only the socket sees. -/
def onSocket {α : Type} (x : Serving α) : Tracking α := fun s =>
  match x s.socket with
  | .ok (a, socket) => .ok a { s with socket := socket }
  | .error f => .error f s

/-- A call is recorded. -/
def record (c : DbCall) : Tracking Unit :=
  modify fun s => { s with calls := s.calls ++ [c] }

/-- A recorded `db_query`. -/
def callDbQuery (search : Search) (q : Bytes) : Tracking Bytes := do
  record (.query (withoutCommand q))
  pure (dbQuery search q)

/-- A recorded `db_add`. -/
def callDbAdd (q : Bytes) : Tracking Bytes := do
  record (.add (withoutCommand q))
  pure (dbAdd q)

/-- `interpretQuery`, with its calls on record. -/
def trackQuery (search : Search) (q : Bytes) : Tracking Unit := do
  if ← onSocket (charIs q 0 'c' <&&> charIs q 1 'o') then
    onSocket (send (ascii "accept"))
  else if ← onSocket (charIs q 0 'd' <&&> charIs q 1 'b') then
    if ← onSocket (charIs q 2 ' ' <&&> charIs q 3 'q') then
      let result ← callDbQuery search q
      onSocket (send result)
    else if ← onSocket (charIs q 2 ' ' <&&> charIs q 3 'a') then
      let result ← callDbAdd q
      onSocket (send result)
  else
    onSocket (send (ascii "unknown command" ++ [0]))

/-- The database calls for a message. -/
def callsOf (q : Bytes) : List DbCall :=
  if ascii "db q" <+: q then [.query (withoutCommand q)]
  else if ascii "db a" <+: q then [.add (withoutCommand q)]
  else []

/-! ## The record -/

variable {search : Search} {q : Bytes}

theorem track_ite {t : Serving Bool} {p : Prop} [Decidable p] {s : Tracked}
    (ht : t s.socket = .ok (decide p, s.socket)) (a b : Tracking Unit) :
    (onSocket t >>= fun x => if x = true then a else b) s = if p then a s else b s := by
  simp only [bind_apply, onSocket, ht, decide_eq_true_eq, if_apply]

theorem callsOf_of_not_db (h : ¬ ascii "db" <+: q) : callsOf q = [] := by
  have hq : ¬ ascii "db q" <+: q := by
    intro hq
    exact h ((List.prefix_append (ascii "db") (ascii " q")).trans hq)
  have ha : ¬ ascii "db a" <+: q := by
    intro ha
    exact h ((List.prefix_append (ascii "db") (ascii " a")).trans ha)
  rw [callsOf, if_neg hq, if_neg ha]

/-- **The dispatch with its record**: what it sends is what `reply?` says,
after the calls that the first four characters say. -/
theorem trackQuery_eq (search : Search) (q : Bytes) (s : Tracked) :
    trackQuery search q s
      = match reply? search q with
        | some r => onSocket (send r) { s with calls := s.calls ++ callsOf q }
        | none => .ok () s := by
  unfold trackQuery reply?
  rw [track_ite (charIs_outer 'c' 'o' (show ascii "co" = _ from rfl) (by decide) q s.socket)]
  split
  · next hco => rw [callsOf_of_not_db (not_db_of_co hco), List.append_nil]
  rw [track_ite (charIs_outer 'd' 'b' (show ascii "db" = _ from rfl) (by decide) q s.socket)]
  split
  · next hdb =>
      rw [track_ite (charIs_inner 'q' (show ascii "db q" = _ from rfl) (by decide) hdb s.socket),
        track_ite (charIs_inner 'a' (show ascii "db a" = _ from rfl) (by decide) hdb s.socket),
        callsOf]
      split
      · rfl
      · split <;> rfl
  · next hdb => rw [callsOf_of_not_db hdb, List.append_nil]

/-- The record apart, the dispatch is `interpretQuery`. -/
theorem trackQuery_erase (search : Search) (q : Bytes) (s : Tracked) :
    trackQuery search q s
      = onSocket (interpretQuery search q)
          { s with calls := (after (trackQuery search q) s).calls } := by
  rw [after, trackQuery_eq, onSocket, interpretQuery_eq]
  cases reply? search q with
  | none => rfl
  | some r => cases h : s.socket.send r <;> simp [onSocket, send, h]

theorem callsOf_of_no_reply (h : reply? search q = none) : callsOf q = [] := by
  unfold reply? at h
  split at h
  · cases h
  split at h
  · split at h
    · cases h
    · next hq =>
        split at h
        · cases h
        · next ha => rw [callsOf, if_neg hq, if_neg ha]
  · cases h

theorem calls_trackQuery (search : Search) (q : Bytes) (s : Tracked) :
    (after (trackQuery search q) s).calls = s.calls ++ callsOf q := by
  rw [after, trackQuery_eq]
  cases hr : reply? search q with
  | none => rw [callsOf_of_no_reply hr, List.append_nil]
  | some r => cases h : s.socket.send r <;> simp [onSocket, send, h]

/-! ## The client's side -/

/-- The `db` command puts this message on the socket, and waits for its
reply. -/
def Sends (s : Cli.Session) (cmd message : Bytes) : Prop :=
  ∀ o, Cli.dbCmd cmd o s = (Cli.exchange (o message) >>= Cli.info) s

theorem sends_dbRequest {s : Cli.Session} (hs : s.connected = true) (cmd : Bytes) :
    Sends s cmd (Cli.dbRequest cmd) := by
  intro o
  simp only [Cli.dbCmd, bind_apply, get_apply, hs, Bool.not_true, Bool.false_eq_true,
    if_false]

/-! ## The grammar of the messages -/

/-- The message is a `db q` or `db a` command: the letter is followed by a
blank. -/
def Formed (q : Bytes) : Prop := ∃ t, q = ascii "db q " ++ t ∨ q = ascii "db a " ++ t

/-- The calls that `interpret_query` makes for a message. -/
def callsFor (search : Search) (q : Bytes) (socket : Socket Bytes) : List DbCall :=
  (after (trackQuery search q) ⟨socket, []⟩).calls

theorem callsFor_eq (search : Search) (q : Bytes) (socket : Socket Bytes) :
    callsFor search q socket = callsOf q := calls_trackQuery search q ⟨socket, []⟩

theorem callsOf_query (t : Bytes) : callsOf (ascii "db q " ++ t) = [.query t] := by
  have hq : ascii "db q" <+: ascii "db q " ++ t := ⟨ascii " " ++ t, rfl⟩
  rw [callsOf, if_pos hq]
  rfl

theorem callsOf_add (t : Bytes) : callsOf (ascii "db a " ++ t) = [.add t] := by
  have hq : ¬ ascii "db q" <+: ascii "db a " ++ t := by
    intro h
    simp [ascii, List.cons_prefix_cons] at h
  have ha : ascii "db a" <+: ascii "db a " ++ t := ⟨ascii " " ++ t, rfl⟩
  rw [callsOf, if_neg hq, if_pos ha]
  rfl

theorem callsOf_eq_nil_iff :
    callsOf q = [] ↔ ¬ (ascii "db q" <+: q ∨ ascii "db a" <+: q) := by
  unfold callsOf
  by_cases hq : ascii "db q" <+: q
  · simp [hq]
  · by_cases ha : ascii "db a" <+: q
    · simp [hq, ha]
    · simp [hq, ha]

/-- **Where encoding and dispatch agree**: a connected client's `q` and `a`
commands reach `db_query` and `db_add` with exactly their text; and a message
of another form reaches neither exactly when the letter after `db` and the
blank is not a `q` or an `a`. The record of the calls apart, the dispatch is
`interpret_query`. -/
theorem dispatch_agrees_iff (search : Search) :
    (∀ (s : Cli.Session) (t : Bytes), s.connected = true →
        Sends s (ascii "q " ++ t) (ascii "db q " ++ t)
          ∧ Sends s (ascii "a " ++ t) (ascii "db a " ++ t))
      ∧ (∀ t socket,
          callsFor search (ascii "db q " ++ t) socket = [.query t]
            ∧ callsFor search (ascii "db a " ++ t) socket = [.add t])
      ∧ (∀ q socket, (¬ Formed q → callsFor search q socket = [])
          ↔ Formed q ∨ ¬ (ascii "db q" <+: q ∨ ascii "db a" <+: q))
      ∧ ∀ q socket, trackQuery search q ⟨socket, []⟩
          = onSocket (interpretQuery search q) ⟨socket, callsFor search q socket⟩ := by
  refine ⟨?_, ?_, ?_, fun q socket => trackQuery_erase search q ⟨socket, []⟩⟩
  · intro s t hs
    exact ⟨sends_dbRequest hs _, sends_dbRequest hs _⟩
  · intro t socket
    rw [callsFor_eq, callsFor_eq]
    exact ⟨callsOf_query t, callsOf_add t⟩
  · intro q socket
    rw [callsFor_eq, callsOf_eq_nil_iff]
    exact or_iff_not_imp_left.symm

/-- `db quit` searches for `it`. -/
theorem dispatch_quit :
    ¬ ∀ q socket, ¬ Formed q →
        callsFor (fun _ => .error ⟨"no database"⟩) q socket = [] := by
  intro hall
  have hform : ¬ Formed (ascii "db quit") := by
    intro h
    obtain ⟨t, h | h⟩ := h
    · simp [ascii] at h
    · simp [ascii] at h
  have h := hall (ascii "db quit") ⟨[], some (ascii "db quit")⟩ hform
  exact absurd h (by decide)

end Neroshop.Daemon
