import Mathlib.Data.Finset.Basic
import Neroshop.Lib.CStr
import Neroshop.Lib.EState
import Neroshop.Lib.Runs

/-!
# The command line client

`cli.cpp`: the four commands of `main` over the variables that their lambdas
capture and the request socket. A command may end in a ZeroMQ exception: the
interpreter reports it and goes on, and what the command did before it threw
stays done. How the socket answers each operation is part of the command, so
a session is a list of commands.

* `Attached`: the endpoints of the socket are those that the variables speak of.
* `Fits`: the commands that keep it so. A first `connect` that is refused does
  not, and a further one to another endpoint does not either.
* `session_attached_iff`: over whole sessions, the socket stays attached exactly
  when each command fits.
-/

namespace Neroshop.Cli

open Lib.CStr Lib.Runs Lib.EState

/-- What the ZeroMQ calls throw. -/
inductive ZmqError where
  -- `connect` does not take the endpoint
  | invalidEndpoint
  -- `disconnect` of an endpoint that is not attached
  | notAttached
  -- `send` or `recv`
  | exchange
  deriving DecidableEq, Repr

/-- The captured variables, the endpoints the socket is attached to, and
what the client has logged. -/
structure Session where
  host : Bytes
  port : Int
  connected : Bool
  endpoints : Finset Bytes
  log : List Bytes

/-- `main`, before the first command. -/
def Session.start : Session := ⟨ascii "localhost", 55090, false, ∅, []⟩

/-- A command of the session: what it did before it threw stays done. -/
abbrev Cmd := EStateM ZmqError Session

/-- How a request and the wait for its reply end. -/
inductive Exchange where
  | reply (text : Bytes)
  | fails

/-- `"tcp://" + host + ":" + std::to_string(port)` -/
def endpoint (host : Bytes) (port : Int) : Bytes :=
  ascii "tcp://" ++ host ++ ascii ":" ++ ascii (toString port)

/-- A line of the log. -/
def info (text : Bytes) : Cmd Unit :=
  modify fun s => { s with log := s.log ++ [text] }

/-- `socket.connect`; an endpoint that is attached already is not attached twice. -/
def socketConnect (ep : Bytes) (accepted : Bool) : Cmd Unit :=
  if accepted then modify fun s => { s with endpoints := insert ep s.endpoints }
  else throw .invalidEndpoint

/-- `socket.disconnect` -/
def socketDisconnect (ep : Bytes) : Cmd Unit := do
  let s ← get
  if ep ∈ s.endpoints then set { s with endpoints := s.endpoints.erase ep }
  else throw .notAttached

/-- `socket.send` and `socket.recv` -/
def exchange : Exchange → Cmd Bytes
  | .reply text => pure text
  | .fails => throw .exchange

/-- `connect`: the session counts as connected only behind an `accept`. -/
def connect (host : Bytes) (port : Int) (accepted : Bool) (o : Exchange) :
    Cmd Unit := do
  info (ascii "Connecting to neroshop daemon " ++ host ++ ascii ":"
    ++ ascii (toString port) ++ ascii " ... ")
  socketConnect (endpoint host port) accepted
  let reply ← exchange o
  if reply = ascii "accept" then info (ascii "Connected.")

/-- `disconnect` -/
def disconnect : Cmd Unit := do
  let s ← get
  if s.connected then
    socketDisconnect (endpoint s.host s.port)
    info (ascii "Disconnected")
  else
    info (ascii "Not connected")
  modify fun s => { s with connected := false }

/-- `status` -/
def status : Cmd Unit := do
  if (← get).connected then info (ascii "Connected")
  else info (ascii "Not connected")

/-- What the `db` command sends. -/
def dbRequest (cmd : Bytes) : Bytes := ascii "db " ++ cmd

/-- `db_cmd`, with the way the exchange goes for each request text. -/
def dbCmd (cmd : Bytes) (o : Bytes → Exchange) : Cmd Unit := do
  if !(← get).connected then
    info (ascii
      "Not connected. Use 'connect' to connect to a neroshop daemon.")
  else
    let reply ← exchange (o (dbRequest cmd))
    info reply

/-- A command, with the way the socket answers it. -/
inductive Command where
  | connect (h : Bytes) (p : Int) (accepted : Bool) (o : Exchange)
  | disconnect
  | db (cmd : Bytes) (o : Bytes → Exchange)
  | status

/-- The command's lambda of `main`. -/
def Command.exec : Command → Cmd Unit
  | .connect h p accepted o => do
      modify fun s => { s with host := h, port := p, connected := true }
      Cli.connect h p accepted o
  | .disconnect => Cli.disconnect
  | .db cmd o => dbCmd cmd o
  | .status => Cli.status

/-- The session after a command, reported exceptions included. -/
def step (s : Session) (c : Command) : Session := after c.exec s

/-! ## Which endpoints are attached -/

/-- The endpoint of the host and the port that the session holds. -/
def Session.endpoint (s : Session) : Bytes := Cli.endpoint s.host s.port

/-- The socket is attached to exactly the endpoint of the session when the
client is connected, and to nothing when it is not. -/
def Attached (s : Session) : Prop :=
  s.endpoints = if s.connected then {s.endpoint} else ∅

instance (s : Session) : Decidable (Attached s) :=
  inferInstanceAs (Decidable (_ = _))

/-- A `connect` for which the flag tells the truth: a first one whose
endpoint the socket takes, or a further one to the same endpoint. Every
other command is free. -/
def Fits (s : Session) : Command → Prop
  | .connect h p accepted _ =>
      if s.connected then Cli.endpoint h p = s.endpoint else accepted = true
  | _ => True

/-- After `connect`, whatever becomes of it, the flag is set and host and
port are the new ones. -/
theorem step_connect (s : Session) (h : Bytes) (p : Int) (accepted : Bool)
    (o : Exchange) :
    (step s (.connect h p accepted o)).connected = true
      ∧ (step s (.connect h p accepted o)).endpoint = Cli.endpoint h p
      ∧ (step s (.connect h p accepted o)).endpoints
        = if accepted then insert (Cli.endpoint h p) s.endpoints
          else s.endpoints := by
  cases accepted with
  | false => exact ⟨rfl, rfl, rfl⟩
  | true =>
      cases o with
      | fails => exact ⟨rfl, rfl, rfl⟩
      | reply text =>
          by_cases hr : text = ascii "accept" <;>
            simp [step, after, Command.exec, connect, info, socketConnect,
              exchange, hr, Session.endpoint]

theorem step_disconnect {s : Session} (hs : Attached s) :
    (step s .disconnect).connected = false ∧ (step s .disconnect).endpoints = ∅ := by
  obtain ⟨host, port, connected, endpoints, log⟩ := s
  cases connected with
  | false => exact ⟨rfl, hs⟩
  | true =>
      obtain rfl : endpoints = {endpoint host port} := hs
      simp [step, after, Command.exec, disconnect, socketDisconnect, info]

theorem step_db (s : Session) (cmd : Bytes) (o : Bytes → Exchange) :
    ∃ log, step s (.db cmd o) = { s with log := log } := by
  obtain ⟨host, port, connected, endpoints, log⟩ := s
  cases connected with
  | false => exact ⟨_, rfl⟩
  | true =>
      cases ho : o (dbRequest cmd) with
      | reply text =>
          exact ⟨log ++ [text],
            by simp [step, after, Command.exec, dbCmd, info, exchange, ho]⟩
      | fails =>
          exact ⟨log, by simp [step, after, Command.exec, dbCmd, exchange, ho]⟩

theorem step_status (s : Session) :
    ∃ log, step s .status = { s with log := log } := by
  obtain ⟨host, port, connected, endpoints, log⟩ := s
  cases connected <;> exact ⟨_, rfl⟩

theorem pair_eq_singleton {ep ep' : Bytes} :
    ({ep, ep'} : Finset Bytes) = {ep} ↔ ep = ep' := by
  constructor
  · intro h
    have hmem : ep' ∈ ({ep} : Finset Bytes) := by simp [← h]
    exact (Finset.mem_singleton.mp hmem).symm
  · rintro rfl
    simp

/-- **Which commands keep the flag true to the socket**: exactly those that
fit. -/
theorem attached_step_iff {s : Session} (hs : Attached s) (c : Command) :
    Attached (step s c) ↔ Fits s c := by
  cases c with
  | connect h p accepted o =>
      obtain ⟨hc, hep, heps⟩ := step_connect s h p accepted o
      rw [Attached, hc, hep, heps, hs, Fits]
      by_cases hconn : s.connected
      · cases accepted with
        | false => simp [hconn, eq_comm]
        | true => simp [hconn, pair_eq_singleton]
      · cases accepted <;> simp [hconn]
  | disconnect =>
      obtain ⟨hc, heps⟩ := step_disconnect hs
      simp [Attached, hc, heps, Fits]
  | db cmd o =>
      obtain ⟨log, hlog⟩ := step_db s cmd o
      rw [hlog]
      exact ⟨fun _ => trivial, fun _ => hs⟩
  | status =>
      obtain ⟨log, hlog⟩ := step_status s
      rw [hlog]
      exact ⟨fun _ => trivial, fun _ => hs⟩

/-! ## Sessions -/

/-- **When the flag tells the truth**: over every session, the socket is
attached as the client believes after every command exactly when each
`connect` of the session fits. -/
theorem session_attached_iff (cs : List Command) :
    Along step (fun s c => Attached (step s c)) .start cs
      ↔ Along step Fits .start cs := by
  have hexact : ∀ s c, Attached s → (Attached (step s c) ↔ Fits s c) := by
    intro s c hs
    exact attached_step_iff hs c
  have hkeep : ∀ s c, Attached s → Attached (step s c) → Attached (step s c) := by
    intro s c _ h
    exact h
  have hstart : Attached .start := rfl
  exact along_iff_of_exact hexact hkeep hstart cs

/-- A daemon that accepts. -/
def accepts : Exchange := .reply (ascii "accept")

/-- After two connects to different daemons the socket is attached to both,
and `disconnect` takes off the second only. -/
theorem session_two_daemons :
    ¬ ∀ cs, Along step (fun s c => Attached (step s c)) .start cs := by
  intro hall
  have h := hall [.connect (ascii "a") 1 true accepts,
    .connect (ascii "b") 2 true accepts, .disconnect]
  have hboth : Attached (step (step .start (.connect (ascii "a") 1 true accepts))
      (.connect (ascii "b") 2 true accepts)) := h.2.1
  exact absurd hboth (by decide)

end Neroshop.Cli
