import Mathlib.Tactic.TypeStar

/-!
# Reply sockets

The reply end of a request/reply messaging pattern. The socket must
alternate: it takes a request, then it sends one reply, then it takes the
next request. An operation out of turn is a state error.

A socket value is its history: the answered requests with their replies,
and the request that still waits for its reply, if there is one. So a
history in which two replies go to one request, or a request is skipped,
cannot be written down.
-/

namespace Lib.Rep

/-- A reply socket over messages `M`. -/
structure Socket (M : Type*) where
  exchanges : List (M × M)
  pending : Option M
  deriving DecidableEq

variable {M : Type*}

/-- A new socket. -/
def Socket.fresh : Socket M := ⟨[], none⟩

/-- Take the request `m`; `none` is the state error. -/
def Socket.recv (s : Socket M) (m : M) : Option (Socket M) :=
  match s.pending with
  | none => some { s with pending := some m }
  | some _ => none

/-- Send the reply `r`; `none` is the state error. -/
def Socket.send (s : Socket M) (r : M) : Option (Socket M) :=
  match s.pending with
  | none => none
  | some m => some ⟨s.exchanges ++ [(m, r)], none⟩

@[simp] theorem recv_ready (xs : List (M × M)) (m : M) :
    Socket.recv ⟨xs, none⟩ m = some ⟨xs, some m⟩ := rfl

@[simp] theorem recv_owing (xs : List (M × M)) (m m' : M) :
    Socket.recv ⟨xs, some m⟩ m' = none := rfl

@[simp] theorem send_ready (xs : List (M × M)) (r : M) :
    Socket.send ⟨xs, none⟩ r = none := rfl

@[simp] theorem send_owing (xs : List (M × M)) (m r : M) :
    Socket.send ⟨xs, some m⟩ r = some ⟨xs ++ [(m, r)], none⟩ := rfl

end Lib.Rep
