import Neroshop.Lib.EState

/-!
# Reading JSON documents

Documents with numbers `N`, and the access operators of a library whose
`operator[]` inserts a null for a missing member. Reading goes down a path
and converts what it finds there; the inserted nulls are seen by no other
path, so the document itself is left as it is here.

`find` is the plain meaning of a path. A conversion succeeds exactly where
the path leads to a value of its kind: the nulls on the way never make up
for a missing member.
-/

namespace Lib.JsonDoc

open Lib.EState (bind_eq_ok)

/-- A document with numbers `N` and strings and names `S`. -/
inductive Json (N S : Type) where
  | null
  | bool (b : Bool)
  | num (n : N)
  | str (s : S)
  | arr (items : List (Json N S))
  | obj (fields : List (S × Json N S))

/-- What the parser and the values throw. -/
inductive JsonError where
  -- the text is not JSON
  | parse
  -- `operator[]` on a value that takes none of its kind
  | access
  -- a conversion to another kind of value
  | conversion
  deriving DecidableEq, Repr

/-- The argument of an `operator[]`. -/
inductive Access (S : Type) where
  | key (name : S)
  | item (index : Nat)

variable {N S : Type} [BEq S]

/-- `operator[]` -/
def Json.access : Json N S → Access S → Except JsonError (Json N S)
  | .null, _ => .ok .null
  | .obj fields, .key name => .ok ((fields.lookup name).getD .null)
  | .arr items, .item index => .ok (items.getD index .null)
  | _, _ => .error .access

/-- Some `operator[]`, one after the other. -/
def Json.navigate (j : Json N S) : List (Access S) → Except JsonError (Json N S)
  | [] => .ok j
  | a :: path => do (← j.access a).navigate path

/-- `size()` -/
def Json.size : Json N S → Nat
  | .null => 0
  | .arr items => items.length
  | .obj fields => fields.length
  | _ => 1

/-- `is_null()` -/
def Json.isNull : Json N S → Bool
  | .null => true
  | _ => false

/-- `get<double>()` -/
def Json.toNum : Json N S → Except JsonError N
  | .num n => .ok n
  | _ => .error .conversion

/-- `get<std::string>()` -/
def Json.toStr : Json N S → Except JsonError S
  | .str s => .ok s
  | _ => .error .conversion

/-- The number at a path. -/
def Json.readNum (j : Json N S) (path : List (Access S)) : Except JsonError N := do
  (← j.navigate path).toNum

/-- The string at a path. -/
def Json.readStr (j : Json N S) (path : List (Access S)) : Except JsonError S := do
  (← j.navigate path).toStr

/-- The value at a path, if the document has one. -/
def Json.find : Json N S → List (Access S) → Option (Json N S)
  | j, [] => some j
  | .obj fields, .key name :: path => (fields.lookup name).bind (·.find path)
  | .arr items, .item index :: path => items[index]?.bind (·.find path)
  | _, _ :: _ => none

/-! ## What a read finds -/

theorem navigate_null (path : List (Access S)) :
    (Json.null : Json N S).navigate path = .ok .null := by
  induction path with
  | nil => rfl
  | cons a path ih => exact ih

/-- Navigation comes out at the value of the path, or at a null, or fails. -/
theorem navigate_eq (j : Json N S) (path : List (Access S)) {v : Json N S}
    (hv : v ≠ .null) : j.navigate path = .ok v ↔ j.find path = some v := by
  induction path generalizing j with
  | nil => simp [Json.navigate, Json.find]
  | cons a path ih =>
      have hnull : (Json.null : Json N S).navigate path ≠ .ok v := by
        rw [navigate_null]
        intro h
        exact hv (Except.ok.inj h).symm
      rw [Json.navigate]
      cases j with
      | null => simpa [Json.access, Json.find, bind, Except.bind] using hnull
      | bool b => cases a <;> simp [Json.access, Json.find, bind, Except.bind]
      | num n => cases a <;> simp [Json.access, Json.find, bind, Except.bind]
      | str s => cases a <;> simp [Json.access, Json.find, bind, Except.bind]
      | arr items =>
          cases a with
          | key name => simp [Json.access, Json.find, bind, Except.bind]
          | item index =>
              cases hi : items[index]? with
              | none => simpa [Json.access, Json.find, hi, bind, Except.bind] using hnull
              | some w => simpa [Json.access, Json.find, hi, bind, Except.bind] using ih w
      | obj fields =>
          cases a with
          | item index => simp [Json.access, Json.find, bind, Except.bind]
          | key name =>
              cases hi : fields.lookup name with
              | none => simpa [Json.access, Json.find, hi, bind, Except.bind] using hnull
              | some w => simpa [Json.access, Json.find, hi, bind, Except.bind] using ih w

omit [BEq S] in
theorem toNum_eq_ok {w : Json N S} {n : N} : w.toNum = .ok n ↔ w = .num n := by
  cases w <;> simp [Json.toNum]

omit [BEq S] in
theorem toStr_eq_ok {w : Json N S} {s : S} : w.toStr = .ok s ↔ w = .str s := by
  cases w <;> simp [Json.toStr]

/-- **A value is read** exactly where the path leads to it. -/
theorem read_ok_iff {α : Type} {get : Json N S → Except JsonError α} {mk : α → Json N S}
    (hget : ∀ {w a}, get w = .ok a ↔ w = mk a) (hmk : ∀ a, mk a ≠ .null) {j : Json N S}
    {path : List (Access S)} {a : α} :
    j.navigate path >>= get = .ok a ↔ j.find path = some (mk a) := by
  simp only [bind_eq_ok, hget, exists_eq_right]
  exact navigate_eq j path (hmk a)

theorem readNum_ok_iff {j : Json N S} {path : List (Access S)} {n : N} :
    j.readNum path = .ok n ↔ j.find path = some (.num n) := read_ok_iff toNum_eq_ok nofun

theorem readStr_ok_iff {j : Json N S} {path : List (Access S)} {s : S} :
    j.readStr path = .ok s ↔ j.find path = some (.str s) := read_ok_iff toStr_eq_ok nofun

/-! ## Reads in several steps -/

theorem navigate_append (j : Json N S) (p q : List (Access S)) :
    j.navigate (p ++ q) = j.navigate p >>= fun c => c.navigate q := by
  induction p generalizing j with
  | nil => rfl
  | cons a p ih =>
      rw [List.cons_append, Json.navigate, Json.navigate]
      cases j.access a with
      | error e => rfl
      | ok w => exact ih w

theorem read_append {α : Type} (get : Json N S → Except JsonError α) {j c : Json N S}
    {p : List (Access S)} (hc : j.navigate p = .ok c) (q : List (Access S)) :
    j.navigate (p ++ q) >>= get = c.navigate q >>= get := by
  rw [navigate_append, hc]
  rfl

theorem readNum_append {j c : Json N S} {p q : List (Access S)} {n : N}
    (hc : j.navigate p = .ok c) (h : c.readNum q = .ok n) : j.readNum (p ++ q) = .ok n :=
  (read_append Json.toNum hc q).trans h

theorem readStr_append {j c : Json N S} {p q : List (Access S)} {s : S}
    (hc : j.navigate p = .ok c) (h : c.readStr q = .ok s) : j.readStr (p ++ q) = .ok s :=
  (read_append Json.toStr hc q).trans h

end Lib.JsonDoc
