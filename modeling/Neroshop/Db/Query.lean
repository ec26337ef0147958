import Neroshop.Lib.CStr

/-!
# The search database — queries

`db.cpp`: `db_query` and `db_add`, which the daemon calls with the whole
request text. Xapian is a parameter: `search` is everything `db_query` asks
of it between opening the database and reading the matches.

What is answered is a text: the matches with their ranks, or what Xapian threw.
-/

namespace Neroshop.Db

open Lib.CStr

/-- `Xapian::Error` -/
structure XapianError where
  description : String
  deriving DecidableEq, Repr

/-- One match, with the weight as the stream prints it. -/
structure Match where
  rank : Nat
  weight : String
  docid : Nat
  data : Bytes

/-- `Xapian::MSet` -/
structure MSet where
  estimated : Nat
  matches_ : List Match

/-- What Xapian finds for a query, or throws. -/
abbrev Search := Bytes → Except XapianError MSet

/-- The line of a match. -/
def Match.line (m : Match) : Bytes :=
  ascii (toString (m.rank + 1)) ++ ascii ": " ++ ascii m.weight
    ++ ascii " docid=" ++ ascii (toString m.docid) ++ ascii " [" ++ m.data
    ++ ascii "]\n"

/-- The text of a result. -/
def MSet.text (ms : MSet) : Bytes :=
  ascii (toString ms.estimated) ++ ascii " results found."
    ++ (if ms.estimated = 0 then []
        else ascii "\nMatches 1-" ++ ascii (toString ms.matches_.length)
          ++ ascii ":\n\n" ++ (ms.matches_.map Match.line).flatten)

/-- `query_string.erase( 0, 5 )`: what is left of a request without the
`"db q "` or `"db a "` in front. -/
def withoutCommand (q : Bytes) : Bytes := q.drop 5

/-- `db_query`: the empty string when Xapian throws. -/
def dbQuery (search : Search) (queryString : Bytes) : Bytes :=
  match search (withoutCommand queryString) with
  | .ok ms => ms.text
  | .error _ => []

/-- `db_add`, which answers with its argument. -/
def dbAdd (cmdString : Bytes) : Bytes := withoutCommand cmdString

end Neroshop.Db
