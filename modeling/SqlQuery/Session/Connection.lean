import SqlQuery.Error
import SqlQuery.Fragment
import SqlQuery.Json.Basic
import SqlQuery.Text.Case

/-!
# Connections

What a session needs of the transport below it: a server can be asked for its banner, and it can
execute a statement. Both may fail, and both may change the connection.

* `Connection` — the two operations;
* `Row` — a row of a result, with `Row.field?` for a field by its name;
* `Script` — a connection that answers from lists, and keeps what it was asked.
-/

namespace SqlQuery

open SqlQuery.Text

/-- A row of a result. -/
abbrev Row := List Member

/-- The value of the first field, in the order of keys, that has this name in any letter case. -/
def Row.field? (name : String) (row : Row) : Option Json :=
  (((row.filter fun m => sameLetters m.key name).mergeSort Json.keyLe).head?).map (·.value)

/-- A connection to a server. -/
class Connection (C : Type) where
  /-- Asks the server for its banner. -/
  askBanner : C → Except Error String × C
  /-- Executes a statement. -/
  execute : C → Statement → Except Error (List Row) × C

/-- A connection that answers from a script. -/
structure Script where
  /-- The answers still to come when the banner is asked for; the last one stays, and a script
  without any answers with the empty text. -/
  banners : List (Except Error String)
  /-- The answers still to come to statements; after the last one there are no rows. -/
  replies : List (Except Error (List Row))
  /-- How often the banner was asked for. -/
  asked : Nat := 0
  /-- The statements that came, the last one first. -/
  executed : List Statement := []

namespace Script

def askBanner (s : Script) : Except Error String × Script :=
  match s.banners with
  | [] => (.ok "", { s with asked := s.asked + 1 })
  | [answer] => (answer, { s with asked := s.asked + 1 })
  | answer :: rest => (answer, { s with banners := rest, asked := s.asked + 1 })

def execute (s : Script) (statement : Statement) : Except Error (List Row) × Script :=
  let s := { s with executed := statement :: s.executed }
  match s.replies with
  | [] => (.ok [], s)
  | reply :: rest => (reply, { s with replies := rest })

end Script

instance : Connection Script where
  askBanner := Script.askBanner
  execute := Script.execute

end SqlQuery
