import SqlQuery.Compile.Clause
import SqlQuery.Json.Printer
import SqlQuery.Session.Connection

/-!
# Reading results

The small results that a session reads back itself. Servers and drivers differ in the letter case of
field names, so fields are found in any case.

* `columnNames` — the names in a column listing, one for each row;
* `aggregateValue` — the value of an aggregate; no row is null;
* `countOf` — a count, as a number or as the text of one.
-/

namespace SqlQuery

open SqlQuery.Number SqlQuery.Text

/-- The field that holds a column's name. -/
def columnNameField : String := "column_name"

/-- The statement that lists the columns of a table in the order of their declaration. -/
def columnListing (table : String) : Statement :=
  { sql := "select trim(rdb$field_name) as \"column_name\" from rdb$relation_fields " ++
      "where rdb$relation_name = ? order by rdb$field_position"
    params := [.string table] }

/-- The value in a message about it. -/
def shownValue (j : Json) : String :=
  j.sortKeys.compact

/-- The name in the row of this index. -/
def columnName (index : Nat) (row : Row) : Except Error String :=
  match row.field? columnNameField with
  | none => .error (.malformedRow (.noColumnName index))
  | some (.string name) => .ok name
  | some other => .error (.malformedRow (.columnNameNotString index (shownValue other)))

/-- The names of the rows from an index on. -/
def columnNamesFrom (index : Nat) : List Row → Except Error (List String)
  | [] => .ok []
  | row :: rows => do return (← columnName index row) :: (← columnNamesFrom (index + 1) rows)

/-- The names in a column listing. -/
def columnNames (rows : List Row) : Except Error (List String) :=
  columnNamesFrom 0 rows

/-- The value of an aggregate, from the first row. -/
def aggregateValue : List Row → Except Error Json
  | [] => .ok .null
  | row :: _ =>
    match row.field? aggregateName with
    | some value => .ok value
    | none => .error (.malformedRow .noAggregate)

/-- The integer of 64 bits that a value stands for. -/
def integerOf? : Json → Option Int
  | .int n => if fitsInt64 n then some n else none
  | .string s => (integer? (trim s.toList)).filter fitsInt64
  | _ => none

/-- A count. -/
def countOf (value : Json) : Except Error Int :=
  match integerOf? value with
  | some n => .ok n
  | none => .error (.malformedRow (.countNotInteger (shownValue value)))

end SqlQuery
