import SqlQuery.Compile.Check
import SqlQuery.Fragment
import SqlQuery.Value

/-!
# Comparisons

How an operator, its left side and a compiled value make a condition. Nothing here looks into a
query; the parts that do are passed in compiled.

* `Operator.resolve` — an operator as the caller wrote it, or the failure that it means;
* `Predicate.sides` — the operator that a possibly negated comparison is written with;
* `comparison` — the condition itself, with the cases of null, of lists and of two bounds;
* `DatePart.ofColumn` — the left side that takes a part of a timestamp column.
-/

namespace SqlQuery

open SqlQuery.Fragment

namespace Operator

/-- The operator that a caller's spelling names. -/
def resolve (text : String) : Except Error Operator :=
  match ofText? text with
  | some op => .ok op
  | none => .error (.unsupportedOperator text)

/-- The operator to write for a comparison that may be negated, and whether `not` has to go around
it because the operator has no opposite. -/
def oriented (op : Operator) (negated : Bool) : Operator × Bool :=
  if negated then
    match op.negated? with
    | some opposite => (opposite, false)
    | none => (op, true)
  else (op, false)

/-- The operator between spaces. -/
def spacedSymbol (op : Operator) : Fragment :=
  word (" " ++ op.symbol ++ " ")

end Operator

namespace DatePart

/-- A part of a column: a cast for dates and times, an extraction for calendar fields. -/
def ofColumn (part : DatePart) (column : String) : Fragment :=
  if part.isCast then word "cast(" ++ name column ++ word (" as " ++ part.keyword ++ ")")
  else word ("extract(" ++ part.keyword ++ " from ") ++ name column ++ word ")"

end DatePart

/-- The condition that compares the left side with null. Equality asks whether it is null, and
`is distinct from` takes null as it is; any other operator binds it. -/
def compareNull (lhs : Fragment) (op : Operator) : Fragment :=
  match op with
  | .eq => lhs ++ word " is null"
  | .ne | .bangEq => lhs ++ word " is not null"
  | op =>
    if op.isDistinctness then lhs ++ op.spacedSymbol ++ word "null"
    else lhs ++ op.spacedSymbol ++ [.bound .null]

/-- The condition `lhs op value`. The value comes with its compiled form, and a list of two also with
the compiled forms of its members. -/
def comparison (lhs : Fragment) (op : Operator) (value : Value) (operand : Except Error Fragment)
    (bounds : Option (Except Error (Fragment × Fragment))) : Except Error Fragment :=
  if op.isRange then
    match bounds with
    | none => .error (.malformedQuery (.notTwoBounds op (Fragment.text lhs)))
    | some bounds => do
      let (low, high) ← bounds
      return lhs ++ op.spacedSymbol ++ low ++ word " and " ++ high
  else
    match value with
    | .null => .ok (compareNull lhs op)
    | .list _ => .error (.malformedQuery (.listWithoutBetween op (Fragment.text lhs)))
    | _ => do return lhs ++ op.spacedSymbol ++ (← operand)

/-- The negation `not (…)`; a condition without text stays as it is. -/
def negation (f : Fragment) : Fragment :=
  if f.isBlank then f else word "not " ++ parenthesized f

/-- The word `not` where a condition is negated. -/
def notWord (negated : Bool) : Fragment :=
  if negated then word "not " else []

/-- The column is one of some values; of no values it never is. -/
def membership (column : String) (negated : Bool) (items : List Fragment) : Fragment :=
  if items.isEmpty then word (if negated then "1 = 1" else "0 = 1")
  else name column ++ word " " ++ notWord negated ++ word "in " ++ parenthesized (joined ", " items)

end SqlQuery
