import SqlQuery.Number.FloatText
import SqlQuery.Query

/-!
# Values

* `Value.text` — a value as shown to people, with strings and dates in single quotes;
* `Value.narrow` — a date or timestamp cut down to the part that a predicate compares;
* `Value.isScalar` — whether a value is bound to a placeholder.
-/

namespace SqlQuery

open SqlQuery.Calendar SqlQuery.Number

namespace Value

/-- Scalars are bound; the other kinds are written into the SQL. -/
def isScalar : Value → Bool
  | null | bool _ | int _ | float _ | string _ | date _ | time _ | timestamp _ => true
  | raw _ | column _ | list _ | subquery _ => false

/-! ### Text -/

/-- A text in single quotes, each quote inside written twice. -/
def quoted (s : List Char) : String :=
  String.ofList ('\'' :: s.flatMap (fun c => if c = '\'' then ['\'', '\''] else [c]) ++ ['\''])

mutual

/-- The value as shown to people. Fractions of seconds are left out. -/
def text : Value → String
  | null => "NULL"
  | bool b => if b then "true" else "false"
  | int n => toString n
  | float x => FloatStyle.plain.text x
  | string s => quoted s.toList
  | date d => quoted d.text
  | time t => quoted t.clock
  | timestamp t => quoted (t.date.text ++ ' ' :: t.time.clock)
  | raw sql => sql
  | column name => name
  | list items => "[" ++ ", ".intercalate (texts items) ++ "]"
  | subquery _ => "(SUBQUERY)"

/-- The texts of several values. -/
def texts : List Value → List String
  | [] => []
  | v :: vs => v.text :: texts vs

end

theorem texts_eq_map (vs : List Value) : texts vs = vs.map text := by
  induction vs with
  | nil => rfl
  | cons v vs ih => simp [texts, ih]

/-! ### Narrowing -/

/-- A date or timestamp cut down to a part of it; any other value as it is. -/
def narrow (part : DatePart) (v : Value) : Value :=
  match part, v with
  | .date, timestamp t => date t.date
  | .time, timestamp t => time t.time
  | .day, timestamp t => int t.date.day
  | .day, date d => int d.day
  | .month, timestamp t => int t.date.month
  | .month, date d => int d.month
  | .year, timestamp t => int t.date.year
  | .year, date d => int d.year
  | _, v => v

/-- A value cut down to a part, where one is given. -/
def narrowTo (part : Option DatePart) (v : Value) : Value :=
  match part with
  | none => v
  | some part => v.narrow part

theorem narrow_narrow (part : DatePart) (v : Value) :
    (v.narrow part).narrow part = v.narrow part := by
  cases part <;> cases v <;> rfl

theorem isScalar_narrow (part : DatePart) (v : Value) : (v.narrow part).isScalar = v.isScalar := by
  cases part <;> cases v <;> rfl

end Value

end SqlQuery
