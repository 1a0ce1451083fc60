import SqlQuery.Calendar.Timestamp
import SqlQuery.Keyword

/-!
# Query descriptions

A `Query` describes one statement as data. Queries stand inside values, tables and predicates, so
these types are declared together:

* `Value` — what a condition compares with or an assignment sets; the first eight kinds are scalars;
* `TableRef`, `Join` — what a select reads from;
* `Filter`, `Predicate` — the conditions of `where`, `having` and joins;
* `Branch`, `Assignment` — a select added by a set operation, and a column with its new value;
* `Query` — the statement itself.

Operators are kept as the caller wrote them and read when the query is compiled.
-/

namespace SqlQuery

open SqlQuery.Calendar

/-- A selected column. -/
inductive Column where
  /-- Every column, `*`. -/
  | star
  /-- A name, which may be dotted and carry an alias. -/
  | named (name : String)
  | aliased (name label : String)
  /-- SQL of the caller's own. -/
  | raw (sql : String)
deriving DecidableEq

/-- One term of an ordering. -/
inductive OrderBy where
  | column (column : String) (order : SortOrder)
  | raw (sql : String)
  | random
deriving DecidableEq

/-- An aggregate function applied to a column; the column `*` stands for whole rows. -/
structure Aggregate where
  func : AggregateFunc
  column : String
deriving DecidableEq

/-- A locking clause. -/
inductive Lock where
  | forUpdate
  | raw (sql : String)
deriving DecidableEq

mutual

/-- A value: a scalar to be bound, or SQL to be put in its place. -/
inductive Value where
  | null
  | bool (b : Bool)
  | int (n : Int)
  | float (x : Float)
  | string (s : String)
  | date (d : Date)
  | time (t : Time)
  | timestamp (t : Timestamp)
  /-- SQL of the caller's own. -/
  | raw (sql : String)
  /-- A column of the statement. -/
  | column (name : String)
  /-- Several values, such as the two bounds of `between`. -/
  | list (items : List Value)
  | subquery (query : Query)

/-- What a statement reads from or writes to. -/
inductive TableRef where
  | named (name : String)
  | raw (sql : String) (bindings : List Value)
  | subquery (query : Query) (label : Option String)
  /-- A stored procedure that can be selected from. -/
  | procedure (name : String) (args : List Value)

/-- A joined table; cross and lateral joins have no condition. -/
structure Join where
  kind : JoinKind
  table : TableRef
  on : Option Filter

/-- A tree of conditions. -/
inductive Filter where
  | and (children : List Filter)
  | or (children : List Filter)
  | not (inner : Filter)
  | predicate (p : Predicate)
  | raw (sql : String) (bindings : List Value)

/-- A single condition. -/
inductive Predicate where
  | compare (column op : String) (value : Value) (negated : Bool)
  /-- The column is one of the values. -/
  | isIn (column : String) (values : List Value) (negated : Bool)
  /-- The column is one of the rows of a query. -/
  | inSelect (column : String) (query : Query) (negated : Bool)
  | isNull (column : String) (negated : Bool)
  /-- A part of a timestamp column, compared. -/
  | datePart (column : String) (part : DatePart) (op : String) (value : Value)
  /-- The query has a row. -/
  | rowExists (query : Query) (negated : Bool)

/-- A select whose rows are put together with those before it. -/
structure Branch where
  op : SetOp
  query : Query

/-- A column and the value it is set to. -/
structure Assignment where
  column : String
  value : Value

/-- One statement. -/
structure Query where
  action : Action := .select
  table : Option TableRef := none
  distinct : Bool := false
  /-- The selected columns; none stand for all. -/
  columns : List Column := []
  joins : List Join := []
  filter : Option Filter := none
  groups : List Column := []
  having : Option Filter := none
  orders : List OrderBy := []
  limit : Option Int := none
  offset : Option Int := none
  aggregate : Option Aggregate := none
  branches : List Branch := []
  lock : Option Lock := none
  assignments : List Assignment := []
  /-- The columns that a write gives back. -/
  returning : List String := []

end

instance : Inhabited Query := ⟨{}⟩

instance : Inhabited Value := ⟨.null⟩

end SqlQuery
