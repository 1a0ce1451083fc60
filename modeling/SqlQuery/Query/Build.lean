import SqlQuery.Compile.Clause
import SqlQuery.Filter
import SqlQuery.Number.Digits

/-!
# Building queries

Queries are built step by step: a function makes one, and each further step takes a query and gives
back the changed one.

* `Query.ofTable`, `Query.insertInto`, `Query.updateOf`, `Query.deleteFrom`, `Query.ofProcedure`,
  `Query.ofSubquery`, `Query.ofRaw` — the beginnings;
* `Query.addFilter`, `Query.addHaving`, `Join.addCondition` — conditions, folded onto those before;
* `Query.page` — the limit and offset of a numbered page.
-/

namespace SqlQuery

open SqlQuery.Number

/-! ### Joins -/

namespace Join

/-- A join without a condition yet. -/
def ofTable (kind : JoinKind) (table : TableRef) : Join :=
  { kind, table, on := none }

/-- A join of a subquery that may refer to the tables before it. -/
def lateral (kind : JoinKind) (query : Query) (label : Option String) : Join :=
  ofTable kind (.subquery query label)

/-- One more condition. -/
def addCondition (j : Join) (c : Connective) (f : Filter) : Join :=
  { j with on := Filter.push j.on c f }

/-- One more comparison of two columns. -/
def addColumns (j : Join) (c : Connective) (left op right : String) : Join :=
  j.addCondition c (.columns left op right)

end Join

namespace Query

/-! ### Beginnings -/

/-- A select from a table. -/
def ofTable (table : TableRef) : Query :=
  { table := some table }

def insertInto (table : String) : Query :=
  { action := .insert, table := some (.named table) }

def updateOf (table : String) : Query :=
  { action := .update, table := some (.named table) }

def deleteFrom (table : String) : Query :=
  { action := .delete, table := some (.named table) }

/-- A select from a stored procedure. -/
def ofProcedure (name : String) (args : List Value) : Query :=
  ofTable (.procedure name args)

/-- A select from a derived table. -/
def ofSubquery (query : Query) (label : String) : Query :=
  ofTable (.subquery query (some label))

/-- A select from a table expression of the caller's own. -/
def ofRaw (sql : String) (bindings : List Value) : Query :=
  ofTable (.raw sql bindings)

/-! ### Columns -/

def addColumns (q : Query) (columns : List Column) : Query :=
  { q with columns := q.columns ++ columns }

def addColumn (q : Query) (column : Column) : Query :=
  q.addColumns [column]

def makeDistinct (q : Query) : Query :=
  { q with distinct := true }

def withAggregate (q : Query) (func : AggregateFunc) (column : String) : Query :=
  { q with aggregate := some ⟨func, column⟩ }

/-! ### Conditions -/

/-- One more condition on rows. -/
def addFilter (q : Query) (c : Connective) (f : Filter) : Query :=
  { q with filter := Filter.push q.filter c f }

/-- One more condition on groups. -/
def addHaving (q : Query) (c : Connective) (f : Filter) : Query :=
  { q with having := Filter.push q.having c f }

def whereEq (q : Query) (column : String) (value : Value) : Query :=
  q.addFilter .and (.eq column value)

/-! ### Joins -/

def addJoin (q : Query) (join : Join) : Query :=
  { q with joins := q.joins ++ [join] }

/-- A join on one comparison of two columns. -/
def joinOn (q : Query) (kind : JoinKind) (table : TableRef) (left op right : String) : Query :=
  q.addJoin ((Join.ofTable kind table).addColumns .and left op right)

def crossJoin (q : Query) (table : TableRef) : Query :=
  q.addJoin (.ofTable .cross table)

/-- A join of a subquery under a name. -/
def joinSubquery (q query : Query) (label left op right : String) : Query :=
  q.joinOn .inner (.subquery query (some label)) left op right

def joinLateral (q query : Query) (label : String) : Query :=
  q.addJoin (.lateral .lateralInner query (some label))

def leftJoinLateral (q query : Query) (label : String) : Query :=
  q.addJoin (.lateral .lateralLeft query (some label))

/-! ### Groups, ordering, paging -/

def groupBy (q : Query) (columns : List Column) : Query :=
  { q with groups := q.groups ++ columns }

def addOrder (q : Query) (order : OrderBy) : Query :=
  { q with orders := q.orders ++ [order] }

def orderBy (q : Query) (column : String) (order : SortOrder) : Query :=
  q.addOrder (.column column order)

/-- The column that tells when a row was made. -/
def creationColumn : String := "created_at"

/-- The newest rows first. -/
def latest (q : Query) : Query :=
  q.orderBy creationColumn .desc

/-- The oldest rows first. -/
def oldest (q : Query) : Query :=
  q.orderBy creationColumn .asc

/-- Drops every ordering. -/
def unordered (q : Query) : Query :=
  { q with orders := [] }

def withLimit (q : Query) (n : Int) : Query :=
  { q with limit := some n }

def withOffset (q : Query) (n : Int) : Query :=
  { q with offset := some n }

/-- How many rows stand before a page; pages are counted from 1. -/
def pageOffset (page perPage : Int) : Int :=
  clampInt64 ((max page 1 - 1) * perPage)

/-- The rows of one page. A negative size is refused when the query is compiled. -/
def page (q : Query) (page perPage : Int) : Query :=
  (q.withOffset (pageOffset page perPage)).withLimit perPage

/-! ### Unions and locks -/

def addBranch (q : Query) (op : SetOp) (other : Query) : Query :=
  { q with branches := q.branches ++ [⟨op, other⟩] }

def lockForUpdate (q : Query) : Query :=
  { q with lock := some .forUpdate }

/-! ### Writes -/

def assign (q : Query) (values : List Assignment) : Query :=
  { q with assignments := q.assignments ++ values }

def giveBack (q : Query) (columns : List String) : Query :=
  { q with returning := q.returning ++ columns }

end Query

end SqlQuery
