import SqlQuery.Compile.Check
import SqlQuery.Fragment

/-!
# Clauses

The clauses of a statement that hold no values and no queries, and how the clauses of a select are
put in order.

* `Column.list` — selected or grouping columns; `OrderBy.list` — the terms of an ordering;
* `Aggregate.fragment` — an aggregate under its fixed name;
* `Query.head`, `Query.tail` — what stands before and after the parts that are compiled;
* `Query.layout`, `Query.assembled` — the whole select around its compiled parts.
-/

namespace SqlQuery

open SqlQuery.Text SqlQuery.Fragment

/-- The name that an aggregate gets, by which it is read back. -/
def aggregateName : String := "aggregate"

/-- The name of the derived table that an aggregate is taken over. -/
def derivedTableName : String := "temp_table"

/-- The dialect's way to order at random. -/
def randomOrder : String := "RAND()"

/-- The locking clause. -/
def lockClause : String := "with lock"

namespace Column

/-- The column that a caller's text stands for. -/
def ofText (s : String) : Column :=
  if s = "*" then star else named s

/-- The column as shown to people, without quotes. -/
def text : Column → String
  | star => "*"
  | named name => name
  | aliased name label => name ++ " as " ++ label
  | raw sql => sql

/-- One column as SQL. -/
def fragment : Column → Fragment
  | star => word "*"
  | named n => name n
  | aliased n label => name n ++ word " as " ++ part label
  | raw sql => [.verbatim sql []]

/-- Several columns as SQL; none stand for all. -/
def list (columns : List Column) : Fragment :=
  if columns.isEmpty then word "*" else joined ", " (columns.map fragment)

end Column

namespace OrderBy

/-- One term as SQL. -/
def fragment : OrderBy → Fragment
  | column c order => name c ++ word (" " ++ order.keyword)
  | raw sql => [.verbatim sql []]
  | random => word randomOrder

/-- The terms of an ordering as SQL. -/
def list (orders : List OrderBy) : Fragment :=
  joined ", " (orders.map fragment)

end OrderBy

namespace Aggregate

/-- Counts rows. -/
def countRows : Aggregate := ⟨.count, "*"⟩

/-- What the function is applied to; whole rows are never made distinct. -/
def argument (a : Aggregate) (distinct : Bool) : Fragment :=
  if a.column = "*" then word "*"
  else if distinct then word "distinct " ++ name a.column
  else name a.column

/-- The aggregate `func(column) as "aggregate"`. -/
def fragment (a : Aggregate) (distinct : Bool) : Fragment :=
  word (a.func.keyword ++ "(") ++ a.argument distinct ++ word ") as " ++ part aggregateName

end Aggregate

namespace Lock

/-- The clause with a space before it; a blank one is left out. -/
def fragment : Lock → Fragment
  | forUpdate => word (" " ++ lockClause)
  | raw sql => if isBlankText sql then [] else word " " ++ [.verbatim sql []]

end Lock

/-- Clauses of words, a space before each. -/
def spaced (clauses : List String) : Fragment :=
  clauses.flatMap fun c => word (" " ++ c)

namespace Query

/-- What a select asks for: an aggregate, or columns. -/
def selection (q : Query) (aggregate : Option Aggregate) : Fragment :=
  match aggregate with
  | some a => a.fragment q.distinct
  | none => (if q.distinct then word "distinct " else []) ++ Column.list q.columns

/-- The word `select`, the leading paging and the selection. -/
def head (p : Paging) (q : Query) (aggregate : Option Aggregate) : Fragment :=
  word "select" ++ spaced (p.leading q.limit q.offset) ++ word " " ++ q.selection aggregate

/-- Grouping columns. -/
def grouping (q : Query) : Fragment :=
  if q.groups.isEmpty then [] else word " group by " ++ Column.list q.groups

/-- The ordering, the trailing paging and the lock. -/
def tail (p : Paging) (q : Query) : Fragment :=
  (if q.orders.isEmpty then [] else word " order by " ++ OrderBy.list q.orders) ++
    spaced (p.trailing q.limit q.offset) ++
    match q.lock with
    | none => []
    | some lock => lock.fragment

/-- A select around its compiled parts: the table, the joins, the two conditions and the branches. -/
def layout (p : Paging) (q : Query) (aggregate : Option Aggregate)
    (table joins filter having branches : Fragment) : Fragment :=
  q.head p aggregate ++ word " from " ++ table ++ joins ++ clause "where" filter ++ q.grouping ++
    clause "having" having ++ branches ++ q.tail p

/-- An aggregate over a derived table. -/
def wrapped (q : Query) (a : Aggregate) (inner : Fragment) : Fragment :=
  word "select " ++ a.fragment q.distinct ++ word " from " ++ parenthesized inner ++ word " as " ++
    part derivedTableName

/-- A select put together from its compiled parts. An aggregate over a union or over groups with a
condition is taken over the query as a derived table. -/
def assembled (p : Paging) (q : Query) (table joins filter having branches : Fragment) : Fragment :=
  match q.aggregate with
  | none => q.layout p none table joins filter having branches
  | some a =>
    if q.wrapsAggregate then q.wrapped a (q.layout p none table joins filter having branches)
    else q.layout p (some a) table joins filter having branches

end Query

end SqlQuery
