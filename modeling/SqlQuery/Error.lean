import SqlQuery.Keyword
import SqlQuery.Operator

/-!
# Errors

* `Defect` — the ways in which a query description can be wrong;
* `Error` — everything that compiling, running and configuring can fail with;
* `Defect.message`, `Error.message` — the wording, in one place.
-/

namespace SqlQuery

/-- A clause that only a select may carry. -/
inductive ReadClause where
  | columns | distinct | joins | unions | aggregate | groups | having | orders | paging | lock
deriving DecidableEq

namespace ReadClause

/-- The clause as a phrase. -/
def phrase : ReadClause → String
  | columns => "selected columns"
  | distinct => "distinct"
  | joins => "joins"
  | unions => "unions"
  | aggregate => "an aggregate"
  | groups => "group by"
  | having => "having"
  | orders => "order by"
  | paging => "paging"
  | lock => "a lock"

end ReadClause

/-- What is wrong with a query description. -/
inductive Defect where
  /-- Another statement where only a select can stand. -/
  | notASelect (action : Action)
  | selectWithoutTable
  | negativeLimit (n : Int)
  | negativeOffset (n : Int)
  /-- An aggregate beside plain columns, and nothing to group them by. -/
  | aggregateWithColumns
  /-- Legacy paging would limit one branch and not the union. -/
  | legacyPagedUnion
  | lockedUnion
  | selectWithAssignments
  | selectWithReturning
  /-- A branch of a union is written bare and cannot close itself. -/
  | closedBranch
  | emptyTableName
  | emptyProcedureName
  /-- A join that needs a condition has none; with the SQL of its table. -/
  | joinWithoutCondition (kind : JoinKind) (table : String)
  /-- Operator `between` with something other than two bounds; with the SQL of its left side. -/
  | notTwoBounds (op : Operator) (lhs : String)
  /-- A list compared by an operator that takes one value; with the SQL of the left side. -/
  | listWithoutBetween (op : Operator) (lhs : String)
  | strayList
  | writeWithoutTable (action : Action)
  | writeNeedsName (action : Action)
  | writeWith (action : Action) (clause : ReadClause)
  | insertWithFilter
  | insertWithoutValues (table : String)
  | updateWithoutValues (table : String)
  | deleteWithAssignments
  /-- A write handed to a session's reading operation. -/
  | readOnly (action : Action)
deriving DecidableEq

namespace Defect

/-- The wording of a defect. -/
def message : Defect → String
  | notASelect action => "expected a select, got " ++ action.keyword
  | selectWithoutTable => "select without a table"
  | negativeLimit n => "negative limit: " ++ toString n
  | negativeOffset n => "negative offset: " ++ toString n
  | aggregateWithColumns => "an aggregate cannot be mixed with plain columns"
  | legacyPagedUnion => "legacy first/skip paging cannot limit a union"
  | lockedUnion => "a union cannot be locked"
  | selectWithAssignments => "select with assignments"
  | selectWithReturning => "select with returning"
  | closedBranch =>
    "a union branch cannot carry order by, paging or a lock; set them on the head query"
  | emptyTableName => "empty table name"
  | emptyProcedureName => "procedure name is empty"
  | joinWithoutCondition kind table => kind.keyword ++ " join " ++ table ++ " has no condition"
  | notTwoBounds op lhs => op.symbol ++ " on " ++ lhs ++ " needs exactly two bounds"
  | listWithoutBetween op lhs =>
    "a value list needs between, not " ++ op.symbol ++ " on " ++ lhs
  | strayList => "a value list is only allowed as between bounds"
  | writeWithoutTable action => action.keyword ++ " without a table"
  | writeNeedsName action => action.keyword ++ " needs a plain table name"
  | writeWith action clause => action.keyword ++ " with " ++ clause.phrase ++ " is not supported"
  | insertWithFilter => "insert with a where clause"
  | insertWithoutValues table => "insert into " ++ table ++ " has no values"
  | updateWithoutValues table => "update of " ++ table ++ " sets no columns"
  | deleteWithAssignments => "delete with assignments"
  | readOnly action => "select() given a " ++ action.keyword ++ " statement"

end Defect

/-- What is wrong with the rows that a server gave back. -/
inductive RowFault where
  | noAggregate
  /-- With the value found instead, as JSON. -/
  | countNotInteger (found : String)
  | noColumnName (row : Nat)
  | columnNameNotString (row : Nat) (found : String)
deriving DecidableEq

namespace RowFault

/-- The wording of a fault. -/
def message : RowFault → String
  | noAggregate => "aggregate row has no aggregate field"
  | countNotInteger found => "count is not an integer: " ++ found
  | noColumnName row => "row " ++ toString row ++ " has no column_name field"
  | columnNameNotString row found =>
    "row " ++ toString row ++ ": column_name is not a string: " ++ found

end RowFault

/-- Why a server's version is not known. -/
inductive VersionFault where
  /-- The connection failed; with the wording of its error. -/
  | failed (message : String)
  | blank
deriving DecidableEq

namespace VersionFault

/-- The wording of a fault. -/
def message : VersionFault → String
  | failed message => message
  | blank => "server returned an empty version string"

end VersionFault

/-- A failure of an operation of this library. -/
inductive Error where
  | versionUnavailable (fault : VersionFault)
  /-- With the banner as the server sent it. -/
  | versionUnparseable (banner : String)
  /-- With the operator as the caller wrote it. -/
  | unsupportedOperator (text : String)
  | malformedQuery (defect : Defect)
  | malformedRow (fault : RowFault)
  /-- What a connection reports. -/
  | connection (message : String)
  | config
deriving DecidableEq

namespace Error

/-- The wording of an error. -/
def message : Error → String
  | versionUnavailable fault => "Server version unavailable: " ++ fault.message
  | versionUnparseable banner => "Unparseable server version: '" ++ banner ++ "'"
  | unsupportedOperator text => "Unsupported operator: '" ++ text ++ "'"
  | malformedQuery defect => "Malformed query: " ++ defect.message
  | malformedRow fault => "Malformed row: " ++ fault.message
  | connection message => "Connection error: " ++ message
  | config => "Configuration error"

end Error

end SqlQuery
