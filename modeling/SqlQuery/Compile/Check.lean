import SqlQuery.Error
import SqlQuery.Filter
import SqlQuery.Paging
import SqlQuery.Text.Blank

/-!
# Defects of a description

The checks that look at one query and not into its parts. Each names the first defect that it finds,
in a fixed order.

* `Query.wrapsAggregate` — whether an aggregate is taken over the query as a derived table;
* `Query.selectDefect?` — what keeps a query from being a select;
* `Query.branchDefect?` — what keeps a select from being a branch of a union;
* `Query.readClause?` — the first clause that a write may not carry.
-/

namespace SqlQuery

open SqlQuery.Text

/-- Nothing, or the failure that a defect means. -/
def Defect.refuse (d : Option Defect) : Except Error Unit :=
  match d with
  | none => .ok ()
  | some d => .error (.malformedQuery d)

namespace Query

/-- Unions and a condition on groups are evaluated before an aggregate is taken. -/
def wrapsAggregate (q : Query) : Bool :=
  !q.branches.isEmpty || q.having.any (!·.isEmpty)

/-- Whether the query limits its rows. -/
def isPaged (q : Query) : Bool :=
  q.limit.isSome || q.offset.isSome

/-- The first defect of a select. -/
def selectDefect? (p : Paging) (q : Query) : Option Defect :=
  if q.action ≠ .select then some (.notASelect q.action)
  else if q.table.isNone then some .selectWithoutTable
  else if let some n := q.limit.filter (· < 0) then some (.negativeLimit n)
  else if let some n := q.offset.filter (· < 0) then some (.negativeOffset n)
  else if q.aggregate.isSome && !q.columns.isEmpty && !q.wrapsAggregate then
    some .aggregateWithColumns
  else if !q.branches.isEmpty && p.isLegacy && q.isPaged then some .legacyPagedUnion
  else if !q.branches.isEmpty && q.lock.isSome then some .lockedUnion
  else if !q.assignments.isEmpty then some .selectWithAssignments
  else if !q.returning.isEmpty then some .selectWithReturning
  else none

/-- A branch is written bare, so it has nothing that would close the whole union. -/
def branchDefect? (q : Query) : Option Defect :=
  if !q.orders.isEmpty || q.isPaged || q.lock.isSome then some .closedBranch else none

/-- The first clause that belongs to selects only. -/
def readClause? (q : Query) : Option ReadClause :=
  if !q.columns.isEmpty then some .columns
  else if q.distinct then some .distinct
  else if !q.joins.isEmpty then some .joins
  else if !q.branches.isEmpty then some .unions
  else if q.aggregate.isSome then some .aggregate
  else if !q.groups.isEmpty then some .groups
  else if q.having.isSome then some .having
  else if !q.orders.isEmpty then some .orders
  else if q.isPaged then some .paging
  else if q.lock.isSome then some .lock
  else none

/-- The table that a write goes to: one with a name that is not blank. -/
def target (q : Query) : Except Error String :=
  match q.table with
  | some (.named name) =>
    if isBlankText name then .error (.malformedQuery (.writeNeedsName q.action)) else .ok name
  | some _ => .error (.malformedQuery (.writeNeedsName q.action))
  | none => .error (.malformedQuery (.writeWithoutTable q.action))

end Query

end SqlQuery
