import SqlQuery.Compile.Select

/-!
# Writes

`insert`, `update` and `delete`. A write goes to one named table and carries none of the clauses of a
select.

* `Query.insertFragment`, `Query.updateFragment`, `Query.deleteFragment` — the three statements;
* `Query.givesBack` — the clause that makes a write give rows back.
-/

namespace SqlQuery

open SqlQuery.Fragment

namespace Query

/-- Refuses the clauses that belong to selects. -/
def refuseReadClauses (q : Query) : Except Error Unit :=
  Defect.refuse (q.readClause?.map (.writeWith q.action))

/-- The values of the assignments, compiled in their order. -/
def assigned (p : Paging) (q : Query) : Except Error (List Fragment) :=
  q.assignments.mapM fun a => a.value.fragment p none

/-- The condition of a write, as a clause. -/
def condition (p : Paging) (q : Query) : Except Error Fragment := do
  return clause "where" (← Filter.optional p q.filter)

/-- The columns that the write gives back. -/
def givesBack (q : Query) : Fragment :=
  if q.returning.isEmpty then [] else word " returning " ++ joined ", " (q.returning.map name)

/-- The defect of an insert beyond its table and clauses. -/
def insertDefect? (q : Query) (table : String) : Option Defect :=
  if q.filter.isSome then some .insertWithFilter
  else if q.assignments.isEmpty then some (.insertWithoutValues table)
  else none

/-- An insert, `insert into table (columns) values (values)`. -/
def insertFragment (p : Paging) (q : Query) : Except Error Fragment := do
  let table ← q.target
  q.refuseReadClauses
  Defect.refuse (q.insertDefect? table)
  let columns := q.assignments.map fun a => name a.column
  let values ← q.assigned p
  return word "insert into " ++ name table ++ word " " ++ parenthesized (joined ", " columns) ++
    word " values " ++ parenthesized (joined ", " values) ++ q.givesBack

/-- An update, `update table set column = value, … where condition`. -/
def updateFragment (p : Paging) (q : Query) : Except Error Fragment := do
  let table ← q.target
  q.refuseReadClauses
  Defect.refuse (if q.assignments.isEmpty then some (.updateWithoutValues table) else none)
  let values ← q.assigned p
  let sets := (q.assignments.zip values).map fun (a, v) => name a.column ++ word " = " ++ v
  let condition ← q.condition p
  return word "update " ++ name table ++ word " set " ++ joined ", " sets ++ condition ++ q.givesBack

/-- A delete, `delete from table where condition`. -/
def deleteFragment (p : Paging) (q : Query) : Except Error Fragment := do
  let table ← q.target
  q.refuseReadClauses
  Defect.refuse (if q.assignments.isEmpty then none else some .deleteWithAssignments)
  let condition ← q.condition p
  return word "delete from " ++ name table ++ condition ++ q.givesBack

end Query

end SqlQuery
