import SqlQuery.Compile.Write

/-!
# Compiling

A query description in, SQL text and ordered parameters out. Nothing comes out unless the whole
statement compiles.

* `Query.compile` — any statement;
* `Query.compileAggregate`, `Query.compileExists` — a query reduced to one number;
* `compileProcedure` — the call of a stored procedure, as it stands after `from`.
-/

namespace SqlQuery

namespace Query

/-- The statement of a query as a fragment. -/
def fragment (p : Paging) (q : Query) : Except Error Fragment :=
  match q.action with
  | .select => q.select p
  | .insert => q.insertFragment p
  | .update => q.updateFragment p
  | .delete => q.deleteFragment p

/-- The statement of a query. -/
def compile (p : Paging) (q : Query) : Except Error Statement := do
  return (← q.fragment p).statement

/-- The query with an aggregate in place of its selection. Orderings are dropped, and so are the
columns unless the aggregate is taken over a derived table, which needs them. -/
def reduced (q : Query) (a : Aggregate) : Query :=
  { q with
    columns := if q.wrapsAggregate then q.columns else []
    orders := []
    aggregate := some a }

/-- The statement that asks for an aggregate over a query. -/
def compileAggregate (p : Paging) (q : Query) (a : Aggregate) : Except Error Statement :=
  (q.reduced a).compile p

/-- The statement whose answer is above zero when the query has a row. -/
def compileExists (p : Paging) (q : Query) : Except Error Statement :=
  q.compileAggregate p .countRows

end Query

/-- The call of a stored procedure with its arguments. -/
def compileProcedure (p : Paging) (name : String) (args : List Value) : Except Error Statement := do
  return (← TableRef.fragment p (.procedure name args)).statement

end SqlQuery
