import SqlQuery.Proofs.Acceptance.Silent

/-!
# Accepted descriptions

What a description has to be for the compiler to accept it, said without the compiler.

* `Value.Accepted` … `Branch.AllAccepted` — accepted parts of a description;
* `Query.Selectable` — a query that can stand as a select, at any depth;
* `Query.Accepted` — a query that can stand as a statement.

A join needs a condition with text, which is where `Filter.Silent` comes in.
-/

namespace SqlQuery

open SqlQuery.Fragment SqlQuery.Text

/-! ### Accepted parts -/

mutual

/-- A value that can be an operand. -/
def Value.Accepted (p : Paging) : Value → Prop
  | .list _ => False
  | .subquery q => q.Selectable p
  | _ => True

/-- A list of two operands. -/
def Value.BothAccepted (p : Paging) : Value → Prop
  | .list [low, high] => low.Accepted p ∧ high.Accepted p
  | _ => False

def Value.AllAccepted (p : Paging) : List Value → Prop
  | [] => True
  | v :: vs => v.Accepted p ∧ Value.AllAccepted p vs

/-- A table that can be selected from. -/
def TableRef.Accepted (p : Paging) : TableRef → Prop
  | .named n => isBlankText n = false
  | .raw _ _ => True
  | .subquery q _ => q.Selectable p
  | .procedure n args => isBlankText n = false ∧ Value.AllAccepted p args

def TableRef.OptAccepted (p : Paging) : Option TableRef → Prop
  | none => False
  | some t => t.Accepted p

/-- Joins of accepted tables; those that take a condition have one with text. -/
def Join.AllAccepted (p : Paging) : List Join → Prop
  | [] => True
  | ⟨kind, table, on⟩ :: js =>
    table.Accepted p ∧ (kind.takesCondition = true → Filter.OptAccepted p on ∧ ¬ Filter.OptSilent on) ∧
      Join.AllAccepted p js

/-- A tree of accepted conditions. -/
def Filter.Accepted (p : Paging) : Filter → Prop
  | .and children => Filter.AllAccepted p children
  | .or children => Filter.AllAccepted p children
  | .not inner => inner.Accepted p
  | .predicate c => c.Accepted p
  | .raw _ _ => True

def Filter.AllAccepted (p : Paging) : List Filter → Prop
  | [] => True
  | f :: fs => f.Accepted p ∧ Filter.AllAccepted p fs

def Filter.OptAccepted (p : Paging) : Option Filter → Prop
  | none => True
  | some f => f.Accepted p

/-- A condition with an operator of the dialect and the operands that it takes. -/
def Predicate.Accepted (p : Paging) : Predicate → Prop
  | .compare _ op v _ => ∃ o, Operator.ofText? op = some o ∧
      (o.isRange = true → v.BothAccepted p) ∧ (o.isRange = false → v.Accepted p)
  | .isIn _ vs _ => Value.AllAccepted p vs
  | .inSelect _ q _ => q.Selectable p
  | .isNull _ _ => True
  | .datePart _ _ op v => ∃ o, Operator.ofText? op = some o ∧
      (o.isRange = true → v.BothAccepted p) ∧ (o.isRange = false → v.Accepted p)
  | .rowExists q _ => q.Selectable p

/-- Branches of a union: selects without anything that would close the union. -/
def Branch.AllAccepted (p : Paging) : List Branch → Prop
  | [] => True
  | ⟨_, q⟩ :: bs =>
    (q.orders = [] ∧ q.limit = none ∧ q.offset = none ∧ q.lock = none) ∧ q.Selectable p ∧
      Branch.AllAccepted p bs

/-- A query that can stand as a select. -/
def Query.Selectable (p : Paging) : Query → Prop
  | ⟨action, table, _, columns, joins, filter, _, having, _, limit, offset, aggregate, branches, lock,
      assignments, returning⟩ =>
    action = .select ∧ TableRef.OptAccepted p table ∧ (∀ n ∈ limit, 0 ≤ n) ∧ (∀ n ∈ offset, 0 ≤ n) ∧
      (aggregate.isSome = true → columns = [] ∨ branches ≠ [] ∨ ∃ h ∈ having, h.isEmpty = false) ∧
      (branches ≠ [] → lock = none ∧ (p = .legacy → limit = none ∧ offset = none)) ∧
      assignments = [] ∧ returning = [] ∧ Join.AllAccepted p joins ∧ Filter.OptAccepted p filter ∧
      Filter.OptAccepted p having ∧ Branch.AllAccepted p branches

end

/-! ### Accepted statements -/

/-- A query that goes to one named table and has none of the clauses of a select. -/
structure Query.Writable (q : Query) : Prop where
  target : ∃ n, q.table = some (.named n) ∧ isBlankText n = false
  columns : q.columns = []
  distinct : q.distinct = false
  joins : q.joins = []
  branches : q.branches = []
  aggregate : q.aggregate = none
  groups : q.groups = []
  having : q.having = none
  orders : q.orders = []
  limit : q.limit = none
  offset : q.offset = none
  lock : q.lock = none

/-- A query that can stand as a statement. -/
def Query.Accepted (p : Paging) (q : Query) : Prop :=
  match q.action with
  | .select => q.Selectable p
  | .insert => q.Writable ∧ q.filter = none ∧ q.assignments ≠ [] ∧
      Value.AllAccepted p (q.assignments.map Assignment.value)
  | .update => q.Writable ∧ q.assignments ≠ [] ∧ Value.AllAccepted p (q.assignments.map Assignment.value) ∧
      Filter.OptAccepted p q.filter
  | .delete => q.Writable ∧ q.assignments = [] ∧ Filter.OptAccepted p q.filter

end SqlQuery
