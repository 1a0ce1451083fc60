import SqlQuery.Query

/-!
# SQL of the caller's own

A description may carry SQL that the compiler writes as it stands: values, columns, tables, conditions, terms of
an ordering and locks have a form for it.  `Query.verbatims` collects all of it, from every depth and also from
the places that the compiler does not look at, such as the condition of a cross join.
-/

namespace SqlQuery

/-- SQL of the caller's own, with the values for the placeholders in it. -/
structure Verbatim where
  sql : String
  bindings : List Value := []

def Column.verbatims : Column → List Verbatim
  | .raw sql => [{ sql }]
  | _ => []

def OrderBy.verbatims : OrderBy → List Verbatim
  | .raw sql => [{ sql }]
  | _ => []

def Lock.verbatims : Lock → List Verbatim
  | .raw sql => [{ sql }]
  | .forUpdate => []

mutual

/-- The caller's own SQL in a value. -/
def Value.verbatims : Value → List Verbatim
  | .raw sql => [{ sql }]
  | .list items => Value.allVerbatims items
  | .subquery q => q.verbatims
  | _ => []

def Value.allVerbatims : List Value → List Verbatim
  | [] => []
  | v :: vs => v.verbatims ++ Value.allVerbatims vs

/-- The caller's own SQL in a table. -/
def TableRef.verbatims : TableRef → List Verbatim
  | .named _ => []
  | .raw sql bindings => [{ sql, bindings }]
  | .subquery q _ => q.verbatims
  | .procedure _ args => Value.allVerbatims args

def TableRef.optVerbatims : Option TableRef → List Verbatim
  | none => []
  | some t => t.verbatims

/-- The caller's own SQL in a join, its condition included. -/
def Join.verbatims : Join → List Verbatim
  | ⟨_, table, on⟩ => table.verbatims ++ Filter.optVerbatims on

def Join.allVerbatims : List Join → List Verbatim
  | [] => []
  | j :: js => j.verbatims ++ Join.allVerbatims js

/-- The caller's own SQL in a tree of conditions. -/
def Filter.verbatims : Filter → List Verbatim
  | .and children => Filter.allVerbatims children
  | .or children => Filter.allVerbatims children
  | .not inner => inner.verbatims
  | .predicate c => c.verbatims
  | .raw sql bindings => [{ sql, bindings }]

def Filter.allVerbatims : List Filter → List Verbatim
  | [] => []
  | f :: fs => f.verbatims ++ Filter.allVerbatims fs

def Filter.optVerbatims : Option Filter → List Verbatim
  | none => []
  | some f => f.verbatims

/-- The caller's own SQL in a condition. -/
def Predicate.verbatims : Predicate → List Verbatim
  | .compare _ _ value _ => value.verbatims
  | .isIn _ values _ => Value.allVerbatims values
  | .inSelect _ q _ => q.verbatims
  | .isNull _ _ => []
  | .datePart _ _ _ value => value.verbatims
  | .rowExists q _ => q.verbatims

def Branch.allVerbatims : List Branch → List Verbatim
  | [] => []
  | ⟨_, q⟩ :: bs => q.verbatims ++ Branch.allVerbatims bs

def Assignment.allVerbatims : List Assignment → List Verbatim
  | [] => []
  | ⟨_, v⟩ :: as => v.verbatims ++ Assignment.allVerbatims as

/-- The caller's own SQL in a query. -/
def Query.verbatims : Query → List Verbatim
  | ⟨_, table, _, columns, joins, filter, groups, having, orders, _, _, _, branches, lock, assignments, _⟩ =>
    TableRef.optVerbatims table ++ columns.flatMap Column.verbatims ++ Join.allVerbatims joins ++
      Filter.optVerbatims filter ++ groups.flatMap Column.verbatims ++ Filter.optVerbatims having ++
      orders.flatMap OrderBy.verbatims ++ Branch.allVerbatims branches ++
      lock.elim [] Lock.verbatims ++ Assignment.allVerbatims assignments

end

theorem Assignment.allVerbatims_eq (as : List Assignment) :
    Assignment.allVerbatims as = Value.allVerbatims (as.map Assignment.value) := by
  induction as with
  | nil => rfl
  | cons a as ih =>
    obtain ⟨c, v⟩ := a
    rw [Assignment.allVerbatims, ih, List.map_cons, Value.allVerbatims]

/-- Every piece of the caller's own SQL in a query satisfies `R`: the same for each part of it. -/
structure Query.AllVerbatims (R : Verbatim → Prop) (q : Query) : Prop where
  table : ∀ r ∈ TableRef.optVerbatims q.table, R r
  columns : ∀ c ∈ q.columns, ∀ r ∈ c.verbatims, R r
  joins : ∀ r ∈ Join.allVerbatims q.joins, R r
  filter : ∀ r ∈ Filter.optVerbatims q.filter, R r
  groups : ∀ c ∈ q.groups, ∀ r ∈ c.verbatims, R r
  having : ∀ r ∈ Filter.optVerbatims q.having, R r
  orders : ∀ o ∈ q.orders, ∀ r ∈ o.verbatims, R r
  branches : ∀ r ∈ Branch.allVerbatims q.branches, R r
  lock : ∀ l, q.lock = some l → ∀ r ∈ l.verbatims, R r
  assignments : ∀ r ∈ Assignment.allVerbatims q.assignments, R r

theorem Query.allVerbatims_iff {R : Verbatim → Prop} {q : Query} :
    (∀ r ∈ q.verbatims, R r) ↔ q.AllVerbatims R := by
  obtain ⟨_, table, _, columns, joins, filter, groups, having, orders, _, _, _, branches, lock, assigned, _⟩ := q
  rw [Query.verbatims]
  constructor
  · intro h
    simp only [List.forall_mem_append, List.forall_mem_flatMap] at h
    obtain ⟨⟨⟨⟨⟨⟨⟨⟨⟨h1, h2⟩, h3⟩, h4⟩, h5⟩, h6⟩, h7⟩, h8⟩, h9⟩, h10⟩ := h
    refine ⟨h1, h2, h3, h4, h5, h6, h7, h8, ?_, h10⟩
    rintro l rfl
    exact h9
  · rintro ⟨h1, h2, h3, h4, h5, h6, h7, h8, h9, h10⟩
    simp only [List.forall_mem_append, List.forall_mem_flatMap]
    refine ⟨⟨⟨⟨⟨⟨⟨⟨⟨h1, h2⟩, h3⟩, h4⟩, h5⟩, h6⟩, h7⟩, h8⟩, ?_⟩, h10⟩
    cases lock with
    | none => simp
    | some l => exact h9 l rfl

end SqlQuery
