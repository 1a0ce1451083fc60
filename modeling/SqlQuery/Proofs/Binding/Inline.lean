import SqlQuery.Proofs.Binding.Fragment
import SqlQuery.Proofs.Outline

/-!
# Descriptions with their values written out

`Query.inlined` is a description without values: in place of each value that would be bound it has the text of
the value as SQL of the caller's own, and the caller's own SQL has the texts in place of its placeholders.  All
else is kept, null included where an operator takes it as a word (`Operator.takesNull`).

The checks of the compiler see no difference between the two: `isEmpty_inlined`, `needsParens_inlined` and
`Query.inlined_sameOutline`.
-/

namespace SqlQuery

open SqlQuery.Fragment SqlQuery.Text

/-- The operators after which null is a word of the condition. -/
def Operator.takesNull : Operator → Bool
  | eq | ne | bangEq | isDistinctFrom | isNotDistinctFrom => true
  | _ => false

/-- Null after an operator that takes it. -/
def Value.isNullWord (op : String) : Value → Bool
  | null => (Operator.ofText? op).any Operator.takesNull
  | _ => false

mutual

/-- A value written out, cut down to a part where one is compared. -/
def Value.inlined (part : Option DatePart) : Value → Value
  | .raw sql => .raw sql
  | .column c => .column c
  | .list items => .list (Value.allInlined part items)
  | .subquery q => .subquery q.inlined
  | v => .raw (v.narrowTo part).text

def Value.allInlined (part : Option DatePart) : List Value → List Value
  | [] => []
  | v :: vs => v.inlined part :: Value.allInlined part vs

def TableRef.inlined : TableRef → TableRef
  | .named n => .named n
  | .raw sql bindings => .raw (filled sql bindings) []
  | .subquery q label => .subquery q.inlined label
  | .procedure n args => .procedure n (Value.allInlined none args)

def TableRef.optInlined : Option TableRef → Option TableRef
  | none => none
  | some t => some t.inlined

def Join.allInlined : List Join → List Join
  | [] => []
  | ⟨kind, table, on⟩ :: js => ⟨kind, table.inlined, Filter.optInlined on⟩ :: Join.allInlined js

def Filter.inlined : Filter → Filter
  | .and children => .and (Filter.allInlined children)
  | .or children => .or (Filter.allInlined children)
  | .not inner => .not inner.inlined
  | .predicate c => .predicate c.inlined
  | .raw sql bindings => .raw (filled sql bindings) []

def Filter.allInlined : List Filter → List Filter
  | [] => []
  | f :: fs => f.inlined :: Filter.allInlined fs

def Filter.optInlined : Option Filter → Option Filter
  | none => none
  | some f => some f.inlined

def Predicate.inlined : Predicate → Predicate
  | .compare c op v negated => .compare c op (if v.isNullWord op then v else v.inlined none) negated
  | .isIn c vs negated => .isIn c (Value.allInlined none vs) negated
  | .inSelect c q negated => .inSelect c q.inlined negated
  | .isNull c negated => .isNull c negated
  | .datePart c part op v => .datePart c part op (if v.isNullWord op then v else v.inlined (some part))
  | .rowExists q negated => .rowExists q.inlined negated

def Branch.allInlined : List Branch → List Branch
  | [] => []
  | ⟨op, q⟩ :: bs => ⟨op, q.inlined⟩ :: Branch.allInlined bs

def Assignment.allInlined : List Assignment → List Assignment
  | [] => []
  | ⟨c, v⟩ :: as => ⟨c, v.inlined none⟩ :: Assignment.allInlined as

/-- The query with its values written out. -/
def Query.inlined : Query → Query
  | ⟨action, table, distinct, columns, joins, filter, groups, having, orders, limit, offset, aggregate, branches,
      lock, assignments, returning⟩ =>
    ⟨action, TableRef.optInlined table, distinct, columns, Join.allInlined joins, Filter.optInlined filter, groups,
      Filter.optInlined having, orders, limit, offset, aggregate, Branch.allInlined branches, lock,
      Assignment.allInlined assignments, returning⟩

end

/-! ### What the checks see -/

mutual

theorem Filter.isEmpty_inlined : ∀ f : Filter, f.inlined.isEmpty = f.isEmpty
  | .and cs => by
    rw [Filter.inlined, Filter.isEmpty, Filter.isEmpty]
    exact Filter.allEmpty_inlined cs
  | .or cs => by
    rw [Filter.inlined, Filter.isEmpty, Filter.isEmpty]
    exact Filter.allEmpty_inlined cs
  | .not f => by
    rw [Filter.inlined, Filter.isEmpty, Filter.isEmpty]
    exact Filter.isEmpty_inlined f
  | .predicate _ => rfl
  | .raw _ _ => rfl

theorem Filter.allEmpty_inlined : ∀ fs : List Filter, Filter.allEmpty (Filter.allInlined fs) = Filter.allEmpty fs
  | [] => rfl
  | f :: fs => by
    rw [Filter.allInlined, Filter.allEmpty, Filter.allEmpty, Filter.isEmpty_inlined f, Filter.allEmpty_inlined fs]

end

theorem Filter.allInlined_eq_map (fs : List Filter) : Filter.allInlined fs = fs.map Filter.inlined := by
  induction fs with
  | nil => rfl
  | cons f fs ih => rw [Filter.allInlined, ih, List.map_cons]

theorem Filter.needsParens_inlined (f : Filter) : f.inlined.needsParens = f.needsParens := by
  cases f with
  | and cs | or cs =>
    rw [Filter.inlined, Filter.needsParens, Filter.needsParens, Filter.allInlined_eq_map,
      Filter.length_filter_map Filter.isEmpty_inlined]
  | not | predicate | raw => rfl

theorem Query.inlined_eq (q : Query) : q.inlined =
    { q with
      table := TableRef.optInlined q.table
      joins := Join.allInlined q.joins
      filter := Filter.optInlined q.filter
      having := Filter.optInlined q.having
      branches := Branch.allInlined q.branches
      assignments := Assignment.allInlined q.assignments } := by
  cases q
  rfl

theorem Query.inlined_sameOutline (q : Query) : q.inlined.SameOutline q := by
  rw [q.inlined_eq]
  refine q.sameOutline_of_parts ?_ ?_ ?_ ?_ ?_ ?_
  · cases q.table <;> rfl
  · obtain _ | ⟨⟨_, _, _⟩, _⟩ := q.joins <;> rfl
  · cases q.filter <;> rfl
  · cases q.having with
    | none => rfl
    | some f => exact congrArg some f.isEmpty_inlined
  · obtain _ | ⟨⟨_, _⟩, _⟩ := q.branches <;> rfl
  · obtain _ | ⟨⟨_, _⟩, _⟩ := q.assignments <;> rfl

end SqlQuery
