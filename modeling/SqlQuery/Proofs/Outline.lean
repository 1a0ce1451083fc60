import SqlQuery.Compile.Write

/-!
# What the checks see of a query

The checks of the compiler look at the plain fields of a query, and of its parts they only see which ones there
are.  Two queries that agree so far have the same *outline*, and no check can tell them apart.

* `Query.SameOutline` — two queries of one outline, such as one and the same with new parts (`sameOutline_of_parts`);
* `Query.SameOutline.selectDefect?_eq` and its like — each check gives the same for both;
* `Query.SameOutline.assembled_eq` — so does what the compiler writes around the parts of a select.
-/

namespace SqlQuery

/-- Two queries with the same plain fields and the same kinds of parts. -/
structure Query.SameOutline (q r : Query) : Prop where
  action : q.action = r.action
  table : q.table.isSome = r.table.isSome
  distinct : q.distinct = r.distinct
  columns : q.columns = r.columns
  joins : q.joins.isEmpty = r.joins.isEmpty
  filter : q.filter.isSome = r.filter.isSome
  groups : q.groups = r.groups
  /-- Of a condition on groups, the checks also see whether it asks for anything. -/
  having : q.having.map Filter.isEmpty = r.having.map Filter.isEmpty
  orders : q.orders = r.orders
  limit : q.limit = r.limit
  offset : q.offset = r.offset
  aggregate : q.aggregate = r.aggregate
  branches : q.branches.isEmpty = r.branches.isEmpty
  lock : q.lock = r.lock
  assignments : q.assignments.isEmpty = r.assignments.isEmpty
  returning : q.returning = r.returning

/-- New parts of the same kinds leave the outline as it is. -/
theorem Query.sameOutline_of_parts (q : Query) {table : Option TableRef} {joins : List Join}
    {filter having : Option Filter} {branches : List Branch} {assignments : List Assignment}
    (ht : table.isSome = q.table.isSome) (hj : joins.isEmpty = q.joins.isEmpty) (hf : filter.isSome = q.filter.isSome)
    (hh : having.map Filter.isEmpty = q.having.map Filter.isEmpty) (hb : branches.isEmpty = q.branches.isEmpty)
    (ha : assignments.isEmpty = q.assignments.isEmpty) :
    Query.SameOutline { q with table, joins, filter, having, branches, assignments } q where
  action := rfl
  table := ht
  distinct := rfl
  columns := rfl
  joins := hj
  filter := hf
  groups := rfl
  having := hh
  orders := rfl
  limit := rfl
  offset := rfl
  aggregate := rfl
  branches := hb
  lock := rfl
  assignments := ha
  returning := rfl

/-- As many trees ask for something, if the same ones do. -/
theorem Filter.length_filter_map {φ : Filter → Filter} (h : ∀ c, (φ c).isEmpty = c.isEmpty) (cs : List Filter) :
    ((cs.map φ).filter (!·.isEmpty)).length = (cs.filter (!·.isEmpty)).length := by
  have hsame : ((!·.isEmpty) ∘ φ) = fun c : Filter => !c.isEmpty := funext fun c => congrArg _ (h c)
  rw [List.filter_map, List.length_map, hsame]

namespace Query.SameOutline

open SqlQuery.Fragment

variable {q r : Query}

theorem wrapsAggregate_eq (h : q.SameOutline r) : q.wrapsAggregate = r.wrapsAggregate := by
  have hany : ∀ f : Option Filter, f.any (!·.isEmpty) = (f.map Filter.isEmpty).any (!·) := by
    intro f
    cases f <;> rfl
  rw [wrapsAggregate, wrapsAggregate, hany, hany, h.having, h.branches]

theorem isPaged_eq (h : q.SameOutline r) : q.isPaged = r.isPaged := by
  rw [isPaged, isPaged, h.limit, h.offset]

theorem selectDefect?_eq (h : q.SameOutline r) (p : Paging) : q.selectDefect? p = r.selectDefect? p := by
  have hnone : ∀ t : Option TableRef, t.isNone = !t.isSome := fun t => by cases t <;> rfl
  simp only [selectDefect?, hnone, h.action, h.table, h.limit, h.offset, h.aggregate, h.columns,
    h.wrapsAggregate_eq, h.branches, h.isPaged_eq, h.lock, h.assignments, h.returning]

theorem branchDefect?_eq (h : q.SameOutline r) : q.branchDefect? = r.branchDefect? := by
  simp only [branchDefect?, h.orders, h.isPaged_eq, h.lock]

theorem readClause?_eq (h : q.SameOutline r) : q.readClause? = r.readClause? := by
  have hhaving : q.having.isSome = r.having.isSome := by
    rw [← Option.isSome_map (f := Filter.isEmpty), h.having, Option.isSome_map]
  simp only [readClause?, h.columns, h.distinct, h.joins, h.branches, h.aggregate, h.groups, hhaving, h.orders,
    h.isPaged_eq, h.lock]

theorem refuseReadClauses_eq (h : q.SameOutline r) : q.refuseReadClauses = r.refuseReadClauses := by
  rw [refuseReadClauses, refuseReadClauses, h.readClause?_eq, h.action]

theorem insertDefect?_eq (h : q.SameOutline r) (table : String) : q.insertDefect? table = r.insertDefect? table := by
  simp only [insertDefect?, h.filter, h.assignments]

theorem givesBack_eq (h : q.SameOutline r) : q.givesBack = r.givesBack := by
  rw [givesBack, givesBack, h.returning]

theorem head_eq (h : q.SameOutline r) (p : Paging) (a : Option Aggregate) : q.head p a = r.head p a := by
  simp only [head, selection, h.limit, h.offset, h.distinct, h.columns]

theorem tail_eq (h : q.SameOutline r) (p : Paging) : q.tail p = r.tail p := by
  simp only [tail, h.orders, h.limit, h.offset, h.lock]

theorem assembled_eq (h : q.SameOutline r) {p : Paging} {table joins filter having branches : Fragment} :
    q.assembled p table joins filter having branches = r.assembled p table joins filter having branches := by
  simp only [assembled, layout, grouping, wrapped, h.aggregate, h.wrapsAggregate_eq, h.head_eq, h.tail_eq, h.groups,
    h.distinct]

end Query.SameOutline

end SqlQuery
