import SqlQuery.Compile.Select
import SqlQuery.Proofs.Outline

/-!
# Places for a subquery

A description with one place left open, where a query goes that the compiler writes in parentheses: a derived
table, joined or not, the right side of `in`, of `exists` or of a comparison, a bound of `between`, an item of a
list, a new value and the argument of a procedure.  The place may lie at any depth, also inside of the branches of
a union.  The conditions that a join does not take have no places, nor have the values bound by SQL of the
caller's own, and no place is a branch itself.

* `QueryContext` and its like — the descriptions with a place; `QueryContext.plug` — the query put there;
* `QueryContext.sameOutline` — the checks of the compiler do not see what was put there.
-/

namespace SqlQuery

mutual

/-- Where a query stands as a whole: the place itself, or a query around the place. -/
inductive Place where
  | hole
  | inside (c : QueryContext)

inductive ValueContext where
  | subquery (c : Place)
  | list (before : List Value) (c : ValueContext) (after : List Value)

inductive TableContext where
  | subquery (c : Place) (label : Option String)
  | procedure (name : String) (before : List Value) (c : ValueContext) (after : List Value)

/-- Only a join that takes a condition has places in it. -/
inductive JoinContext where
  | table (kind : JoinKind) (c : TableContext) (on : Option Filter)
  | on (kind : JoinKind) (table : TableRef) (c : FilterContext) (takes : kind.takesCondition = true)

inductive FilterContext where
  | and (before : List Filter) (c : FilterContext) (after : List Filter)
  | or (before : List Filter) (c : FilterContext) (after : List Filter)
  | not (c : FilterContext)
  | predicate (c : PredicateContext)

inductive PredicateContext where
  | compare (column op : String) (c : ValueContext) (negated : Bool)
  | isIn (column : String) (before : List Value) (c : ValueContext) (after : List Value) (negated : Bool)
  | inSelect (column : String) (c : Place) (negated : Bool)
  | datePart (column : String) (part : DatePart) (op : String) (c : ValueContext)
  | rowExists (c : Place) (negated : Bool)

/-- A query and the part of it with the place, which stands in for the one that `q` has. -/
inductive QueryContext where
  | table (q : Query) (c : TableContext)
  | join (q : Query) (before : List Join) (c : JoinContext) (after : List Join)
  | filter (q : Query) (c : FilterContext)
  | having (q : Query) (c : FilterContext)
  | branch (q : Query) (before : List Branch) (op : SetOp) (c : QueryContext) (after : List Branch)
  | assignment (q : Query) (before : List Assignment) (column : String) (c : ValueContext)
    (after : List Assignment)

end

mutual

def Place.plug (s : Query) : Place → Query
  | .hole => s
  | .inside c => c.plug s

def ValueContext.plug (s : Query) : ValueContext → Value
  | .subquery c => .subquery (c.plug s)
  | .list before c after => .list (before ++ c.plug s :: after)

def TableContext.plug (s : Query) : TableContext → TableRef
  | .subquery c label => .subquery (c.plug s) label
  | .procedure name before c after => .procedure name (before ++ c.plug s :: after)

def JoinContext.plug (s : Query) : JoinContext → Join
  | .table kind c on => ⟨kind, c.plug s, on⟩
  | .on kind table c _ => ⟨kind, table, some (c.plug s)⟩

def FilterContext.plug (s : Query) : FilterContext → Filter
  | .and before c after => .and (before ++ c.plug s :: after)
  | .or before c after => .or (before ++ c.plug s :: after)
  | .not c => .not (c.plug s)
  | .predicate c => .predicate (c.plug s)

def PredicateContext.plug (s : Query) : PredicateContext → Predicate
  | .compare column op c negated => .compare column op (c.plug s) negated
  | .isIn column before c after negated => .isIn column (before ++ c.plug s :: after) negated
  | .inSelect column c negated => .inSelect column (c.plug s) negated
  | .datePart column part op c => .datePart column part op (c.plug s)
  | .rowExists c negated => .rowExists (c.plug s) negated

/-- The query with `s` in the place. -/
def QueryContext.plug (s : Query) : QueryContext → Query
  | .table q c => { q with table := some (c.plug s) }
  | .join q before c after => { q with joins := before ++ c.plug s :: after }
  | .filter q c => { q with filter := some (c.plug s) }
  | .having q c => { q with having := some (c.plug s) }
  | .branch q before op c after => { q with branches := before ++ ⟨op, c.plug s⟩ :: after }
  | .assignment q before column c after => { q with assignments := before ++ ⟨column, c.plug s⟩ :: after }

end

/-! ### What the checks see -/

/-- A tree with a subquery asks for something. -/
theorem FilterContext.isEmpty_plug (s : Query) : ∀ c : FilterContext, (c.plug s).isEmpty = false
  | .and before c after | .or before c after => by
    rw [FilterContext.plug, Filter.isEmpty, Filter.allEmpty_eq_all, List.all_append, List.all_cons,
      FilterContext.isEmpty_plug s c, Bool.false_and, Bool.and_false]
  | .not c => FilterContext.isEmpty_plug s c
  | .predicate _ => rfl

theorem FilterContext.needsParens_plug (s t : Query) (c : FilterContext) :
    (c.plug s).needsParens = (c.plug t).needsParens := by
  cases c with
  | and before c after | or before c after =>
    simp only [FilterContext.plug, Filter.needsParens, List.filter_append, List.filter_cons,
      FilterContext.isEmpty_plug, List.length_append, Bool.not_false, if_true, List.length_cons]
  | not c => rfl
  | predicate c => rfl

theorem isEmpty_append_cons {α : Type} (before : List α) (a : α) (after : List α) :
    (before ++ a :: after).isEmpty = false := by
  cases before <;> rfl

theorem QueryContext.sameOutline (s t : Query) (c : QueryContext) : (c.plug s).SameOutline (c.plug t) := by
  cases c with
  | having q c => constructor <;> simp [QueryContext.plug, FilterContext.isEmpty_plug]
  | _ => constructor <;> simp [QueryContext.plug, isEmpty_append_cons]

end SqlQuery
