import SqlQuery.Query

/-!
# Filters

* `Filter.isEmpty` — a tree without conditions, which asks for nothing;
* `Filter.combine`, `Filter.push` — one more condition, folded into a group of the same kind;
* `Filter.negate` — the opposite of a condition;
* the constructors of single conditions, `Filter.compare` and the others.
-/

namespace SqlQuery

namespace Filter

mutual

/-- A group of empty trees, or the negation of one. -/
def isEmpty : Filter → Bool
  | and children => allEmpty children
  | or children => allEmpty children
  | not inner => inner.isEmpty
  | predicate _ => false
  | raw _ _ => false

/-- Whether every tree of a list is empty. -/
def allEmpty : List Filter → Bool
  | [] => true
  | f :: fs => f.isEmpty && allEmpty fs

end

theorem allEmpty_eq_all (fs : List Filter) : allEmpty fs = fs.all isEmpty := by
  induction fs with
  | nil => rfl
  | cons f fs ih => simp [allEmpty, ih]

/-- A group of several conditions, which needs parentheses inside another group. -/
def needsParens : Filter → Bool
  | and children | or children => 1 < (children.filter (!·.isEmpty)).length
  | _ => false

/-! ### Building -/

/-- The tree and the next one under a connective; a group of that kind takes it as its last child. -/
def combine (f : Filter) (c : Connective) (next : Filter) : Filter :=
  match c, f with
  | .and, and children => and (children ++ [next])
  | .or, or children => or (children ++ [next])
  | .and, f => and [f, next]
  | .or, f => or [f, next]

/-- The next tree put to an optional one. -/
def push (f : Option Filter) (c : Connective) (next : Filter) : Option Filter :=
  match f with
  | none => some next
  | some f => some (f.combine c next)

/-- The opposite condition: a comparison turns over, a negation is undone, all else is negated. -/
def negate : Filter → Filter
  | predicate (.compare column op value negated) => predicate (.compare column op value (!negated))
  | not inner => inner
  | f => not f

/-- The comparison `column op value`. -/
def compare (column op : String) (value : Value) : Filter :=
  predicate (.compare column op value false)

/-- The comparison `column = value`. -/
def eq (column : String) (value : Value) : Filter :=
  compare column "=" value

/-- The comparison `left op right` of two columns. -/
def columns (left op right : String) : Filter :=
  compare left op (.column right)

/-- The condition `column between low and high`. -/
def between (column : String) (low high : Value) : Filter :=
  compare column "between" (.list [low, high])

/-- The column is one of the values. -/
def isIn (column : String) (values : List Value) : Filter :=
  predicate (.isIn column values false)

/-- The column is none of the values. -/
def notIn (column : String) (values : List Value) : Filter :=
  predicate (.isIn column values true)

/-- The column is one of the rows of a query. -/
def inSelect (column : String) (query : Query) : Filter :=
  predicate (.inSelect column query false)

def isNull (column : String) : Filter :=
  predicate (.isNull column false)

def isNotNull (column : String) : Filter :=
  predicate (.isNull column true)

/-- A part of a timestamp column, compared. -/
def datePart (column : String) (part : DatePart) (op : String) (value : Value) : Filter :=
  predicate (.datePart column part op value)

/-- The query has a row. -/
def rowExists (query : Query) : Filter :=
  predicate (.rowExists query false)

/-- The query has no row. -/
def noRowExists (query : Query) : Filter :=
  predicate (.rowExists query true)

end Filter

end SqlQuery
