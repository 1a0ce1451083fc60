import SqlQuery.Text.Blank
import SqlQuery.Text.Case

/-!
# Comparison operators

* `Operator` — the 27 operators of the dialect, `Operator.symbol` their canonical spelling;
* `Operator.ofText?` — reads a spelling, where letter case does not matter and any blanks may stand
  between and around the words;
* `Operator.negated?` — the operator for the opposite, for those that have a spelling with `not`.
-/

namespace SqlQuery

open SqlQuery.Text

/-- The comparison operators. The negations of `<` and `>` have three spellings each, inequality has
four. -/
inductive Operator where
  | eq | lt | gt | le | ge
  | ne | bangEq
  | bangLt | bangGt | tildeLt | tildeGt | caretLt | caretGt
  | tildeEq | caretEq
  | like | notLike
  | between | notBetween
  | containing | notContaining
  | startingWith | notStartingWith
  | similarTo | notSimilarTo
  | isDistinctFrom | isNotDistinctFrom
deriving DecidableEq

namespace Operator

def all : List Operator :=
  [eq, lt, gt, le, ge, ne, bangEq, bangLt, bangGt, tildeLt, tildeGt, caretLt, caretGt, tildeEq, caretEq,
    like, notLike, between, notBetween, containing, notContaining, startingWith, notStartingWith,
    similarTo, notSimilarTo, isDistinctFrom, isNotDistinctFrom]

/-- The canonical spelling. -/
def symbol : Operator → String
  | eq => "="
  | lt => "<"
  | gt => ">"
  | le => "<="
  | ge => ">="
  | ne => "<>"
  | bangEq => "!="
  | bangLt => "!<"
  | bangGt => "!>"
  | tildeLt => "~<"
  | tildeGt => "~>"
  | caretLt => "^<"
  | caretGt => "^>"
  | tildeEq => "~="
  | caretEq => "^="
  | like => "like"
  | notLike => "not like"
  | between => "between"
  | notBetween => "not between"
  | containing => "containing"
  | notContaining => "not containing"
  | startingWith => "starting with"
  | notStartingWith => "not starting with"
  | similarTo => "similar to"
  | notSimilarTo => "not similar to"
  | isDistinctFrom => "is distinct from"
  | isNotDistinctFrom => "is not distinct from"

/-- The words of a spelling in lower case, one space between them. -/
def normalized (text : String) : List Char :=
  lowerAll ([' '].intercalate (words text.toList))

/-- The operator with this spelling, up to letter case and blanks. -/
def ofText? (text : String) : Option Operator :=
  all.find? fun op => op.symbol.toList == normalized text

/-- The operator for the opposite, where there is one spelled with `not`. -/
def negated? : Operator → Option Operator
  | like => some notLike
  | notLike => some like
  | between => some notBetween
  | notBetween => some between
  | containing => some notContaining
  | notContaining => some containing
  | startingWith => some notStartingWith
  | notStartingWith => some startingWith
  | similarTo => some notSimilarTo
  | notSimilarTo => some similarTo
  | isDistinctFrom => some isNotDistinctFrom
  | isNotDistinctFrom => some isDistinctFrom
  | _ => none

/-- The operators that take two bounds. -/
def isRange : Operator → Bool
  | between | notBetween => true
  | _ => false

/-- The operators that compare null like any other value. -/
def isDistinctness : Operator → Bool
  | isDistinctFrom | isNotDistinctFrom => true
  | _ => false

theorem mem_all (op : Operator) : op ∈ all := by
  cases op <;> decide

/-- Negation is an involution where it is defined. -/
theorem negated?_negated? {op op' : Operator} (h : op.negated? = some op') :
    op'.negated? = some op := by
  cases op <;> simp [negated?] at h <;> subst h <;> rfl

theorem isRange_of_negated? {op op' : Operator} (h : op.negated? = some op') :
    op'.isRange = op.isRange := by
  cases op <;> simp [negated?] at h <;> subst h <;> rfl

theorem ofText?_congr {s t : String} (h : normalized s = normalized t) : ofText? s = ofText? t := by
  simp only [ofText?, h]

end Operator

end SqlQuery
