import SqlQuery.Compile.Clause
import SqlQuery.Compile.Condition

/-!
# Selects

The compiler of selects and of everything that can stand inside one: values, tables, joins,
conditions and branches. It is one recursion on the description, so a query inside a query is
compiled as it is alone, and every fragment brings its own parameters.

* `Value.fragment` — a value on the right of an operator: bound, written out, or a query;
* `TableRef.fragment`, `Join.fragment` — what a select reads from;
* `Filter.fragment`, `Predicate.fragment` — conditions;
* `Query.select` — a select, after the checks of `Query.selectDefect?`.
-/

namespace SqlQuery

open SqlQuery.Fragment SqlQuery.Text

/-- A procedure called with compiled arguments. -/
def procedureCall (procedure : String) (args : List Fragment) : Fragment :=
  name procedure ++ word " " ++ parenthesized (joined ", " args)

/-- Refuses a name of blanks. -/
def refuseBlank (name : String) (d : Defect) : Except Error Unit :=
  Defect.refuse (if isBlankText name then some d else none)

/-- A join of a compiled table under a compiled condition. Only the joins that take a condition look
at it. -/
def JoinKind.fragment (kind : JoinKind) (table on : Fragment) : Fragment :=
  if kind.isLateral then word (kind.keyword ++ " join lateral ") ++ table ++ word " on true"
  else if kind = .cross then word "cross join " ++ table
  else word (kind.keyword ++ " join ") ++ table ++ word " on " ++ on

/-- Whether a join takes a condition. -/
def JoinKind.takesCondition (kind : JoinKind) : Bool :=
  !kind.isLateral && kind != .cross

mutual

/-- A value on the right of an operator, scalars cut down to a part where one is compared. -/
def Value.fragment (p : Paging) (part : Option DatePart) : Value → Except Error Fragment
  | .raw sql => .ok [.verbatim sql []]
  | .column c => .ok (name c)
  | .subquery q => do return parenthesized (← q.select p)
  | .list _ => .error (.malformedQuery .strayList)
  | v => .ok [.bound (v.narrowTo part)]

/-- The members of a list of two. -/
def Value.bounds? (p : Paging) (part : Option DatePart) :
    Value → Option (Except Error (Fragment × Fragment))
  | .list [low, high] => some do return (← low.fragment p part, ← high.fragment p part)
  | _ => none

/-- Several values. -/
def Value.fragments (p : Paging) : List Value → Except Error (List Fragment)
  | [] => .ok []
  | v :: vs => do return (← v.fragment p none) :: (← Value.fragments p vs)

/-- A table to select from. -/
def TableRef.fragment (p : Paging) : TableRef → Except Error Fragment
  | .named n => do
    refuseBlank n .emptyTableName
    return name n
  | .raw sql bindings => .ok [.verbatim sql bindings]
  | .subquery q label => do
    let inner := parenthesized (← q.select p)
    return match label with
      | some label => inner ++ word " as " ++ part label
      | none => inner
  | .procedure n args => do
    refuseBlank n .emptyProcedureName
    return procedureCall n (← Value.fragments p args)

/-- The table of a select; its absence is a defect that has been refused before. -/
def TableRef.optional (p : Paging) : Option TableRef → Except Error Fragment
  | none => .ok []
  | some t => t.fragment p

/-- A joined table. -/
def Join.fragment (p : Paging) : Join → Except Error Fragment
  | ⟨kind, table, on⟩ => do
    let table ← table.fragment p
    let on ← if kind.takesCondition then Filter.optional p on else .ok []
    if kind.takesCondition && on.isBlank then
      .error (.malformedQuery (.joinWithoutCondition kind (Fragment.text table)))
    else return kind.fragment table on

/-- The joins of a select, a space before each. -/
def Join.fragments (p : Paging) : List Join → Except Error Fragment
  | [] => .ok []
  | j :: js => do return word " " ++ (← j.fragment p) ++ (← Join.fragments p js)

/-- A tree of conditions; empty where the tree asks for nothing. -/
def Filter.fragment (p : Paging) : Filter → Except Error Fragment
  | .and children => do return joined " and " (← Filter.group p children)
  | .or children => do return joined " or " (← Filter.group p children)
  | .not inner => do return negation (← inner.fragment p)
  | .predicate c => c.fragment p
  | .raw sql bindings => .ok [.verbatim sql bindings]

/-- The conditions of a group: empty trees are left out, groups of several conditions go into
parentheses. -/
def Filter.group (p : Paging) : List Filter → Except Error (List Fragment)
  | [] => .ok []
  | f :: fs => do
    if f.isEmpty then Filter.group p fs
    else
      let condition ← f.fragment p
      let rest ← Filter.group p fs
      return (if f.needsParens then parenthesized condition else condition) :: rest

/-- An optional tree; none asks for nothing. -/
def Filter.optional (p : Paging) : Option Filter → Except Error Fragment
  | none => .ok []
  | some f => f.fragment p

/-- A single condition. -/
def Predicate.fragment (p : Paging) : Predicate → Except Error Fragment
  | .compare column op value negated => do
    let (op, around) := (← Operator.resolve op).oriented negated
    let condition ← comparison (name column) op value (value.fragment p none) (value.bounds? p none)
    return if around then word "not " ++ parenthesized condition else condition
  | .isIn column values negated => do
    return membership column negated (← Value.fragments p values)
  | .inSelect column q negated => do
    return name column ++ word " " ++ notWord negated ++ word "in " ++ parenthesized (← q.select p)
  | .isNull column negated => .ok (name column ++ word " is " ++ notWord negated ++ word "null")
  | .datePart column part op value => do
    let op ← Operator.resolve op
    comparison (part.ofColumn column) op value (value.fragment p (some part))
      (value.bounds? p (some part))
  | .rowExists q negated => do
    return notWord negated ++ word "exists " ++ parenthesized (← q.select p)

/-- The selects added by set operations, each after its keyword. -/
def Branch.fragments (p : Paging) : List Branch → Except Error Fragment
  | [] => .ok []
  | ⟨op, q⟩ :: bs => do
    Defect.refuse q.branchDefect?
    let branch ← q.select p
    return word (" " ++ op.keyword ++ " ") ++ branch ++ (← Branch.fragments p bs)

/-- A select, put together from its compiled parts. -/
def Query.select (p : Paging) : Query → Except Error Fragment
  | q@⟨_, table, _, _, joins, filter, _, having, _, _, _, _, branches, _, _, _⟩ => do
    Defect.refuse (q.selectDefect? p)
    let table ← TableRef.optional p table
    let joins ← Join.fragments p joins
    let filter ← Filter.optional p filter
    let having ← Filter.optional p having
    let branches ← Branch.fragments p branches
    return q.assembled p table joins filter having branches

end

end SqlQuery
