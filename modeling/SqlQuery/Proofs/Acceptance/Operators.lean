import SqlQuery.Proofs.Acceptance.Statement

/-!
# Operators of accepted descriptions

Operators are kept as the caller wrote them.  Those that a select reads, in conditions at any depth and in the queries
inside them, have to be spellings of the dialect; a join that takes no condition does not read one.

* `Value.operators` … `Query.operators` — the operators that are read, as they are written;
* `Filter.knownOperators` and its like — **accepted parts have known operators only**;
* `Query.compile_error_of_unknownOperator` — one unknown operator is enough for a select to fail.
-/

namespace SqlQuery

mutual

/-- The operators in a value, which are those of the queries in it. -/
def Value.operators : Value → List String
  | .list vs => Value.allOperators vs
  | .subquery q => q.operators
  | _ => []

def Value.allOperators : List Value → List String
  | [] => []
  | v :: vs => v.operators ++ Value.allOperators vs

/-- The operators in a table. -/
def TableRef.operators : TableRef → List String
  | .subquery q _ => q.operators
  | .procedure _ args => Value.allOperators args
  | _ => []

def TableRef.optOperators : Option TableRef → List String
  | none => []
  | some t => t.operators

/-- The operators in joined tables and in the conditions of the joins that take one. -/
def Join.allOperators : List Join → List String
  | [] => []
  | ⟨kind, table, on⟩ :: js =>
    table.operators ++ (if kind.takesCondition then Filter.optOperators on else []) ++ Join.allOperators js

/-- The operators in a tree of conditions. -/
def Filter.operators : Filter → List String
  | .and children => Filter.allOperators children
  | .or children => Filter.allOperators children
  | .not inner => inner.operators
  | .predicate c => c.operators
  | .raw _ _ => []

def Filter.allOperators : List Filter → List String
  | [] => []
  | f :: fs => f.operators ++ Filter.allOperators fs

def Filter.optOperators : Option Filter → List String
  | none => []
  | some f => f.operators

/-- The operator of a condition and those in its operands. -/
def Predicate.operators : Predicate → List String
  | .compare _ op v _ => op :: v.operators
  | .isIn _ vs _ => Value.allOperators vs
  | .inSelect _ q _ => q.operators
  | .isNull _ _ => []
  | .datePart _ _ op v => op :: v.operators
  | .rowExists q _ => q.operators

def Branch.allOperators : List Branch → List String
  | [] => []
  | ⟨_, q⟩ :: bs => q.operators ++ Branch.allOperators bs

/-- The operators in a select. -/
def Query.operators : Query → List String
  | ⟨_, table, _, _, joins, filter, _, having, _, _, _, _, branches, _, _, _⟩ =>
    TableRef.optOperators table ++ Join.allOperators joins ++ Filter.optOperators filter ++
      Filter.optOperators having ++ Branch.allOperators branches

end

theorem Query.operators_eq (q : Query) : q.operators = TableRef.optOperators q.table ++ Join.allOperators q.joins ++
    Filter.optOperators q.filter ++ Filter.optOperators q.having ++ Branch.allOperators q.branches := by
  cases q
  rfl

theorem Join.mem_allOperators {kind : JoinKind} (hk : kind.takesCondition = true) (t : TableRef) {c : Filter} {op : String}
    (hop : op ∈ c.operators) (before after : List Join) :
    op ∈ Join.allOperators (before ++ ⟨kind, t, some c⟩ :: after) := by
  induction before with
  | nil => simp [Join.allOperators, hk, Filter.optOperators, hop]
  | cons j js ih =>
    cases j
    exact List.mem_append_right _ ih

/-- Spellings of operators of the dialect. -/
def Operator.AllKnown (ops : List String) : Prop :=
  ∀ op ∈ ops, ∃ o, Operator.ofText? op = some o

namespace Operator

variable {op : String} {ops ops' : List String}

theorem allKnown_nil : AllKnown [] := nofun

theorem AllKnown.cons (h : ∃ o, ofText? op = some o) (hs : AllKnown ops) : AllKnown (op :: ops) :=
  List.forall_mem_cons.2 ⟨h, hs⟩

theorem AllKnown.append (h : AllKnown ops) (h' : AllKnown ops') : AllKnown (ops ++ ops') :=
  List.forall_mem_append.2 ⟨h, h'⟩

end Operator

/-! ### The recursion -/

open Operator (allKnown_nil AllKnown)

variable {p : Paging}

/-- The operands that one of the two kinds of operators takes have known operators. -/
theorem Operator.AllKnown.operand {o : Operator} {ops : List String} {both one : Prop} (hboth : both → AllKnown ops)
    (hone : one → AllKnown ops) (h : (o.isRange = true → both) ∧ (o.isRange = false → one)) : AllKnown ops := by
  cases hr : o.isRange with
  | true => exact hboth (h.1 hr)
  | false => exact hone (h.2 hr)

mutual

theorem Value.knownOperators : ∀ v : Value, v.Accepted p → AllKnown v.operators
  | .list _, h => h.elim
  | .subquery q, h => Query.knownOperators q h
  | .null, _ | .bool _, _ | .int _, _ | .float _, _ | .string _, _ | .date _, _ | .time _, _ | .timestamp _, _
  | .raw _, _ | .column _, _ => allKnown_nil

theorem Value.knownOperators_bounds : ∀ v : Value, v.BothAccepted p → AllKnown v.operators
  | .list [low, high], h =>
    .append (Value.knownOperators low h.1) (.append (Value.knownOperators high h.2) allKnown_nil)
  | .list [], h | .list [_], h | .list (_ :: _ :: _ :: _), h | .null, h | .bool _, h | .int _, h | .float _, h
  | .string _, h | .date _, h | .time _, h | .timestamp _, h | .raw _, h | .column _, h | .subquery _, h => h.elim

theorem Value.knownOperators_all : ∀ vs : List Value, Value.AllAccepted p vs → AllKnown (Value.allOperators vs)
  | [], _ => allKnown_nil
  | v :: vs, h => .append (Value.knownOperators v h.1) (Value.knownOperators_all vs h.2)

theorem TableRef.knownOperators : ∀ t : TableRef, t.Accepted p → AllKnown t.operators
  | .named _, _ | .raw _ _, _ => allKnown_nil
  | .subquery q _, h => Query.knownOperators q h
  | .procedure _ args, h => Value.knownOperators_all args h.2

theorem TableRef.knownOperators_opt : ∀ t : Option TableRef, TableRef.OptAccepted p t →
    AllKnown (TableRef.optOperators t)
  | none, _ => allKnown_nil
  | some t, h => TableRef.knownOperators t h

theorem Join.knownOperators : ∀ js : List Join, Join.AllAccepted p js → AllKnown (Join.allOperators js)
  | [], _ => allKnown_nil
  | ⟨kind, table, on⟩ :: js, h => by
    refine .append (.append (TableRef.knownOperators table h.1) ?_) (Join.knownOperators js h.2.2)
    split
    · next hk => exact Filter.knownOperators_opt on (h.2.1 hk).1
    · exact allKnown_nil

theorem Filter.knownOperators : ∀ c : Filter, c.Accepted p → AllKnown c.operators
  | .and cs, h | .or cs, h => Filter.knownOperators_all cs h
  | .not c, h => Filter.knownOperators c h
  | .predicate c, h => Predicate.knownOperators c h
  | .raw _ _, _ => allKnown_nil

theorem Filter.knownOperators_all : ∀ cs : List Filter, Filter.AllAccepted p cs → AllKnown (Filter.allOperators cs)
  | [], _ => allKnown_nil
  | c :: cs, h => .append (Filter.knownOperators c h.1) (Filter.knownOperators_all cs h.2)

theorem Filter.knownOperators_opt : ∀ c : Option Filter, Filter.OptAccepted p c → AllKnown (Filter.optOperators c)
  | none, _ => allKnown_nil
  | some c, h => Filter.knownOperators c h

theorem Predicate.knownOperators : ∀ c : Predicate, c.Accepted p → AllKnown c.operators
  | .compare _ _ v _, ⟨o, ho, h⟩ | .datePart _ _ _ v, ⟨o, ho, h⟩ =>
    .cons ⟨o, ho⟩ (.operand (Value.knownOperators_bounds v) (Value.knownOperators v) h)
  | .isIn _ vs _, h => Value.knownOperators_all vs h
  | .inSelect _ q _, h | .rowExists q _, h => Query.knownOperators q h
  | .isNull _ _, _ => allKnown_nil

theorem Branch.knownOperators : ∀ bs : List Branch, Branch.AllAccepted p bs → AllKnown (Branch.allOperators bs)
  | [], _ => allKnown_nil
  | ⟨_, q⟩ :: bs, h => .append (Query.knownOperators q h.2.1) (Branch.knownOperators bs h.2.2)

theorem Query.knownOperators : ∀ q : Query, q.Selectable p → AllKnown q.operators
  | ⟨_, table, _, _, joins, filter, _, having, _, _, _, _, branches, _, _, _⟩,
    ⟨_, ht, _, _, _, _, _, _, hj, hw, hv, hb⟩ =>
    .append (.append (.append (.append (TableRef.knownOperators_opt table ht) (Join.knownOperators joins hj))
      (Filter.knownOperators_opt filter hw)) (Filter.knownOperators_opt having hv)) (Branch.knownOperators branches hb)

end

/-- A select that reads an unknown operator does not compile. -/
theorem Query.compile_error_of_unknownOperator {q : Query} (hq : q.action = .select) {op : String}
    (hop : op ∈ q.operators) (hunknown : Operator.ofText? op = none) : ∃ e, q.compile p = .error e := by
  have hfragment : q.fragment p = q.select p := by rw [Query.fragment, hq]
  cases hs : q.select p with
  | error e => exact ⟨e, Query.compile_eq_error.2 (hfragment.trans hs)⟩
  | ok f =>
    obtain ⟨o, ho⟩ := Query.knownOperators q ((Query.select_ok_iff q).1 ⟨f, hs⟩) op hop
    exact absurd (hunknown.symm.trans ho) (Option.some_ne_none o).symm

end SqlQuery
