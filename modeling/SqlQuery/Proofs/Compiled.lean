import SqlQuery.Compile

/-!
# What a compiled statement is made of

One inversion lemma for each function of the compiler: it succeeds exactly when its parts do, and then
its fragment is put together from theirs.  The proofs about compiled statements start from these lemmas and
never open the compiler.

* `bind_eq_ok`, `refuse_eq_ok` — success of a sequence and of a check;
* `Query.selectDefect?_eq_none` — what a select without defects is;
* `comparison_eq_ok` — the three ways in which a comparison succeeds;
* `Value.fragments_eq_ok` … `Query.select_eq_ok` — the functions of the recursion;
* `Query.insertFragment_eq_ok` and the two others — the writes.
-/

namespace SqlQuery

open SqlQuery.Fragment

/-! ### Sequences and checks -/

section Sequences

variable {ε α β : Type}

theorem bind_eq_ok {x : Except ε α} {f : α → Except ε β} {b : β} :
    (x >>= f) = .ok b ↔ ∃ a, x = .ok a ∧ f a = .ok b := by
  cases x with
  | error e =>
    refine ⟨fun h => ?_, ?_⟩
    · exact nomatch h
    · rintro ⟨a, ha, _⟩
      exact nomatch ha
  | ok a =>
    refine ⟨fun h => ⟨a, rfl, h⟩, ?_⟩
    rintro ⟨a', ha, h⟩
    cases ha
    exact h

theorem pure_eq_ok {a b : α} : (pure a : Except ε α) = .ok b ↔ a = b :=
  ⟨fun h => by cases h; rfl, fun h => by subst h; rfl⟩

end Sequences

theorem refuse_eq_ok {d : Option Defect} {u : Unit} : Defect.refuse d = .ok u ↔ d = none := by
  cases d <;> simp [Defect.refuse]

theorem refuseBlank_eq_ok {n : String} {d : Defect} {u : Unit} :
    refuseBlank n d = .ok u ↔ Text.isBlankText n = false := by
  rw [refuseBlank, refuse_eq_ok]
  cases Text.isBlankText n <;> simp

theorem check_eq_none {α : Type} {c : Prop} [Decidable c] {d : α} {rest : Option α} :
    (if c then some d else rest) = none ↔ ¬ c ∧ rest = none := by
  by_cases h : c <;> simp [h]

theorem filter_negative_eq_none {x : Option Int} : x.filter (· < 0) = none ↔ ∀ n ∈ x, 0 ≤ n := by
  cases x with
  | none => simp
  | some n => simp [Option.filter_some]

theorem Query.isPaged_eq_false {q : Query} : q.isPaged = false ↔ q.limit = none ∧ q.offset = none := by
  unfold Query.isPaged
  cases q.limit <;> cases q.offset <;> simp

/-- What the checks of a select ask for. -/
theorem Query.selectDefect?_eq_none {p : Paging} {q : Query} :
    q.selectDefect? p = none ↔ q.action = .select ∧ q.table.isSome = true ∧ (∀ n ∈ q.limit, 0 ≤ n) ∧
      (∀ n ∈ q.offset, 0 ≤ n) ∧
      (q.aggregate.isSome = true → q.columns.isEmpty = true ∨ q.wrapsAggregate = true) ∧
      (q.branches.isEmpty = false → q.lock.isSome = false ∧ (p.isLegacy = true → q.isPaged = false)) ∧
      q.assignments.isEmpty = true ∧ q.returning.isEmpty = true := by
  have htable : q.table.isNone = !q.table.isSome := by cases q.table <;> rfl
  rw [← filter_negative_eq_none, ← filter_negative_eq_none]
  unfold Query.selectDefect?
  -- a negative number stops both sides
  cases q.limit.filter (· < 0) with
  | some n => simp only [check_eq_none]; simp
  | none =>
    cases q.offset.filter (· < 0) with
    | some n => simp only [check_eq_none]; simp
    | none =>
      simp only [check_eq_none, htable]
      grind

theorem Query.branchDefect?_eq_none {q : Query} :
    q.branchDefect? = none ↔ q.orders.isEmpty = true ∧ q.isPaged = false ∧ q.lock.isSome = false := by
  rw [Query.branchDefect?, check_eq_none]
  grind

/-! ### Comparisons -/

/-- A comparison has two bounds, or it is one with null, or it has one operand. -/
theorem comparison_eq_ok {lhs f : Fragment} {op : Operator} {v : Value} {operand : Except Error Fragment}
    {bounds : Option (Except Error (Fragment × Fragment))} :
      comparison lhs op v operand bounds = .ok f ↔
      (op.isRange = true ∧ ∃ low high, bounds = some (.ok (low, high)) ∧
        lhs ++ op.spacedSymbol ++ low ++ word " and " ++ high = f) ∨
      (op.isRange = false ∧ v = .null ∧ compareNull lhs op = f) ∨
      (op.isRange = false ∧ v ≠ .null ∧ (∀ vs, v ≠ .list vs) ∧ ∃ rhs, operand = .ok rhs ∧
        lhs ++ op.spacedSymbol ++ rhs = f) := by
  unfold comparison
  cases hop : op.isRange with
  | true =>
    simp only [if_true, true_and, Bool.true_eq_false, false_and, or_false]
    rcases bounds with _ | _ | ⟨low, high⟩
    · simp
    · simp only [bind_eq_ok]
      simp
    · simp only [bind_eq_ok, pure_eq_ok, Except.ok.injEq, Option.some.injEq, Prod.mk.injEq]
      grind
  | false =>
    simp only [Bool.false_eq_true, if_false, false_and, true_and, false_or]
    cases v with
    | null => simp
    | list vs => simp
    | _ => simp only [bind_eq_ok, pure_eq_ok, reduceCtorEq, false_and, false_or, ne_eq,
        not_false_eq_true, implies_true, true_and]

theorem Value.bounds?_eq_some_ok {p : Paging} {part : Option DatePart} {v : Value} {low high : Fragment} :
    v.bounds? p part = some (.ok (low, high)) ↔
      ∃ l h, v = .list [l, h] ∧ l.fragment p part = .ok low ∧ h.fragment p part = .ok high := by
  constructor
  · intro h
    unfold Value.bounds? at h
    split at h
    · rename_i l h'
      obtain ⟨a, ha, h⟩ := bind_eq_ok.1 (Option.some.inj h)
      obtain ⟨b, hb, h⟩ := bind_eq_ok.1 h
      obtain ⟨rfl, rfl⟩ := Prod.mk.inj (pure_eq_ok.1 h)
      exact ⟨l, h', rfl, ha, hb⟩
    · exact nomatch h
  · rintro ⟨l, h, rfl, hl, hh⟩
    simp only [Value.bounds?, hl, hh]
    rfl

theorem Operator.resolve_eq_ok {text : String} {op : Operator} :
    Operator.resolve text = .ok op ↔ Operator.ofText? text = some op := by
  unfold Operator.resolve
  cases Operator.ofText? text <;> simp

/-! ### The recursion -/

section Recursion

variable {p : Paging} {f : Fragment}

theorem Value.fragment_subquery_eq_ok {part : Option DatePart} {q : Query} :
    (Value.subquery q).fragment p part = .ok f ↔
      ∃ inner, q.select p = .ok inner ∧ parenthesized inner = f := by
  simp only [Value.fragment, bind_eq_ok, pure_eq_ok]

theorem Value.fragments_cons_eq_ok {v : Value} {vs : List Value} {fs : List Fragment} :
    Value.fragments p (v :: vs) = .ok fs ↔
      ∃ g gs, v.fragment p none = .ok g ∧ Value.fragments p vs = .ok gs ∧ g :: gs = fs := by
  simp only [Value.fragments, bind_eq_ok, pure_eq_ok]
  grind

theorem TableRef.fragment_named_eq_ok {n : String} :
    (TableRef.named n).fragment p = .ok f ↔ Text.isBlankText n = false ∧ name n = f := by
  simp only [TableRef.fragment, bind_eq_ok, pure_eq_ok, refuseBlank_eq_ok]
  grind

/-- The label of a derived table. -/
def labelled (f : Fragment) : Option String → Fragment
  | some label => f ++ word " as " ++ part label
  | none => f

theorem TableRef.fragment_subquery_eq_ok {q : Query} {label : Option String} :
    (TableRef.subquery q label).fragment p = .ok f ↔
      ∃ inner, q.select p = .ok inner ∧ labelled (parenthesized inner) label = f := by
  simp only [TableRef.fragment, bind_eq_ok, pure_eq_ok]
  cases label <;> rfl

theorem TableRef.fragment_procedure_eq_ok {n : String} {args : List Value} :
    (TableRef.procedure n args).fragment p = .ok f ↔ Text.isBlankText n = false ∧
      ∃ gs, Value.fragments p args = .ok gs ∧ procedureCall n gs = f := by
  simp only [TableRef.fragment, bind_eq_ok, pure_eq_ok, refuseBlank_eq_ok]
  grind

/-- A join that takes a condition needs one with text; the other joins do not look at theirs. -/
theorem Join.fragment_eq_ok {kind : JoinKind} {t : TableRef} {on : Option Filter} :
    Join.fragment p ⟨kind, t, on⟩ = .ok f ↔ ∃ table, t.fragment p = .ok table ∧
      ((kind.takesCondition = false ∧ kind.fragment table [] = f) ∨
        (kind.takesCondition = true ∧ ∃ condition, Filter.optional p on = .ok condition ∧
          condition.isBlank = false ∧ kind.fragment table condition = f)) := by
  rw [Join.fragment, bind_eq_ok]
  refine exists_congr fun table => and_congr_right fun _ => ?_
  cases kind.takesCondition with
  | false =>
    simp only [Bool.false_eq_true, if_false, Bool.false_and, false_and, or_false, true_and]
    exact pure_eq_ok
  | true =>
    simp only [if_true, Bool.true_and, Bool.true_eq_false, false_and, true_and, false_or]
    rw [bind_eq_ok]
    refine exists_congr fun condition => and_congr_right fun _ => ?_
    cases condition.isBlank <;> simp [pure_eq_ok]

theorem Join.fragments_cons_eq_ok {j : Join} {js : List Join} :
    Join.fragments p (j :: js) = .ok f ↔
      ∃ g gs, j.fragment p = .ok g ∧ Join.fragments p js = .ok gs ∧ word " " ++ g ++ gs = f := by
  simp only [Join.fragments, bind_eq_ok, pure_eq_ok]
  grind

theorem Filter.fragment_and_eq_ok {fs : List Filter} :
    (Filter.and fs).fragment p = .ok f ↔ ∃ gs, Filter.group p fs = .ok gs ∧ joined " and " gs = f := by
  simp only [Filter.fragment, bind_eq_ok, pure_eq_ok]

theorem Filter.fragment_or_eq_ok {fs : List Filter} :
    (Filter.or fs).fragment p = .ok f ↔ ∃ gs, Filter.group p fs = .ok gs ∧ joined " or " gs = f := by
  simp only [Filter.fragment, bind_eq_ok, pure_eq_ok]

theorem Filter.fragment_not_eq_ok {inner : Filter} :
    (Filter.not inner).fragment p = .ok f ↔ ∃ g, inner.fragment p = .ok g ∧ negation g = f := by
  simp only [Filter.fragment, bind_eq_ok, pure_eq_ok]

/-- A condition of a group, in parentheses where it is a group of several itself. -/
def Filter.grouped (c : Filter) (f : Fragment) : Fragment :=
  if c.needsParens then parenthesized f else f

theorem Filter.group_cons_of_isEmpty {c : Filter} {cs : List Filter} (h : c.isEmpty = true) :
    Filter.group p (c :: cs) = Filter.group p cs := by
  simp [Filter.group, h]

theorem Filter.group_cons_eq_ok {c : Filter} {cs : List Filter} {fs : List Fragment}
    (h : c.isEmpty = false) :
    Filter.group p (c :: cs) = .ok fs ↔ ∃ g gs, c.fragment p = .ok g ∧ Filter.group p cs = .ok gs ∧
      c.grouped g :: gs = fs := by
  simp only [Filter.group, h, Bool.false_eq_true, if_false, bind_eq_ok, pure_eq_ok, Filter.grouped]
  grind

/-- A comparison in its direction, with `not` around it where the operator has no opposite. -/
def negatedComparison (around : Bool) (f : Fragment) : Fragment :=
  if around then word "not " ++ parenthesized f else f

theorem Predicate.fragment_compare_eq_ok {c op : String} {v : Value} {negated : Bool} :
    (Predicate.compare c op v negated).fragment p = .ok f ↔ ∃ o, Operator.ofText? op = some o ∧
      ∃ g, comparison (name c) (o.oriented negated).1 v (v.fragment p none) (v.bounds? p none) = .ok g ∧
        negatedComparison (o.oriented negated).2 g = f := by
  simp only [Predicate.fragment, bind_eq_ok, pure_eq_ok, Operator.resolve_eq_ok, negatedComparison]

theorem Predicate.fragment_isIn_eq_ok {c : String} {vs : List Value} {negated : Bool} :
    (Predicate.isIn c vs negated).fragment p = .ok f ↔
      ∃ gs, Value.fragments p vs = .ok gs ∧ membership c negated gs = f := by
  simp only [Predicate.fragment, bind_eq_ok, pure_eq_ok]

theorem Predicate.fragment_inSelect_eq_ok {c : String} {q : Query} {negated : Bool} :
    (Predicate.inSelect c q negated).fragment p = .ok f ↔ ∃ inner, q.select p = .ok inner ∧
      name c ++ word " " ++ notWord negated ++ word "in " ++ parenthesized inner = f := by
  simp only [Predicate.fragment, bind_eq_ok, pure_eq_ok]

theorem Predicate.fragment_datePart_eq_ok {c op : String} {part : DatePart} {v : Value} :
    (Predicate.datePart c part op v).fragment p = .ok f ↔ ∃ o, Operator.ofText? op = some o ∧
      comparison (part.ofColumn c) o v (v.fragment p (some part)) (v.bounds? p (some part)) = .ok f := by
  simp only [Predicate.fragment, bind_eq_ok, Operator.resolve_eq_ok]

theorem Predicate.fragment_rowExists_eq_ok {q : Query} {negated : Bool} :
    (Predicate.rowExists q negated).fragment p = .ok f ↔ ∃ inner, q.select p = .ok inner ∧
      notWord negated ++ word "exists " ++ parenthesized inner = f := by
  simp only [Predicate.fragment, bind_eq_ok, pure_eq_ok]

theorem Branch.fragments_cons_eq_ok {op : SetOp} {q : Query} {bs : List Branch} :
    Branch.fragments p (⟨op, q⟩ :: bs) = .ok f ↔ q.branchDefect? = none ∧
      ∃ g gs, q.select p = .ok g ∧ Branch.fragments p bs = .ok gs ∧
        word (" " ++ op.keyword ++ " ") ++ g ++ gs = f := by
  simp only [Branch.fragments, bind_eq_ok, pure_eq_ok, refuse_eq_ok]
  grind

/-- The steps of compiling a select, told by its fields. -/
theorem Query.select_eq (q : Query) : q.select p = do
    Defect.refuse (q.selectDefect? p)
    let table ← TableRef.optional p q.table
    let joins ← Join.fragments p q.joins
    let filter ← Filter.optional p q.filter
    let having ← Filter.optional p q.having
    let branches ← Branch.fragments p q.branches
    return q.assembled p table joins filter having branches := by
  cases q
  rw [Query.select]

/-- **A compiled select.**  The query passes the checks, its five parts compile, and the statement is
assembled from them. -/
theorem Query.select_eq_ok {q : Query} :
    q.select p = .ok f ↔ q.selectDefect? p = none ∧
      ∃ table, TableRef.optional p q.table = .ok table ∧
      ∃ joins, Join.fragments p q.joins = .ok joins ∧
      ∃ filter, Filter.optional p q.filter = .ok filter ∧
      ∃ having, Filter.optional p q.having = .ok having ∧
      ∃ branches, Branch.fragments p q.branches = .ok branches ∧
        q.assembled p table joins filter having branches = f := by
  rw [Query.select_eq]
  simp only [bind_eq_ok, pure_eq_ok, refuse_eq_ok]
  grind

end Recursion

/-! ### Writes -/

section Writes

variable {p : Paging} {q : Query} {f : Fragment}

theorem Query.target_eq_ok {n : String} :
    q.target = .ok n ↔ q.table = some (.named n) ∧ Text.isBlankText n = false := by
  unfold Query.target
  split
  · next m h =>
    rw [h]
    cases hm : Text.isBlankText m
    · simp only [Bool.false_eq_true, if_false, Except.ok.injEq, Option.some.injEq, TableRef.named.injEq]
      exact ⟨fun e => ⟨e, e ▸ hm⟩, fun e => e.1⟩
    · simp only [if_true, reduceCtorEq, false_iff, Option.some.injEq, TableRef.named.injEq]
      rintro ⟨rfl, hn⟩
      simp [hm] at hn
  · next t hne h =>
    rw [h]
    refine ⟨fun h => (nomatch h), ?_⟩
    rintro ⟨e, -⟩
    exact absurd (Option.some.inj e) (hne n)
  · next h => simp [h]

theorem Query.refuseReadClauses_eq_ok {u : Unit} :
    q.refuseReadClauses = .ok u ↔ q.readClause? = none := by
  rw [Query.refuseReadClauses, refuse_eq_ok, Option.map_eq_none_iff]

/-- A write carries none of the clauses of a select. -/
theorem Query.readClause?_eq_none : q.readClause? = none ↔ q.columns = [] ∧ q.distinct = false ∧ q.joins = [] ∧
    q.branches = [] ∧ q.aggregate = none ∧ q.groups = [] ∧ q.having = none ∧ q.orders = [] ∧
    (q.limit = none ∧ q.offset = none) ∧ q.lock = none := by
  rw [← Query.isPaged_eq_false]
  simp only [Query.readClause?, check_eq_none]
  simp

theorem Query.condition_eq_ok :
    q.condition p = .ok f ↔ ∃ g, Filter.optional p q.filter = .ok g ∧ clause "where" g = f := by
  simp only [Query.condition, bind_eq_ok, pure_eq_ok]

theorem Query.assigned_eq : q.assigned p = Value.fragments p (q.assignments.map Assignment.value) := by
  unfold Query.assigned
  induction q.assignments with
  | nil => rfl
  | cons a as ih => rw [List.mapM_cons, ih, List.map_cons, Value.fragments]

theorem Query.insertFragment_eq_ok :
    q.insertFragment p = .ok f ↔ ∃ table, q.table = some (.named table) ∧
      Text.isBlankText table = false ∧ q.readClause? = none ∧ q.insertDefect? table = none ∧
      ∃ values, q.assigned p = .ok values ∧
        word "insert into " ++ name table ++ word " " ++
          parenthesized (joined ", " (q.assignments.map fun a => name a.column)) ++ word " values " ++
          parenthesized (joined ", " values) ++ q.givesBack = f := by
  simp only [Query.insertFragment, bind_eq_ok, pure_eq_ok, refuse_eq_ok, Query.target_eq_ok,
    Query.refuseReadClauses_eq_ok]
  grind

theorem Query.updateFragment_eq_ok :
    q.updateFragment p = .ok f ↔ ∃ table, q.table = some (.named table) ∧
      Text.isBlankText table = false ∧ q.readClause? = none ∧ q.assignments.isEmpty = false ∧
      ∃ values, q.assigned p = .ok values ∧ ∃ condition, Filter.optional p q.filter = .ok condition ∧
        word "update " ++ name table ++ word " set " ++
          joined ", " ((q.assignments.zip values).map fun (a, v) => name a.column ++ word " = " ++ v) ++
          clause "where" condition ++ q.givesBack = f := by
  simp only [Query.updateFragment, bind_eq_ok, pure_eq_ok, refuse_eq_ok, Query.target_eq_ok,
    Query.refuseReadClauses_eq_ok, Query.condition_eq_ok]
  cases q.assignments.isEmpty <;> grind

theorem Query.deleteFragment_eq_ok :
    q.deleteFragment p = .ok f ↔ ∃ table, q.table = some (.named table) ∧
      Text.isBlankText table = false ∧ q.readClause? = none ∧ q.assignments.isEmpty = true ∧
      ∃ condition, Filter.optional p q.filter = .ok condition ∧
        word "delete from " ++ name table ++ clause "where" condition ++ q.givesBack = f := by
  simp only [Query.deleteFragment, bind_eq_ok, pure_eq_ok, refuse_eq_ok, Query.target_eq_ok,
    Query.refuseReadClauses_eq_ok, Query.condition_eq_ok]
  cases q.assignments.isEmpty <;> grind

end Writes

theorem Query.compile_eq_ok {p : Paging} {q : Query} {s : Statement} :
    q.compile p = .ok s ↔ ∃ f, q.fragment p = .ok f ∧ f.statement = s := by
  simp only [Query.compile, bind_eq_ok, pure_eq_ok]

theorem Query.compile_eq_error {p : Paging} {q : Query} {e : Error} :
    q.compile p = .error e ↔ q.fragment p = .error e := by
  unfold Query.compile
  cases q.fragment p with
  | error e' => exact ⟨fun h => by cases h; rfl, fun h => by cases h; rfl⟩
  | ok f => exact ⟨fun h => (nomatch h), fun h => (nomatch h)⟩

end SqlQuery
