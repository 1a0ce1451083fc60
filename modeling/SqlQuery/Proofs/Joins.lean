import SqlQuery.Proofs.Acceptance.Operators
import SqlQuery.Proofs.Subquery.Statement

/-!
# Conditions of joins

Inner, left and right joins are spelled with their condition, which has text; cross and lateral joins have none, and what
a description holds in its place is not looked at.

* `Query.SpellsJoin` — what the clause of one join is in a statement, between the other joins;
* `Query.compile_spellsJoin` — a compiled select has the clause of each of its joins;
* `Query.compile_join_condition` — **conditions of joins**: kept with their values and checked where a join takes one,
  and without effect elsewhere.
-/

namespace SqlQuery

open SqlQuery.Fragment

variable {p : Paging}

/-! ### One join -/

theorem JoinKind.fragment_of_takesCondition {kind : JoinKind} (hk : kind.takesCondition = true)
    (table condition : Fragment) :
    kind.fragment table condition = word (kind.keyword ++ " join ") ++ table ++ word " on " ++ condition := by
  cases kind <;> first | rfl | exact nomatch hk

/-- A clause without a condition of the caller's own. -/
theorem JoinKind.fragment_of_not_takesCondition {kind : JoinKind} (hk : kind.takesCondition = false)
    (table condition : Fragment) :
    kind.fragment table condition = if kind = .cross then word "cross join " ++ table
      else word (kind.keyword ++ " join lateral ") ++ table ++ word " on true" := by
  cases kind <;> first | rfl | exact nomatch hk

namespace Join

variable {kind : JoinKind} {t : TableRef} {on : Option Filter} {clause : Fragment}

/-- The clause of a compiled join that takes a condition: there is one, and it has text. -/
theorem clause_of_takesCondition (hk : kind.takesCondition = true) (h : Join.fragment p ⟨kind, t, on⟩ = .ok clause) :
    ∃ c ∈ on, ∃ table condition, t.fragment p = .ok table ∧ c.fragment p = .ok condition ∧ text condition ≠ "" ∧
      clause = word (kind.keyword ++ " join ") ++ table ++ word " on " ++ condition := by
  obtain ⟨table, ht, ⟨hnot, -⟩ | ⟨-, condition, hc, hblank, rfl⟩⟩ := fragment_eq_ok.1 h
  · exact absurd (hk.symm.trans hnot) (by decide)
  · have hne : text condition ≠ "" := fun he => absurd (hblank.symm.trans (text_eq_empty_iff.1 he)) (by decide)
    cases on with
    | none => exact absurd (Except.ok.inj hc ▸ rfl) hne
    | some c => exact ⟨c, rfl, table, condition, ht, hc, hne, JoinKind.fragment_of_takesCondition hk table condition⟩

/-- The clause of a compiled join that takes no condition. -/
theorem clause_of_not_takesCondition (hk : kind.takesCondition = false)
    (h : Join.fragment p ⟨kind, t, on⟩ = .ok clause) :
    ∃ table, t.fragment p = .ok table ∧ clause = if kind = .cross then word "cross join " ++ table
      else word (kind.keyword ++ " join lateral ") ++ table ++ word " on true" := by
  obtain ⟨table, ht, ⟨-, rfl⟩ | ⟨htakes, -⟩⟩ := fragment_eq_ok.1 h
  · exact ⟨table, ht, JoinKind.fragment_of_not_takesCondition hk table []⟩
  · exact absurd (hk.symm.trans htakes) (by decide)

end Join

/-- A join that takes no condition does not look at it. -/
theorem Join.fragment_of_not_takesCondition {kind : JoinKind} (hk : kind.takesCondition = false) (t : TableRef)
    (on on' : Option Filter) : Join.fragment p ⟨kind, t, on⟩ = Join.fragment p ⟨kind, t, on'⟩ := by
  simp only [Join.fragment, hk, Bool.false_eq_true, if_false]

theorem Join.fragments_congr {j j' : Join} (h : j.fragment p = j'.fragment p) (before after : List Join) :
    Join.fragments p (before ++ j :: after) = Join.fragments p (before ++ j' :: after) := by
  rw [Join.fragments_append, Join.fragments_append, Join.fragments, Join.fragments, h]

/-! ### The joins of a select -/

/-- In the statement of a select, `clause` stands after the joins `before` and in front of the joins `after`. -/
def Query.SpellsJoin (p : Paging) (q : Query) (before after : List Join) (clause : Fragment) (s : Statement) : Prop :=
  ∃ opening table earlier later closing, TableRef.optional p q.table = .ok table ∧
    Join.fragments p before = .ok earlier ∧ Join.fragments p after = .ok later ∧
    s = (opening ++ word " from " ++ table ++ earlier ++ word " " ++ clause ++ later ++ closing).statement

namespace Query

variable {q : Query} {before after : List Join}

/-- The joins follow the table, also in a derived table. -/
theorem assembled_around (q : Query) (table filter having branches : Fragment) :
    ∃ opening closing, ∀ joins, q.assembled p table joins filter having branches =
      opening ++ word " from " ++ table ++ joins ++ closing := by
  have hlayout : ∀ aggregate joins, q.layout p aggregate table joins filter having branches =
      q.head p aggregate ++ word " from " ++ table ++ joins ++ (clause "where" filter ++ q.grouping ++
        clause "having" having ++ branches ++ q.tail p) := fun aggregate joins => by
    simp only [layout, List.append_assoc]
  cases ha : q.aggregate with
  | none => exact ⟨_, _, fun joins => by rw [assembled, ha]; exact hlayout none joins⟩
  | some a =>
    cases hw : q.wrapsAggregate with
    | true =>
      refine ⟨word "select " ++ a.fragment q.distinct ++ word " from " ++ word "(" ++ q.head p none,
        clause "where" filter ++ q.grouping ++ clause "having" having ++ branches ++ q.tail p ++ word ")" ++
          word " as " ++ part derivedTableName, fun joins => ?_⟩
      simp only [assembled, ha, hw, if_true, wrapped, hlayout, parenthesized, List.append_assoc]
    | false =>
      refine ⟨q.head p (some a), clause "where" filter ++ q.grouping ++ clause "having" having ++ branches ++ q.tail p,
        fun joins => ?_⟩
      simp only [assembled, ha, hw, Bool.false_eq_true, if_false, hlayout]

theorem select_congr_joins {joins : List Join} (h : Join.fragments p joins = Join.fragments p q.joins) :
    { q with joins }.select p = q.select p := by
  rw [select_eq, select_eq, ← h]
  rfl

/-- A compiled select has the clause of each of its joins. -/
theorem compile_spellsJoin (hq : q.action = .select) {j : Join} (hjoins : q.joins = before ++ j :: after)
    {s : Statement} (hs : q.compile p = .ok s) :
    ∃ clause, j.fragment p = .ok clause ∧ q.SpellsJoin p before after clause s := by
  obtain ⟨f, hf, rfl⟩ := compile_eq_ok.1 hs
  rw [fragment, hq] at hf
  obtain ⟨-, table, ht, joins, hj, filter, -, having, -, branches, -, rfl⟩ := select_eq_ok.1 hf
  rw [hjoins, Join.fragments_append] at hj
  obtain ⟨earlier, hearlier, hj⟩ := bind_eq_ok.1 hj
  obtain ⟨rest, hrest, hj⟩ := bind_eq_ok.1 hj
  obtain ⟨clause, later, hclause, hlater, rfl⟩ := Join.fragments_cons_eq_ok.1 hrest
  obtain rfl := pure_eq_ok.1 hj
  obtain ⟨opening, closing, haround⟩ := q.assembled_around (p := p) table filter having branches
  refine ⟨clause, hclause, opening, table, earlier, later, closing, ht, hearlier, hlater, ?_⟩
  rw [haround]
  simp only [List.append_assoc]

/-- **Conditions of joins.**  A select that compiles has a condition with text for each inner, left and right join, and it
stands in the clause of that join, with its values after those of the table; an operator in it that the dialect does not
have, at any depth, makes the select fail.  Cross and lateral joins take no condition: their clauses are spelled without,
and whatever stands in its place, the outcome is the same. -/
theorem compile_join_condition (p : Paging) (q : Query) (hq : q.action = .select) (before after : List Join)
    (kind : JoinKind) (t : TableRef) (on : Option Filter) (hjoins : q.joins = before ++ ⟨kind, t, on⟩ :: after) :
    (kind.takesCondition = true →
      (∀ s, q.compile p = .ok s → ∃ c ∈ on, ∃ table condition, t.fragment p = .ok table ∧
        c.fragment p = .ok condition ∧ text condition ≠ "" ∧
        q.SpellsJoin p before after (word (kind.keyword ++ " join ") ++ table ++ word " on " ++ condition) s) ∧
      ∀ c ∈ on, ∀ op ∈ c.operators, Operator.ofText? op = none → ∃ e, q.compile p = .error e) ∧
    (kind.takesCondition = false →
      (∀ s, q.compile p = .ok s → ∃ table, t.fragment p = .ok table ∧ q.SpellsJoin p before after
        (if kind = .cross then word "cross join " ++ table
          else word (kind.keyword ++ " join lateral ") ++ table ++ word " on true") s) ∧
      ∀ on', { q with joins := before ++ Join.mk kind t on' :: after }.compile p = q.compile p) := by
  refine ⟨fun hk => ⟨fun s hs => ?_, ?_⟩, fun hk => ⟨fun s hs => ?_, fun on' => ?_⟩⟩
  · obtain ⟨clause, hclause, hspells⟩ := compile_spellsJoin hq hjoins hs
    obtain ⟨c, hc, table, condition, ht, hcondition, hne, rfl⟩ := Join.clause_of_takesCondition hk hclause
    exact ⟨c, hc, table, condition, ht, hcondition, hne, hspells⟩
  · rintro c ⟨⟩ op hop hunknown
    refine compile_error_of_unknownOperator hq ?_ hunknown
    rw [operators_eq, hjoins]
    simp [Join.mem_allOperators hk t hop before after]
  · obtain ⟨clause, hclause, hspells⟩ := compile_spellsJoin hq hjoins hs
    obtain ⟨table, ht, rfl⟩ := Join.clause_of_not_takesCondition hk hclause
    exact ⟨table, ht, hspells⟩
  · have hfragments := Join.fragments_congr (Join.fragment_of_not_takesCondition (p := p) hk t on' on) before after
    rw [← hjoins] at hfragments
    have hother : { q with joins := before ++ Join.mk kind t on' :: after }.action = .select := hq
    rw [compile_of_select hother, compile_of_select hq, select_congr_joins hfragments]

set_option maxRecDepth 4000

/-- Orders with their dearer lines; the condition on the days is not looked at. -/
def dearLines : Query where
  table := some (.named "orders")
  joins := [⟨.cross, .named "days", some (.predicate (.compare "day" "=~" (.int 1) false))⟩,
    ⟨.left, .raw "lines(?)" [.int 7], some (.predicate (.compare "price" ">" (.int 16) false))⟩,
    ⟨.lateralInner, .raw "(select 1)" [], none⟩]

/-- Orders of some days, chosen with an operator that the dialect does not have. -/
def daysByPattern : Query where
  table := some (.named "orders")
  joins := [⟨.right, .named "days", some (.not (.predicate (.compare "day" "=~" (.int 1) false)))⟩]

theorem compile_join_condition_dearLines :
    (∃ s, dearLines.compile .modern = .ok s ∧ s.params = [.int 7, .int 16] ∧
      ∃ table condition, text table = "lines(?)" ∧ text condition = "\"price\" > ?" ∧ params condition = [.int 16] ∧
        dearLines.SpellsJoin .modern (dearLines.joins.take 1) (dearLines.joins.drop 2)
          (word ("left" ++ " join ") ++ table ++ word " on " ++ condition) s) ∧
    (∃ e, daysByPattern.compile .modern = .error e) ∧
    ∀ on, { dearLines with joins := [] ++ Join.mk .cross (.named "days") on :: dearLines.joins.tail }.compile .modern =
      dearLines.compile .modern := by
  have hs : dearLines.compile .modern = .ok
      ⟨"select * from \"orders\" cross join \"days\" left join lines(?) on \"price\" > ? " ++
        "inner join lateral (select 1) on true", [.int 7, .int 16]⟩ := by rfl
  obtain ⟨hleft, -⟩ := compile_join_condition .modern dearLines rfl (dearLines.joins.take 1) (dearLines.joins.drop 2)
    .left _ _ rfl
  obtain ⟨hright, -⟩ := compile_join_condition .modern daysByPattern rfl [] [] .right _ _ rfl
  obtain ⟨-, hcross⟩ := compile_join_condition .modern dearLines rfl [] dearLines.joins.tail .cross _ _ rfl
  obtain ⟨c, ⟨⟩, table, condition, ht, hc, -, hspells⟩ := (hleft rfl).1 _ hs
  obtain rfl := Except.ok.inj ht
  obtain rfl := Except.ok.inj hc
  refine ⟨⟨_, hs, rfl, _, _, ?_, ?_, rfl, hspells⟩, ?_, (hcross rfl).2⟩
  · decide
  · decide
  · exact (hright rfl).2 _ rfl "=~" (by simp [Filter.operators, Predicate.operators]) (by decide)

/-- A product of two tables, where the join has a condition with the operator. -/
def conditionedProduct (op : String) : Query where
  table := some (.named "a")
  joins := [⟨.cross, .named "b", some (.predicate (.compare "x" op (.int 1) false))⟩]

/-- A cross join loses its condition, with its value, and an operator in it is not checked. -/
theorem conditionedProduct_unconditioned :
    (Filter.predicate (.compare "x" "=" (.int 1) false)).isEmpty = false ∧
    (∃ f, (Filter.predicate (.compare "x" "=" (.int 1) false)).fragment .modern = .ok f ∧ text f = "\"x\" = ?" ∧
      params f = [.int 1]) ∧
    (conditionedProduct "=").compile .modern = .ok ⟨"select * from \"a\" cross join \"b\"", []⟩ ∧
    Operator.ofText? "=~" = none ∧
    (conditionedProduct "=~").compile .modern = .ok ⟨"select * from \"a\" cross join \"b\"", []⟩ := by
  refine ⟨rfl, ⟨_, rfl, ?_, rfl⟩, ?_, by decide, ?_⟩ <;> rfl

end Query

end SqlQuery
