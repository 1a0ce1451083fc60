import SqlQuery.Proofs.Acceptance.Statement
import SqlQuery.Proofs.Binding.Clauses
import SqlQuery.Proofs.Subquery.Statement

/-!
# Aggregates as plain selects

A select with an aggregate is compiled like one without: over unions and over groups with a condition, the plain
select becomes a derived table; otherwise the aggregate stands where a column would.

* `Query.parted` — the checks and the parts of a select, apart from the way in which they are put together; queries
  that differ in other fields have the same (`Query.parted_eq`);
* `Query.compile_eq_parted` — a compiled select is its parts, put together and spelled;
* `Query.compile_of_wraps`, `Query.compile_of_not_wraps` — the two ways in which an aggregate is taken;
* `Query.compile_aggregate_reduces` — **aggregates reduce to plain selects**, and what a query that is reduced to an
  aggregate is not looked at for.
-/

namespace SqlQuery

open SqlQuery.Fragment

variable {p : Paging} {α β : Type}

/-! ### The parts of a select -/

/-- The parts of a select that passes the checks, put together by `put`. -/
def Query.parted (p : Paging) (q : Query) (put : Fragment → Fragment → Fragment → Fragment → Fragment → α) :
    Except Error α := do
  Defect.refuse (q.selectDefect? p)
  let table ← TableRef.optional p q.table
  let joins ← Join.fragments p q.joins
  let filter ← Filter.optional p q.filter
  let having ← Filter.optional p q.having
  let branches ← Branch.fragments p q.branches
  return put table joins filter having branches

namespace Query

theorem parted_map (q : Query) (g : α → β) (put : Fragment → Fragment → Fragment → Fragment → Fragment → α) :
    g <$> q.parted p put = q.parted p fun t j w v b => g (put t j w v b) := by
  simp only [parted, map_eq_pure_bind, bind_assoc, pure_bind]

/-- A compiled select, with the layout of `Query.assembled`. -/
theorem compile_eq_parted {q : Query} (hq : q.action = .select) :
    q.compile p = q.parted p fun t j w v b => (q.assembled p t j w v b).statement := by
  rw [compile_of_select hq, select_eq, ← parted_map, map_eq_pure_bind]
  rfl

/-- Only the fields that the checks look at and the parts matter, besides the layout. -/
theorem parted_eq {q r : Query} (hd : r.selectDefect? p = q.selectDefect? p) (ht : r.table = q.table)
    (hj : r.joins = q.joins) (hw : r.filter = q.filter) (hv : r.having = q.having) (hb : r.branches = q.branches)
    (put : Fragment → Fragment → Fragment → Fragment → Fragment → α) : r.parted p put = q.parted p put := by
  rw [parted, parted, hd, ht, hj, hw, hv, hb]

end Query

/-! ### The two ways -/

/-- The statement as the derived table that an aggregate is taken over. -/
def Statement.derived (s : Statement) (aggregate : String) : Statement where
  sql := "select " ++ aggregate ++ " from (" ++ s.sql ++ ") as \"temp_table\""
  params := s.params

theorem Query.statement_wrapped (q : Query) (a : Aggregate) (f : Fragment) :
    (q.wrapped a f).statement = f.statement.derived (text (a.fragment q.distinct)) := by
  have hname : text (part derivedTableName) = "\"temp_table\"" := by decide
  have hopen : " from (" = " from " ++ "(" := by decide
  have hclose : ") as \"temp_table\"" = ")" ++ " as " ++ "\"temp_table\"" := by decide
  simp only [Fragment.statement, Statement.derived, Query.wrapped, text_append, params_append, text_word,
    text_parenthesized, params_parenthesized, params_word, hname, hopen, hclose, Aggregate.params_fragment,
    String.append_assoc, List.nil_append, List.append_nil, params_part]

/-- The query without an aggregate, selecting one column of the caller's own. -/
def Query.selecting (q : Query) (sql : String) : Query :=
  { q with aggregate := none, distinct := false, columns := [.raw sql] }

namespace Query

variable {q : Query} {a : Aggregate}

/-- Over unions and over groups with a condition, an aggregate is taken over the plain select. -/
theorem compile_of_wraps (hq : q.action = .select) (ha : q.aggregate = some a) (hw : q.wrapsAggregate = true) :
    q.compile p = (·.derived (text (a.fragment q.distinct))) <$> { q with aggregate := none }.compile p := by
  have hdefect : { q with aggregate := none }.selectDefect? p = q.selectDefect? p := by
    have hwraps : { q with aggregate := none }.wrapsAggregate = true := hw
    simp only [selectDefect?, hw, hwraps, Bool.not_true, Bool.and_false]
    rfl
  have hplain : { q with aggregate := none }.action = .select := hq
  rw [compile_eq_parted hq, compile_eq_parted hplain, parted_map, parted_eq hdefect rfl rfl rfl rfl rfl]
  simp only [assembled, ha, hw, if_true, statement_wrapped]
  rfl

/-- In the layout of a select, a column of the caller's own and an aggregate stand at one place. -/
theorem statement_layout (q : Query) (a : Aggregate) (t j w v b : Fragment) :
    (q.layout p (some a) t j w v b).statement =
      ((q.selecting (text (a.fragment q.distinct))).layout p none t j w v b).statement := by
  have hcolumn : ∀ sql, Column.list [.raw sql] = [.verbatim sql []] := fun sql => by
    simp [Column.list, Column.fragment, joined, List.intercalate]
  have htext : ∀ sql, text [.verbatim sql []] = sql := fun sql => text_singleton _
  have hparams : ∀ sql, params [.verbatim sql []] = [] := fun sql => rfl
  simp only [Fragment.statement, layout, head, selection, selecting, hcolumn, Bool.false_eq_true, if_false,
    List.nil_append, text_append, params_append, htext, hparams, Aggregate.params_fragment]
  rfl

/-- Elsewhere an aggregate is taken where a column would stand. -/
theorem compile_of_not_wraps (hq : q.action = .select) (ha : q.aggregate = some a) (hw : q.wrapsAggregate = false)
    (hc : q.columns = []) : q.compile p = (q.selecting (text (a.fragment q.distinct))).compile p := by
  have hdefect : ∀ sql, (q.selecting sql).selectDefect? p = q.selectDefect? p := fun sql => by
    simp only [selectDefect?, selecting, hc, List.isEmpty_nil, Bool.not_true, Bool.and_false, Option.isSome_none,
      Bool.false_and]
    rfl
  have hplain : ∀ sql, (q.selecting sql).action = .select := fun _ => hq
  rw [compile_eq_parted hq, compile_eq_parted (hplain _), parted_eq (hdefect _) rfl rfl rfl rfl rfl]
  simp only [assembled, ha, hw, Bool.false_eq_true, if_false, statement_layout, selecting]

/-- **Aggregates reduce to plain selects.**  Over unions and over groups with a condition, a select with an aggregate
fails like the one without it, and otherwise it is the aggregate over that as a derived table, with the same values.
Elsewhere, and without columns, it compiles like the select of the aggregate's text as a column.  A query that is
reduced to an aggregate is not looked at for its own aggregate and its ordering, nor for its columns unless the
derived table needs them. -/
theorem compile_aggregate_reduces (p : Paging) (q : Query) (hq : q.action = .select) (a : Aggregate) :
    (q.aggregate = some a → (q.branches ≠ [] ∨ ∃ h ∈ q.having, h.isEmpty = false) →
      (∀ e, q.compile p = .error e ↔ { q with aggregate := none }.compile p = .error e) ∧
      ∀ s, { q with aggregate := none }.compile p = .ok s → q.compile p =
        .ok ⟨"select " ++ text (a.fragment q.distinct) ++ " from (" ++ s.sql ++ ") as \"temp_table\"", s.params⟩) ∧
    (q.aggregate = some a → ¬ (q.branches ≠ [] ∨ ∃ h ∈ q.having, h.isEmpty = false) → q.columns = [] →
      q.compile p = { q with
        aggregate := none, distinct := false, columns := [.raw (text (a.fragment q.distinct))] }.compile p) ∧
    (∀ own orders, { q with aggregate := own, orders }.compileAggregate p a = q.compileAggregate p a) ∧
    (¬ (q.branches ≠ [] ∨ ∃ h ∈ q.having, h.isEmpty = false) → ∀ own orders columns,
      { q with aggregate := own, orders, columns }.compileAggregate p a = q.compileAggregate p a) := by
  rw [← wrapsAggregate_iff, Bool.not_eq_true]
  refine ⟨fun ha hw => ?_, compile_of_not_wraps hq, fun own orders => rfl, fun hw own orders columns => ?_⟩
  · rw [compile_of_wraps hq ha hw]
    cases { q with aggregate := none }.compile p with
    | error e => exact ⟨fun _ => Iff.rfl, nofun⟩
    | ok s => exact ⟨fun _ => ⟨nofun, nofun⟩, fun t ht => Except.ok.inj ht ▸ rfl⟩
  · have hother : { q with aggregate := own, orders, columns }.wrapsAggregate = false := hw
    simp only [compileAggregate, reduced, hw, hother, Bool.false_eq_true, if_false]

set_option maxRecDepth 4000

/-- An aggregate over the first rows of an ordered table. -/
def firstPrices : Query where
  table := some (.named "orders")
  distinct := true
  filter := some (.raw "price > ?" [.int 16])
  orders := [.column "price" .desc]
  limit := some 2
  aggregate := some ⟨.sum, "price"⟩

/-- The same over two tables. -/
def firstUnitedPrices : Query :=
  { firstPrices with branches := [⟨.unionAll, { table := some (.named "refunds") }⟩] }

theorem compile_aggregate_reduces_firstPrices :
    firstUnitedPrices.compile .modern = .ok ⟨"select " ++ "sum(distinct \"price\") as \"aggregate\"" ++ " from (" ++
      ("select distinct * from \"orders\" where price > ? union all select * from \"refunds\" " ++
        "order by \"price\" desc fetch first 2 rows only") ++ ") as \"temp_table\"", [.int 16]⟩ ∧
    firstUnitedPrices.compile .legacy = .error (.malformedQuery .legacyPagedUnion) ∧
    firstPrices.compile .legacy = .ok
      ⟨"select first 2 sum(distinct \"price\") as \"aggregate\" from \"orders\" where price > ? " ++
        "order by \"price\" desc", [.int 16]⟩ ∧
    (∀ own orders, { firstUnitedPrices with aggregate := own, orders }.compileAggregate .modern .countRows =
      firstUnitedPrices.compileAggregate .modern .countRows) ∧
    ∀ own orders columns, { firstPrices with aggregate := own, orders, columns }.compileAggregate .modern .countRows =
      firstPrices.compileAggregate .modern .countRows := by
  have hunited : firstUnitedPrices.branches ≠ [] ∨ ∃ h ∈ firstUnitedPrices.having, h.isEmpty = false := .inl nofun
  have halone : ¬ (firstPrices.branches ≠ [] ∨ ∃ h ∈ firstPrices.having, h.isEmpty = false) := by
    simp [firstPrices]
  have hplain : { firstUnitedPrices with aggregate := none }.compile .modern = .ok
      ⟨"select distinct * from \"orders\" where price > ? union all select * from \"refunds\" " ++
        "order by \"price\" desc fetch first 2 rows only", [.int 16]⟩ := by rfl
  have hcall : text (Aggregate.fragment ⟨.sum, "price"⟩ firstPrices.distinct) =
      "sum(distinct \"price\") as \"aggregate\"" := by decide
  obtain ⟨hmodern, -⟩ := compile_aggregate_reduces .modern firstUnitedPrices rfl ⟨.sum, "price"⟩
  obtain ⟨hlegacy, -⟩ := compile_aggregate_reduces .legacy firstUnitedPrices rfl ⟨.sum, "price"⟩
  obtain ⟨-, hinline, -⟩ := compile_aggregate_reduces .legacy firstPrices rfl ⟨.sum, "price"⟩
  obtain ⟨-, -, hown, -⟩ := compile_aggregate_reduces .modern firstUnitedPrices rfl .countRows
  obtain ⟨-, -, -, hcolumns⟩ := compile_aggregate_reduces .modern firstPrices rfl .countRows
  refine ⟨?_, ((hlegacy rfl hunited).1 _).2 rfl, ?_, hown, hcolumns halone⟩
  · rw [(hmodern rfl hunited).2 _ hplain, show firstUnitedPrices.distinct = firstPrices.distinct from rfl, hcall]
  · rw [hinline rfl halone rfl, hcall]
    rfl

end Query

end SqlQuery
