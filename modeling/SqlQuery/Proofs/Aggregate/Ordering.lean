import SqlQuery.Proofs.Aggregate.Reduction
import SqlQuery.Query.Build

/-!
# Aggregates over ordered queries

An aggregate that is asked for with `Query.compileAggregate` is taken over the query without its ordering; one that
the query carries itself is taken over the query as it is.  For a query that becomes a derived table the two are
different statements as soon as there is an ordering, also where it decides which rows a page has.

* `Query.ordering`, `Query.ending` — the two parts of `Query.tail`;
* `Query.compile_eq_opening` — a select is an opening that does not depend on the ordering, the ordering and what closes
  it;
* `Query.compileAggregate_drops_ordering` — **the ordering is what the two aggregates differ in**.
-/

namespace SqlQuery

open SqlQuery.Fragment

variable {p : Paging}

/-- Two derived tables, one with some more text in the middle. -/
theorem Statement.derived_eq_iff {before between after aggregate : String} {vs : List Value} :
    derived ⟨before ++ after, vs⟩ aggregate = derived ⟨before ++ between ++ after, vs⟩ aggregate ↔ between = "" := by
  constructor
  · intro h
    have hsql : before ++ after = before ++ between ++ after := by
      simpa [derived, String.append_right_inj, String.append_left_inj] using congrArg sql h
    rwa [String.append_left_inj, eq_comm, String.append_eq_left_iff] at hsql
  · rintro rfl
    rw [String.append_empty]

namespace Query

/-- The ordering with its keyword; nothing where there is none. -/
def ordering (q : Query) : Fragment :=
  if q.orders.isEmpty then [] else word " order by " ++ OrderBy.list q.orders

/-- The trailing paging and the lock. -/
def ending (p : Paging) (q : Query) : Fragment :=
  spaced (p.trailing q.limit q.offset) ++
    match q.lock with
    | none => []
    | some lock => lock.fragment

/-- A select up to its ordering. -/
def opening (p : Paging) (q : Query) : Except Error Fragment :=
  q.parted p fun table joins filter having branches =>
    q.head p none ++ word " from " ++ table ++ joins ++ clause "where" filter ++ q.grouping ++
      clause "having" having ++ branches

variable {q : Query} {a : Aggregate}

theorem tail_eq (q : Query) : q.tail p = q.ordering ++ q.ending p :=
  List.append_assoc ..

theorem params_ordering (q : Query) : params q.ordering = [] := by
  unfold ordering
  split
  · rfl
  · simp [OrderBy.params_list]

theorem text_ordering_eq_empty_iff : text q.ordering = "" ↔ q.orders = [] := by
  unfold ordering
  cases q.orders with
  | nil => simp [text]
  | cons o os => simp [text_append, text_word, String.append_eq_empty_iff]

theorem unordered_of_orders_eq_nil (h : q.orders = []) : q.unordered = q := by
  cases q
  subst h
  rfl

theorem opening_unordered (q : Query) : q.unordered.opening p = q.opening p := parted_eq rfl rfl rfl rfl rfl rfl _

/-- The statement of a select whose opening is compiled. -/
theorem compile_eq_opening (hq : q.action = .select) (ha : q.aggregate = none) :
    q.compile p = (fun f => ⟨text f ++ text q.ordering ++ text (q.ending p), params f⟩) <$> q.opening p := by
  have hparams : params (q.ending p) = [] := by
    have htail := q.params_tail p
    rw [tail_eq, params_append] at htail
    exact (List.append_eq_nil_iff.1 htail).2
  rw [compile_eq_parted hq, opening, parted_map]
  simp only [assembled, ha, layout, tail_eq, Fragment.statement, text_append, params_append, params_ordering, hparams,
    List.append_nil, String.append_assoc]

/-- The statement of a select that has lost its ordering. -/
theorem compile_unordered (hq : q.action = .select) (ha : q.aggregate = none) :
    q.unordered.compile p = (fun f => ⟨text f ++ text (q.ending p), params f⟩) <$> q.opening p := by
  have hordering : text q.unordered.ordering = "" := text_ordering_eq_empty_iff.2 rfl
  have hending : q.unordered.ending p = q.ending p := rfl
  rw [compile_eq_opening (q := q.unordered) hq ha, opening_unordered]
  simp only [hordering, hending, String.append_empty]

/-! ### The two aggregates -/

/-- The aggregate that a query carries itself, over unions or over groups with a condition. -/
theorem compile_withAggregate (hq : q.action = .select) (ha : q.aggregate = none) (hw : q.wrapsAggregate = true) :
    { q with aggregate := some a }.compile p = (·.derived (text (a.fragment q.distinct))) <$> q.compile p := by
  have hplain : { q with aggregate := none } = q := by
    cases q
    subst ha
    rfl
  rw [compile_of_wraps (q := { q with aggregate := some a }) hq rfl hw, hplain]

/-- A query that becomes a derived table keeps its columns. -/
theorem compileAggregate_of_wraps (hw : q.wrapsAggregate = true) :
    q.compileAggregate p a = { q.unordered with aggregate := some a }.compile p := by
  rw [compileAggregate, reduced, hw, if_pos rfl]
  rfl

/-- **The ordering is what the two aggregates differ in.**  Over unions and over groups with a condition, the aggregate
that is asked for is taken over the query without its ordering, with the same values, columns and paging, and the
aggregate that the query carries itself over the query as it is.  They are the same statement exactly when there is no
ordering, unless the query does not compile: then neither does. -/
theorem compileAggregate_drops_ordering (p : Paging) (q : Query) (hq : q.action = .select) (ha : q.aggregate = none)
    (hw : q.branches ≠ [] ∨ ∃ h ∈ q.having, h.isEmpty = false) (a : Aggregate) :
    q.compileAggregate p a = { q.unordered with aggregate := some a }.compile p ∧
    (q.compileAggregate p a = { q with aggregate := some a }.compile p ↔
      q.orders = [] ∨ ∃ e, q.compile p = .error e) ∧
    (∀ e, q.compile p = .error e →
      q.compileAggregate p a = .error e ∧ { q with aggregate := some a }.compile p = .error e) ∧
    ∀ s, q.compile p = .ok s → ∃ before,
      s.sql = before ++ text q.ordering ++ text (q.ending p) ∧
      q.unordered.compile p = .ok ⟨before ++ text (q.ending p), s.params⟩ ∧
      q.compileAggregate p a =
        .ok (Statement.derived ⟨before ++ text (q.ending p), s.params⟩ (text (a.fragment q.distinct))) ∧
      { q with aggregate := some a }.compile p = .ok (s.derived (text (a.fragment q.distinct))) := by
  rw [← wrapsAggregate_iff] at hw
  have hunordered := compile_unordered (p := p) hq ha
  have hasked : q.compileAggregate p a = (·.derived (text (a.fragment q.distinct))) <$> q.unordered.compile p :=
    (compileAggregate_of_wraps hw).trans (compile_withAggregate (q := q.unordered) hq ha hw)
  have hcarried := compile_withAggregate (p := p) (a := a) hq ha hw
  have hordered := compile_eq_opening (p := p) hq ha
  refine ⟨compileAggregate_of_wraps hw, ?_⟩
  rw [hasked, hcarried]
  cases hopening : q.opening p with
  | error e =>
    rw [hopening] at hunordered hordered
    rw [hunordered, hordered]
    exact ⟨⟨fun _ => .inr ⟨e, rfl⟩, fun _ => rfl⟩, fun e' h => ⟨h ▸ rfl, h ▸ rfl⟩, nofun⟩
  | ok f =>
    rw [hopening] at hunordered hordered
    rw [hunordered, hordered]
    have hsame : (⟨text f ++ text (q.ending p), params f⟩ : Statement).derived (text (a.fragment q.distinct)) =
        Statement.derived ⟨text f ++ text q.ordering ++ text (q.ending p), params f⟩ (text (a.fragment q.distinct)) ↔
          q.orders = [] :=
      Statement.derived_eq_iff.trans text_ordering_eq_empty_iff
    refine ⟨⟨fun h => .inl (hsame.1 (Except.ok.inj h)), fun h => ?_⟩, nofun, fun s hs => ?_⟩
    · exact congrArg Except.ok (hsame.2 (h.resolve_right nofun))
    · obtain rfl := Except.ok.inj hs
      exact ⟨text f, rfl, rfl, rfl, rfl⟩

set_option maxRecDepth 4000

/-- The two dearest of all orders. -/
def dearestOrders : Query where
  table := some (.named "orders")
  filter := some (.raw "price > ?" [.int 16])
  orders := [.column "price" .desc]
  limit := some 2
  branches := [⟨.union, { table := some (.named "refunds") }⟩]

theorem compileAggregate_drops_ordering_dearestOrders :
    dearestOrders.compileAggregate .modern ⟨.sum, "price"⟩ ≠
      { dearestOrders with aggregate := some ⟨.sum, "price"⟩ }.compile .modern ∧
    dearestOrders.compileAggregate .legacy ⟨.sum, "price"⟩ = .error (.malformedQuery .legacyPagedUnion) ∧
    ∃ before, "select * from \"orders\" where price > ? union select * from \"refunds\" order by \"price\" desc " ++
        "fetch first 2 rows only" = before ++ " order by \"price\" desc" ++ " fetch first 2 rows only" ∧
      dearestOrders.compileAggregate .modern ⟨.sum, "price"⟩ =
        .ok (Statement.derived ⟨before ++ " fetch first 2 rows only", [.int 16]⟩
          "sum(\"price\") as \"aggregate\"") := by
  have hunited : dearestOrders.branches ≠ [] ∨ ∃ h ∈ dearestOrders.having, h.isEmpty = false := .inl nofun
  have hmodern : dearestOrders.compile .modern = .ok
      ⟨"select * from \"orders\" where price > ? union select * from \"refunds\" order by \"price\" desc " ++
        "fetch first 2 rows only", [.int 16]⟩ := by rfl
  have hcall : text (Aggregate.fragment ⟨.sum, "price"⟩ dearestOrders.distinct) =
      "sum(\"price\") as \"aggregate\"" := by decide
  have hordering : text dearestOrders.ordering = " order by \"price\" desc" := by decide
  have hending : text (dearestOrders.ending .modern) = " fetch first 2 rows only" := by decide
  obtain ⟨-, hagree, -, hparts⟩ := compileAggregate_drops_ordering .modern dearestOrders rfl rfl hunited ⟨.sum, "price"⟩
  obtain ⟨-, -, hfails, -⟩ := compileAggregate_drops_ordering .legacy dearestOrders rfl rfl hunited ⟨.sum, "price"⟩
  obtain ⟨before, htext, -, hasked, -⟩ := hparts _ hmodern
  rw [hordering, hending] at htext
  rw [hending, hcall] at hasked
  refine ⟨fun h => ?_, (hfails _ rfl).1, before, htext, hasked⟩
  obtain horders | ⟨e, he⟩ := hagree.1 h
  · exact nomatch horders
  · exact nomatch hmodern.symm.trans he

/-- A sum over the two dearest of all orders, asked for in the two ways: the first is a sum over any two. -/
theorem dearestOrders_disagree :
    (dearestOrders.action = .select ∧ dearestOrders.aggregate = none ∧ dearestOrders.branches ≠ [] ∧
      dearestOrders.limit = some 2) ∧
    dearestOrders.compileAggregate .modern ⟨.sum, "price"⟩ = .ok
      ⟨"select sum(\"price\") as \"aggregate\" from (select * from \"orders\" where price > ? union " ++
        "select * from \"refunds\" fetch first 2 rows only) as \"temp_table\"", [.int 16]⟩ ∧
    { dearestOrders with aggregate := some ⟨.sum, "price"⟩ }.compile .modern = .ok
      ⟨"select sum(\"price\") as \"aggregate\" from (select * from \"orders\" where price > ? union " ++
        "select * from \"refunds\" order by \"price\" desc fetch first 2 rows only) as \"temp_table\"",
        [.int 16]⟩ ∧
    dearestOrders.compileAggregate .modern ⟨.sum, "price"⟩ ≠
      { dearestOrders with aggregate := some ⟨.sum, "price"⟩ }.compile .modern := by
  have hasked : dearestOrders.compileAggregate .modern ⟨.sum, "price"⟩ = .ok
      ⟨"select sum(\"price\") as \"aggregate\" from (select * from \"orders\" where price > ? union " ++
        "select * from \"refunds\" fetch first 2 rows only) as \"temp_table\"", [.int 16]⟩ := by rfl
  have hcarried : { dearestOrders with aggregate := some ⟨.sum, "price"⟩ }.compile .modern = .ok
      ⟨"select sum(\"price\") as \"aggregate\" from (select * from \"orders\" where price > ? union " ++
        "select * from \"refunds\" order by \"price\" desc fetch first 2 rows only) as \"temp_table\"",
        [.int 16]⟩ := by rfl
  refine ⟨⟨rfl, rfl, nofun, rfl⟩, hasked, hcarried, fun h => ?_⟩
  rw [hasked, hcarried] at h
  have hsql := congrArg Statement.sql (Except.ok.inj h)
  exact absurd hsql (by decide)

end Query

end SqlQuery
