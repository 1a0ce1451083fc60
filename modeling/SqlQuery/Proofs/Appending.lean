import SqlQuery.Proofs.Aggregate.Ordering

/-!
# One more branch

A branch put to a select stands behind all that is there already, and what closed the select closes the whole: the
ordering and the paging are written once, after the last branch.

* `Query.unclosed` — a select without what closes it;
* `Query.closingText` — what closes a select that is not locked, told by its ordering and its paging alone;
* `Query.opening_addBranch` — the part before that grows by the operator and the branch;
* `Query.compile_addBranch` — **the ordering and the paging move behind the new branch**.
-/

namespace SqlQuery

open SqlQuery.Fragment

variable {p : Paging}

theorem Branch.fragments_append_eq_ok {bs ds : List Branch} {f : Fragment} :
    Branch.fragments p (bs ++ ds) = .ok f ↔
      ∃ g h, Branch.fragments p bs = .ok g ∧ Branch.fragments p ds = .ok h ∧ g ++ h = f := by
  simp only [Branch.fragments_append, bind_eq_ok, pure_eq_ok]
  grind

theorem Branch.fragments_singleton_eq_ok {op : SetOp} {b : Query} {f : Fragment} :
    Branch.fragments p [⟨op, b⟩] = .ok f ↔
      b.branchDefect? = none ∧ ∃ g, b.select p = .ok g ∧ word (" " ++ op.keyword ++ " ") ++ g = f := by
  rw [Branch.fragments_cons_eq_ok]
  have hnil : ∀ {gs : Fragment}, Branch.fragments p [] = .ok gs ↔ [] = gs := fun {_} => pure_eq_ok
  simp only [hnil]
  grind

namespace Query

/-- The select without its ordering, its paging and its lock. -/
def unclosed (q : Query) : Query :=
  { q with orders := [], limit := none, offset := none, lock := none }

/-- The text that closes a select with an ordering and a paging, and without a lock. -/
def closingText (p : Paging) (orders : List OrderBy) (limit offset : Option Int) : String :=
  text (tail p { orders, limit, offset })

variable {q b : Query} {op : SetOp}

theorem parted_eq_ok {α : Type} {put : Fragment → Fragment → Fragment → Fragment → Fragment → α} {a : α} :
    q.parted p put = .ok a ↔ q.selectDefect? p = none ∧
      ∃ table, TableRef.optional p q.table = .ok table ∧
      ∃ joins, Join.fragments p q.joins = .ok joins ∧
      ∃ filter, Filter.optional p q.filter = .ok filter ∧
      ∃ having, Filter.optional p q.having = .ok having ∧
      ∃ branches, Branch.fragments p q.branches = .ok branches ∧ put table joins filter having branches = a := by
  simp only [parted, bind_eq_ok, pure_eq_ok, refuse_eq_ok]
  grind

/-- What the checks of a union ask of its first select: it has no lock, and no paging that would stand in it. -/
theorem selectDefect?_addBranch (ha : q.aggregate = none) (h : (q.addBranch op b).selectDefect? p = none) :
    q.selectDefect? p = none ∧ q.unclosed.selectDefect? p = none ∧ q.lock = none ∧
      p.leading q.limit q.offset = [] := by
  obtain ⟨hselect, htable, hlimit, hoffset, -, hunion, hassignments, hreturning⟩ := selectDefect?_eq_none.1 h
  obtain ⟨hlock, hlegacy⟩ := hunion (by simp [addBranch])
  have hagg : q.aggregate.isSome = true → q.columns.isEmpty = true ∨ q.wrapsAggregate = true := by
    rw [ha]
    exact nofun
  have hleading : p.leading q.limit q.offset = [] := by
    cases p with
    | modern => rfl
    | legacy =>
      obtain ⟨hl, ho⟩ : q.limit = none ∧ q.offset = none := isPaged_eq_false.1 (hlegacy rfl)
      rw [hl, ho, Paging.leading_none]
  refine ⟨selectDefect?_eq_none.2 ⟨hselect, htable, hlimit, hoffset, hagg, fun _ => ⟨hlock, hlegacy⟩, hassignments,
    hreturning⟩, selectDefect?_eq_none.2 ⟨hselect, htable, nofun, nofun, ?_, fun _ => ⟨rfl, fun _ => rfl⟩, hassignments,
    hreturning⟩, ?_, hleading⟩
  · exact fun hsome => absurd hsome (by simp [unclosed, ha])
  · simpa [addBranch] using hlock

/-- **What stands before the ordering.**  A branch more makes it longer by the operator and the branch, and what closes
the select is not in it. -/
theorem opening_addBranch (ha : q.aggregate = none) {f : Fragment} (h : (q.addBranch op b).opening p = .ok f) :
    q.lock = none ∧ ∃ g branch, q.opening p = .ok g ∧ q.unclosed.opening p = .ok g ∧ b.select p = .ok branch ∧
      f = g ++ (word (" " ++ op.keyword ++ " ") ++ branch) := by
  obtain ⟨hd, table, ht, joins, hj, filter, hw, having, hv, branches, hb, rfl⟩ := parted_eq_ok.1 h
  obtain ⟨old, new, hold, hnew, rfl⟩ := Branch.fragments_append_eq_ok.1 hb
  obtain ⟨-, branch, hbranch, rfl⟩ := Branch.fragments_singleton_eq_ok.1 hnew
  obtain ⟨hdefect, hdefect', hlock, hleading⟩ := selectDefect?_addBranch ha hd
  have hhead : q.unclosed.head p none = q.head p none := by
    have hnone : p.leading q.unclosed.limit q.unclosed.offset = [] := p.leading_none
    rw [head, head, hleading, hnone]
    rfl
  refine ⟨hlock, _, branch, parted_eq_ok.2 ⟨hdefect, table, ht, joins, hj, filter, hw, having, hv, old, hold, rfl⟩,
    parted_eq_ok.2 ⟨hdefect', table, ht, joins, hj, filter, hw, having, hv, old, hold, ?_⟩, hbranch, ?_⟩
  · rw [hhead]
    rfl
  · simp only [List.append_assoc]
    rfl

/-- A compiled select without an aggregate and a lock: what stands before its ordering, and what closes it. -/
theorem compile_of_opening (hq : q.action = .select) (ha : q.aggregate = none) (hlock : q.lock = none) {f : Fragment}
    (h : q.opening p = .ok f) :
    q.compile p = .ok ⟨text f ++ closingText p q.orders q.limit q.offset, params f⟩ := by
  have hclosing : text q.ordering ++ text (q.ending p) = closingText p q.orders q.limit q.offset := by
    rw [closingText, ← text_append, tail_eq, ending, ending, hlock]
    rfl
  rw [compile_eq_opening hq ha, h, ← hclosing, ← String.append_assoc]
  rfl

theorem closingText_none : closingText p [] none none = "" := by
  cases p <;> rfl

/-- **The ordering and the paging move behind the new branch.**  Where a select compiles with one more branch, the
branch compiles as a statement of its own, and so does the select without the branch, with what closes it and without.
What closes it is told by its ordering and its paging; it stands once, behind all branches, and the values of the
branch come last. -/
theorem compile_addBranch (p : Paging) (q b : Query) (op : SetOp) (hq : q.action = .select) (ha : q.aggregate = none)
    (s : Statement) (h : (q.addBranch op b).compile p = .ok s) :
    ∃ core branch : Statement, q.unclosed.compile p = .ok core ∧ b.compile p = .ok branch ∧
      q.compile p = .ok ⟨core.sql ++ closingText p q.orders q.limit q.offset, core.params⟩ ∧
      s.sql = core.sql ++ (match op with | .union => " union " | .unionAll => " union all ") ++ branch.sql ++
        closingText p q.orders q.limit q.offset ∧
      s.params = core.params ++ branch.params := by
  have hgrown : (q.addBranch op b).action = .select := hq
  obtain ⟨f, hf, -⟩ : ∃ f, (q.addBranch op b).opening p = .ok f ∧ _ := by
    rwa [compile_eq_opening hgrown ha, map_eq_pure_bind, bind_eq_ok] at h
  obtain ⟨hlock, g, branch, hopening, hcore, hbranch, rfl⟩ := opening_addBranch ha hf
  obtain ⟨hdefect, -⟩ := select_eq_ok.1 hbranch
  rw [compile_of_opening hgrown ha hlock hf] at h
  obtain rfl := Except.ok.inj h
  refine ⟨⟨text g, params g⟩, branch.statement, ?_, ?_, compile_of_opening hq ha hlock hopening, ?_, ?_⟩
  · rw [compile_of_opening (q := q.unclosed) hq ha rfl hcore]
    have hnothing : closingText p q.unclosed.orders q.unclosed.limit q.unclosed.offset = "" := closingText_none
    rw [hnothing, String.append_empty]
  · rw [compile_of_select (selectDefect?_eq_none.1 hdefect).1, hbranch]
    rfl
  · cases op <;> simp only [text_append, text_word, SetOp.keyword, Fragment.statement, String.append_assoc] <;> rfl
  · simp only [params_append, params_word, Fragment.statement, List.nil_append]

set_option maxRecDepth 4000

/-- One page of two tables, with a condition on the second. -/
def pagedUnion : Query where
  table := some (.named "orders")
  branches := [⟨.unionAll, { table := some (.named "refunds"), filter := some (.raw "price > ?" [.int 16]) }⟩]
  orders := [.column "price" .desc]
  limit := some 5
  offset := some 10

/-- A branch that has a branch itself. -/
def oldOrders : Query where
  table := some (.named "old_orders")
  filter := some (.raw "day < ?" [.int 3])
  branches := [⟨.union, { table := some (.named "lost_orders") }⟩]

theorem compile_addBranch_pagedUnion :
    (pagedUnion.addBranch .union oldOrders).compile .modern = .ok
      ⟨"select * from \"orders\" union all select * from \"refunds\" where price > ? union " ++
        "select * from \"old_orders\" where day < ? union select * from \"lost_orders\" " ++
        "order by \"price\" desc offset 10 rows fetch first 5 rows only", [.int 16, .int 3]⟩ ∧
    closingText .modern pagedUnion.orders (some 5) (some 10) =
      " order by \"price\" desc offset 10 rows fetch first 5 rows only" ∧
    ∃ core branch : Statement, pagedUnion.unclosed.compile .modern = .ok core ∧ oldOrders.compile .modern = .ok branch ∧
      pagedUnion.compile .modern =
        .ok ⟨core.sql ++ closingText .modern pagedUnion.orders (some 5) (some 10), core.params⟩ ∧
      [.int 16, .int 3] = core.params ++ branch.params := by
  have hgrown : (pagedUnion.addBranch .union oldOrders).compile .modern = .ok
      ⟨"select * from \"orders\" union all select * from \"refunds\" where price > ? union " ++
        "select * from \"old_orders\" where day < ? union select * from \"lost_orders\" " ++
        "order by \"price\" desc offset 10 rows fetch first 5 rows only", [.int 16, .int 3]⟩ := by rfl
  obtain ⟨core, branch, hcore, hbranch, hq, -, hparams⟩ :=
    compile_addBranch .modern pagedUnion oldOrders .union rfl rfl _ hgrown
  exact ⟨hgrown, by decide, core, branch, hcore, hbranch, hq, hparams⟩

end Query

end SqlQuery
