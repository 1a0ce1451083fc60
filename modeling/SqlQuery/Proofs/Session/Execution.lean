import SqlQuery.Proofs.Reading.Chain
import SqlQuery.Proofs.Session.Cache

/-!
# What a session executes

A session has a statement executed only when the version is known and the whole statement has compiled; and what its
reading operations have executed is a select, whatever they are given.

* `Query.compile_select_prefix`, `Query.action_of_compileAggregate` — a compiled select begins as one; only a select
  can be reduced to an aggregate;
* `Operation.ExecutesSafely` — what one operation has executed, and when;
* `Operation.executes_safely` — **every operation in every session**;
* `Session.after_reading` — a run of reading operations.
-/

namespace SqlQuery

variable {p : Paging}

/-! ### Which statements are selects -/

theorem Query.compile_select_prefix {q : Query} {statement : Statement} (ha : q.action = .select)
    (h : q.compile p = .ok statement) : "select ".toList <+: statement.sql.toList := by
  obtain ⟨f, hf, rfl⟩ := Query.compile_eq_ok.1 h
  rw [Query.fragment, ha] at hf
  exact Query.select_prefix hf

/-- Only a select can be reduced to an aggregate: a write refuses the clause. -/
theorem Query.action_of_compileAggregate {q : Query} {a : Aggregate} {statement : Statement}
    (h : q.compileAggregate p a = .ok statement) : q.action = .select := by
  obtain ⟨f, hf, -⟩ := Query.compile_eq_ok.1 h
  have hrefused : (q.reduced a).readClause? ≠ none := fun hclause =>
    nomatch (Query.readClause?_eq_none.1 hclause).2.2.2.2.1
  cases haction : q.action with
  | select => rfl
  | insert =>
    rw [Query.fragment, show (q.reduced a).action = .insert from haction] at hf
    obtain ⟨_, _, _, hclause, _⟩ := Query.insertFragment_eq_ok.1 hf
    exact absurd hclause hrefused
  | update =>
    rw [Query.fragment, show (q.reduced a).action = .update from haction] at hf
    obtain ⟨_, _, _, hclause, _⟩ := Query.updateFragment_eq_ok.1 hf
    exact absurd hclause hrefused
  | delete =>
    rw [Query.fragment, show (q.reduced a).action = .delete from haction] at hf
    obtain ⟨_, _, _, hclause, _⟩ := Query.deleteFragment_eq_ok.1 hf
    exact absurd hclause hrefused

theorem columnListing_prefix (table : String) : "select ".toList <+: (columnListing table).sql.toList := by
  have hsql : (columnListing table).sql =
      "select " ++ ("trim(rdb$field_name) as \"column_name\" from rdb$relation_fields " ++
        "where rdb$relation_name = ? order by rdb$field_position") := rfl
  rw [hsql, String.toList_append]
  exact List.prefix_append _ _

/-! ### The statements -/

variable {C : Type}

namespace Operation

/-- The operations that are for selects only. -/
def reading : Operation C → Bool
  | select _ | count _ | rowExists _ | aggregate _ _ | executeProcedure _ _ | columns _ => true
  | engineVersion | paging | compile _ | execute _ | replaceConnection _ => false

/-- The query that a reading operation is given. -/
def readQuery? : Operation C → Option Query
  | select q | count q | rowExists q | aggregate q _ => some q
  | _ => none

theorem reading_of_readQuery {op : Operation C} {q : Query} (h : op.readQuery? = some q) : op.reading = true := by
  cases op with
  | select | count | rowExists | aggregate => rfl
  | engineVersion | paging | compile | execute | executeProcedure | columns | replaceConnection => cases h

theorem replaces_of_reading {op : Operation C} (h : op.reading = true) : op.replaces = false := by
  cases op with
  | replaceConnection => cases h
  | _ => rfl

variable [Connection C]

/-- The operation has just these statements executed, in this order. -/
def Executes (op : Operation (Logged C)) (s : Session (Logged C)) (statements : List Statement) : Prop :=
  (op.step s).2.connection.statements = s.connection.statements ++ statements

/-- What one operation has executed, and when. -/
structure ExecutesSafely (op : Operation (Logged C)) (s : Session (Logged C)) : Prop where
  /-- The server is asked at most once, and then it executes at most one statement. -/
  once (hop : op.replaces = false) : ∃ (asked : Option (Except Error String)) (sent : Option Statement),
    (op.step s).2.connection.log =
      s.connection.log ++ asked.toList.map .banner ++ sent.toList.map .statement
  /-- A statement is executed for the listing of columns, or when the version is known and it has compiled for it. -/
  licensed (hop : op.replaces = false) (statement : Statement) (h : op.Executes s [statement]) :
    (∃ table, op = .columns table ∧ statement = columnListing table) ∨
      ∃ plan v, op.plan? = some plan ∧ op.sends = true ∧ (s.carryOut Session.engineVersion).1 = .ok v ∧
        plan (.ofVersion v) = .ok statement
  /-- Without the version nothing is executed. -/
  unresolved (hop : op.needsVersion = true) (e : Error) (h : (s.carryOut Session.engineVersion).1 = .error e) :
    (op.step s).1 = .error e ∧ op.Executes s []
  /-- What does not compile is not executed. -/
  uncompiled (plan : Paging → Except Error Statement) (hop : op.plan? = some plan) (v : EngineVersion)
    (hv : (s.carryOut Session.engineVersion).1 = .ok v) (e : Error) (h : plan (.ofVersion v) = .error e) :
    (op.step s).1 = .error e ∧ op.Executes s []
  /-- What compiles is executed, unless it was just to be compiled. -/
  compiled (plan : Paging → Except Error Statement) (hop : op.plan? = some plan) (v : EngineVersion)
    (hv : (s.carryOut Session.engineVersion).1 = .ok v) (statement : Statement)
    (h : plan (.ofVersion v) = .ok statement) : op.Executes s (if op.sends then [statement] else [])
  /-- Columns are listed without a question for the version. -/
  listing (table : String) (hop : op = .columns table) :
    (op.step s).2.connection.log = s.connection.log ++ [.statement (columnListing table)]
  /-- What a reading operation has executed is a select. -/
  selects (hop : op.reading = true) (statement : Statement) (h : op.Executes s [statement]) :
    "select ".toList <+: statement.sql.toList
  /-- A reading operation refuses a write. -/
  refused (q : Query) (hop : op.readQuery? = some q) (hq : q.action ≠ .select) :
    (∃ e, (op.step s).1 = .error e) ∧ op.Executes s []
  /-- Another connection comes with what it has executed before. -/
  replaced (c : Logged C) (hop : op = .replaceConnection c) :
    op.step s = (.ok (.connection s.connection), { connection := c })

/-! ### One operation -/

theorem executes_iff {op : Operation (Logged C)} (hop : op.replaces = false) {s : Session (Logged C)}
    {statements : List Statement} : op.Executes s statements ↔ op.sent s = statements := by
  rw [Executes, step_statements hop, List.append_cancel_left_eq]

/-- What is sent was compiled for the version. -/
theorem sent_of_compiled {op : Operation C} {plan : Paging → Except Error Statement} (hop : op.plan? = some plan)
    {s : Session C} {v : EngineVersion} (hv : (s.carryOut Session.engineVersion).1 = .ok v) :
    op.sent s = if op.sends then (plan (.ofVersion v)).toOption.toList else [] := by
  rw [sent_of_plan hop, hv]
  rfl

theorem sent_of_unresolved {op : Operation C} (hop : op.needsVersion = true) {s : Session C} {e : Error}
    (h : (s.carryOut Session.engineVersion).1 = .error e) : op.sent s = [] := by
  cases hp : op.plan? with
  | none => exact sent_of_ask hop hp s
  | some plan =>
    rw [sent_of_plan hp, h]
    exact ite_self []

/-- A statement is sent for a reason. -/
theorem eq_of_sent {op : Operation C} {s : Session C} {statement : Statement} (h : statement ∈ op.sent s) :
    op.sent s = [statement] ∧
      ((∃ table, op = .columns table ∧ statement = columnListing table) ∨
        ∃ plan v, op.plan? = some plan ∧ op.sends = true ∧ (s.carryOut Session.engineVersion).1 = .ok v ∧
          plan (.ofVersion v) = .ok statement) := by
  cases op.way with
  | compiling plan hp hv =>
    cases hr : (s.carryOut Session.engineVersion).1 with
    | error e =>
      rw [sent_of_unresolved hv hr] at h
      cases h
    | ok v =>
      rw [sent_of_compiled hp hr] at h ⊢
      split at h
      · next hsends =>
        cases hplan : plan (.ofVersion v) with
        | error e =>
          rw [hplan] at h
          cases h
        | ok compiled =>
          rw [hplan] at h
          obtain rfl := List.mem_singleton.1 h
          rw [if_pos hsends]
          exact ⟨rfl, .inr ⟨plan, v, hp, hsends, rfl, hplan⟩⟩
      · cases h
  | asking hv hp =>
    rw [sent_of_ask hv hp] at h
    cases h
  | refusing q hop hq =>
    subst hop
    rw [sent_select_of_ne hq] at h
    cases h
  | listing table hop =>
    subst hop
    obtain rfl := List.mem_singleton.1 h
    exact ⟨rfl, .inl ⟨table, rfl, rfl⟩⟩
  | replacing c hop =>
    subst hop
    cases h

omit [Connection C] in
/-- A reading operation compiles selects only. -/
theorem select_of_plan {op : Operation C} (hop : op.reading = true) {plan : Paging → Except Error Statement}
    (hp : op.plan? = some plan) {statement : Statement} (h : plan p = .ok statement) :
    "select ".toList <+: statement.sql.toList ∧ ∀ q, op.readQuery? = some q → q.action = .select := by
  have haggregate : ∀ {q : Query} {a : Aggregate}, q.compileAggregate p a = .ok statement →
      "select ".toList <+: statement.sql.toList ∧ ∀ q', some q = some q' → q'.action = .select := by
    rintro q a hq
    have haction := Query.action_of_compileAggregate hq
    exact ⟨Query.compile_select_prefix (q := q.reduced a) haction hq, fun q' hq' => Option.some.inj hq' ▸ haction⟩
  cases op with
  | select q =>
    rw [plan?] at hp
    split at hp
    · next hq =>
      obtain rfl := Option.some.inj hp
      exact ⟨Query.compile_select_prefix hq h, fun q' hq' => Option.some.inj hq' ▸ hq⟩
    · cases hp
  | count q | rowExists q | aggregate q a =>
    obtain rfl := Option.some.inj hp
    exact haggregate h
  | executeProcedure name args =>
    obtain rfl := Option.some.inj hp
    exact ⟨Query.compile_select_prefix rfl h, fun q' hq' => by cases hq'⟩
  | engineVersion | paging | columns | replaceConnection => cases hp
  | compile | execute => cases hop

theorem prefix_of_sent {op : Operation C} (hop : op.reading = true) {s : Session C} {statement : Statement}
    (h : statement ∈ op.sent s) : "select ".toList <+: statement.sql.toList := by
  obtain ⟨-, ⟨table, -, rfl⟩ | ⟨plan, v, hp, -, -, hplan⟩⟩ := eq_of_sent h
  · exact columnListing_prefix table
  · exact (select_of_plan hop hp hplan).1

/-- An operation fails as its compilation fails. -/
theorem step_of_uncompiled {op : Operation C} {plan : Paging → Except Error Statement} (hop : op.plan? = some plan)
    {s : Session C} {v : EngineVersion} (hv : (s.carryOut Session.engineVersion).1 = .ok v) {e : Error}
    (h : plan (.ofVersion v) = .error e) : (op.step s).1 = .error e ∧ op.sent s = [] := by
  constructor
  · rw [step_of_plan hop]
    rcases hr : s.carryOut Session.engineVersion with ⟨r, s'⟩
    rw [hr] at hv
    subst hv
    simp only [h]
  · rw [sent_of_compiled hop hv, h]
    exact ite_self []

/-- A reading operation refuses a write: `select` by itself, and an aggregate because no write carries one. -/
theorem refuses_write {op : Operation C} {q : Query} (hop : op.readQuery? = some q) (hq : q.action ≠ .select)
    (s : Session C) : (∃ e, (op.step s).1 = .error e) ∧ op.sent s = [] := by
  cases op.way with
  | compiling plan hp hv =>
    cases hr : (s.carryOut Session.engineVersion).1 with
    | error e => exact ⟨⟨e, step_of_unresolved hv hr⟩, sent_of_unresolved hv hr⟩
    | ok v =>
      cases hplan : plan (.ofVersion v) with
      | error e =>
        obtain ⟨hstep, hsent⟩ := step_of_uncompiled hp hr hplan
        exact ⟨⟨e, hstep⟩, hsent⟩
      | ok statement => exact absurd ((select_of_plan (reading_of_readQuery hop) hp hplan).2 q hop) hq
  | asking hv hp =>
    cases op with
    | select q' =>
      rw [needsVersion, decide_eq_true_eq] at hv
      rw [plan?, if_pos hv] at hp
      cases hp
    | engineVersion | paging | columns | compile | execute | executeProcedure | replaceConnection => cases hop
    | count | rowExists | aggregate => cases hp
  | refusing q' hop' hq' =>
    subst hop'
    rw [step_select_of_ne hq']
    exact ⟨⟨_, rfl⟩, sent_select_of_ne hq' s⟩
  | listing table hop' =>
    subst hop'
    cases hop
  | replacing c hop' =>
    subst hop'
    cases hop

theorem executesSafely (op : Operation (Logged C)) (s : Session (Logged C)) : op.ExecutesSafely s := by
  constructor
  case once =>
    intro hop
    obtain ⟨asked, hasked⟩ : ∃ asked : Option (Except Error String), op.asked s = asked.toList := by
      rw [asked]
      split
      · exact ⟨some _, rfl⟩
      · exact ⟨none, rfl⟩
    obtain ⟨sent, hsent⟩ : ∃ sent : Option Statement, op.sent s = sent.toList := by
      cases hs : op.sent s with
      | nil => exact ⟨none, rfl⟩
      | cons statement rest =>
        have hone := (eq_of_sent (hs ▸ List.mem_cons_self : statement ∈ op.sent s)).1
        exact ⟨some statement, hs.symm.trans hone⟩
    exact ⟨asked, sent, by rw [(step_log s hop).1, hasked, hsent]⟩
  case licensed =>
    intro hop statement h
    rw [executes_iff hop] at h
    exact (eq_of_sent (h ▸ List.mem_singleton_self statement)).2
  case unresolved =>
    intro hop e h
    exact ⟨step_of_unresolved hop h, (executes_iff (replaces_of_needsVersion hop)).2 (sent_of_unresolved hop h)⟩
  case uncompiled =>
    intro plan hop v hv e h
    rw [executes_iff (of_plan hop).2]
    exact step_of_uncompiled hop hv h
  case compiled =>
    intro plan hop v hv statement h
    rw [executes_iff (of_plan hop).2, sent_of_compiled hop hv, h]
    rfl
  case listing =>
    rintro table rfl
    rw [(step_log s rfl).1]
    simp [asked, sent, needsVersion]
  case selects =>
    intro hop statement h
    rw [executes_iff (replaces_of_reading hop)] at h
    exact prefix_of_sent hop (h ▸ List.mem_singleton_self statement)
  case refused =>
    intro q hop hq
    rw [executes_iff (replaces_of_reading (reading_of_readQuery hop))]
    exact refuses_write hop hq s
  case replaced =>
    rintro c rfl
    exact step_replaceConnection c s

end Operation

/-! ### Runs -/

section Runs

variable [Connection C]

/-- A run of reading operations has selects executed and nothing else. -/
theorem Session.after_reading (s : Session (Logged C)) (ops : List (Operation (Logged C)))
    (h : ∀ op ∈ ops, op.reading = true) : ∃ sent,
      (s.after ops).connection.statements = s.connection.statements ++ sent ∧
        ∀ statement ∈ sent, "select ".toList <+: statement.sql.toList := by
  induction ops generalizing s with
  | nil => exact ⟨[], (List.append_nil _).symm, fun _ hmem => nomatch hmem⟩
  | cons op ops ih =>
    obtain ⟨hop, hops⟩ := List.forall_mem_cons.1 h
    obtain ⟨sent, hsent, hselects⟩ := ih (op.step s).2 hops
    refine ⟨op.sent s ++ sent, ?_, ?_⟩
    · rw [after_cons, hsent, Operation.step_statements (Operation.replaces_of_reading hop), List.append_assoc]
    · exact List.forall_mem_append.2 ⟨fun _ hmem => Operation.prefix_of_sent hop hmem, hselects⟩

/-- **What a session executes.**  In every session over any connection, an operation has at most one statement
executed, and only when the version is known and the whole statement has compiled for it; when one of the two fails,
so does the operation.  Runs of reading operations have selects executed only, whatever they are given. -/
theorem Session.executes_safely (s : Session (Logged C)) :
    (∀ op : Operation (Logged C), op.ExecutesSafely s) ∧
      ∀ ops : List (Operation (Logged C)), (∀ op ∈ ops, op.reading = true) → ∃ sent,
        (s.after ops).connection.statements = s.connection.statements ++ sent ∧
          ∀ statement ∈ sent, "select ".toList <+: statement.sql.toList :=
  ⟨fun op => op.executesSafely s, s.after_reading⟩

end Runs

/-- A session that knows its version. -/
def knowingSession : Session (Logged Script) where
  connection := { connection := { banners := [], replies := [.error (.connection "reset")] } }
  version := some ⟨4, 0, 1⟩

def firstPageFetched : Statement where
  sql := "select * from \"t\" fetch first 10 rows only"
  params := []

/-- A write among reads: it is refused, and the reads after it go on. -/
theorem executes_safely_knowingSession :
    (∃ e, ((Operation.count (.deleteFrom "t")).step knowingSession).1 = .error e) ∧
      (Operation.count (.deleteFrom "t")).Executes knowingSession [] ∧
      (Operation.select firstPage).Executes knowingSession [firstPageFetched] ∧
      "select ".toList <+: firstPageFetched.sql.toList ∧
      ∃ sent, (knowingSession.after [.count (.deleteFrom "t"), .select firstPage, .columns "T"]).connection.statements =
          knowingSession.connection.statements ++ sent ∧
        ∀ statement ∈ sent, "select ".toList <+: statement.sql.toList := by
  have hsafe := (Session.executes_safely knowingSession).1
  obtain ⟨hfails, hnothing⟩ := (hsafe (.count (.deleteFrom "t"))).refused _ rfl (by decide)
  have hsent : (Operation.select firstPage).Executes knowingSession [firstPageFetched] :=
    (hsafe (.select firstPage)).compiled firstPage.compile rfl ⟨4, 0, 1⟩ rfl firstPageFetched (by rfl)
  exact ⟨hfails, hnothing, hsent, (hsafe (.select firstPage)).selects rfl firstPageFetched hsent,
    (Session.executes_safely knowingSession).2 _ (by simp [Operation.reading])⟩

end SqlQuery
