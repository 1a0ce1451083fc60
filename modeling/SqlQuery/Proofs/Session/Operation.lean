import SqlQuery.Session

/-!
# The operations of a session

What can be asked of a session as data, and what each operation does in a session: whether it needs the version of
the server, which statement it compiles, and what it makes of the rows that come back.

* `Operation`, `Outcome`, `Operation.step` — an operation, and its outcome with the session after it;
* `Operation.needsVersion`, `Operation.plan?`, `Operation.sends`, `Operation.read` — what an operation does;
* `Session.carryOut_engineVersion` — asking for the version;
* `Operation.step_of_plan`, `Operation.step_columns` and three more — **what each operation does, in one equation
  for each way of working**; the proofs about sessions start from these.
-/

namespace SqlQuery

/-! ### Operations -/

/-- What can be asked of a session. -/
inductive Operation (C : Type) where
  | engineVersion
  | paging
  | compile (q : Query)
  | execute (q : Query)
  | select (q : Query)
  | count (q : Query)
  | rowExists (q : Query)
  | aggregate (q : Query) (a : Aggregate)
  | executeProcedure (name : String) (args : List Value)
  | columns (table : String)
  | replaceConnection (connection : C)

/-- What comes of an operation. -/
inductive Outcome (C : Type) where
  | version (v : EngineVersion)
  | paging (p : Paging)
  | statement (s : Statement)
  | rows (rows : List Row)
  | number (n : Int)
  | truth (b : Bool)
  | value (j : Json)
  | names (names : List String)
  | connection (c : C)

variable {C : Type}

/-- The result of some work in a session, and the session after it. -/
def Session.carryOut {α : Type} (s : Session C) (work : InSession C α) : Except Error α × Session C :=
  work.run.run s

namespace Operation

/-- The work of an operation. -/
def work [Connection C] : Operation C → InSession C (Outcome C)
  | engineVersion => .version <$> Session.engineVersion
  | paging => .paging <$> Session.paging
  | compile q => .statement <$> Session.compile q
  | execute q => .rows <$> Session.execute q
  | select q => .rows <$> Session.select q
  | count q => .number <$> Session.count q
  | rowExists q => .truth <$> Session.rowExists q
  | aggregate q a => .value <$> Session.aggregate q a
  | executeProcedure name args => .rows <$> Session.executeProcedure name args
  | columns table => .names <$> Session.columns table
  | replaceConnection connection => .connection <$> Session.replaceConnection connection

/-- The outcome of an operation, and the session after it. -/
def step [Connection C] (op : Operation C) (s : Session C) : Except Error (Outcome C) × Session C :=
  s.carryOut op.work

/-! ### What they do -/

/-- Whether the operation has to know the version of the server. -/
def needsVersion : Operation C → Bool
  | columns _ | replaceConnection _ => false
  | select q => q.action = .select
  | _ => true

/-- Whether the operation puts another connection in place. -/
def replaces : Operation C → Bool
  | replaceConnection _ => true
  | _ => false

/-- The statement that the operation compiles, as a function of the paging syntax. -/
def plan? : Operation C → Option (Paging → Except Error Statement)
  | compile q | execute q => some q.compile
  | select q => if q.action = .select then some q.compile else none
  | count q | rowExists q => some fun p => q.compileAggregate p .countRows
  | aggregate q a => some fun p => q.compileAggregate p a
  | executeProcedure name args => some (Query.ofProcedure name args).compile
  | engineVersion | paging | columns _ | replaceConnection _ => none

/-- Whether the operation has its statement executed. -/
def sends : Operation C → Bool
  | compile _ => false
  | _ => true

/-- What the operation makes of the rows of its statement. -/
def read (op : Operation C) (rows : List Row) : Except Error (Outcome C) :=
  match op with
  | count _ => .number <$> (aggregateValue rows >>= countOf)
  | rowExists _ => (fun n => .truth (0 < n)) <$> (aggregateValue rows >>= countOf)
  | aggregate _ _ => .value <$> aggregateValue rows
  | columns _ => .names <$> columnNames rows
  | _ => .ok (.rows rows)

end Operation

/-! ### Work in a session -/

namespace Session

variable {α β : Type} (s : Session C)

theorem carryOut_lift (r : Except Error α) : s.carryOut (lift r) = (r, s) := rfl

theorem carryOut_bind (x : InSession C α) (f : α → InSession C β) :
    s.carryOut (x >>= f) =
      match s.carryOut x with
      | (.ok a, s') => s'.carryOut (f a)
      | (.error e, s') => (.error e, s') := by
  unfold carryOut
  rw [ExceptT.run_bind, StateT.run_bind]
  rcases x.run.run s with ⟨_ | _, s'⟩ <;> rfl

theorem carryOut_map (f : α → β) (x : InSession C α) :
    s.carryOut (f <$> x) = ((s.carryOut x).1.map f, (s.carryOut x).2) := by
  unfold carryOut
  rw [ExceptT.run_map, StateT.run_map]
  rcases x.run.run s with ⟨_ | _, s'⟩ <;> rfl

section Requests

variable [Connection C]

theorem carryOut_run (statement : Statement) : s.carryOut (run statement) =
    ((Connection.execute s.connection statement).1,
      { s with connection := (Connection.execute s.connection statement).2 }) := rfl

/-- The version of the server: the one that is kept, or the one that the server tells now. -/
theorem carryOut_engineVersion : s.carryOut engineVersion =
    match s.version with
    | some v => (.ok v, s)
    | none =>
      let answer := Connection.askBanner s.connection
      (EngineVersion.ofAnswer answer.1,
        { connection := answer.2, version := (EngineVersion.ofAnswer answer.1).toOption }) := by
  rcases s with ⟨c, _ | v⟩
  · have hasked : ({ connection := c } : Session C).carryOut engineVersion =
        (lift (EngineVersion.ofAnswer (Connection.askBanner c).1) >>= fun v => do
          modify fun s => { s with version := some v }
          return v : InSession C EngineVersion).run.run { connection := (Connection.askBanner c).2 } := rfl
    rw [hasked]
    dsimp only
    cases EngineVersion.ofAnswer (Connection.askBanner c).1 <;> rfl
  · rfl

theorem carryOut_paging : s.carryOut paging =
    ((s.carryOut engineVersion).1.map .ofVersion, (s.carryOut engineVersion).2) :=
  carryOut_map s Paging.ofVersion engineVersion

end Requests

theorem lift_bind (x : Except Error α) (f : α → Except Error β) :
    (lift (x >>= f) : InSession C β) = lift x >>= fun a => lift (f a) := by
  cases x <;> rfl

theorem lift_map (f : α → β) (x : Except Error α) : (lift (f <$> x) : InSession C β) = f <$> lift x := by
  cases x <;> rfl

theorem lift_ok (a : α) : (lift (.ok a) : InSession C α) = pure a := rfl

end Session

namespace Operation

variable [Connection C]

/-- What remains to be done with a compiled statement. -/
def finish (op : Operation C) (statement : Statement) : InSession C (Outcome C) := do
  if op.sends then Session.lift (op.read (← Session.run statement)) else return .statement statement

/-- An operation that compiles a statement learns the version, compiles for it, and goes on with the statement. -/
theorem work_of_plan {op : Operation C} {plan : Paging → Except Error Statement} (h : op.plan? = some plan) :
    op.work = (do
      let p ← Session.paging
      let statement ← Session.lift (plan p)
      op.finish statement) := by
  cases op with
  | compile q =>
    obtain rfl := Option.some.inj h
    simp [work, Session.compile, finish, sends]
  | execute q =>
    obtain rfl := Option.some.inj h
    simp [work, Session.execute, Session.compile, finish, sends, read, Session.lift_ok]
  | select q =>
    rw [plan?] at h
    split at h
    · next hq =>
      obtain rfl := Option.some.inj h
      simp [work, Session.select, hq, Session.execute, Session.compile, finish, sends, read, Session.lift_ok]
    · cases h
  | count q =>
    obtain rfl := Option.some.inj h
    simp [work, Session.count, Session.aggregate, finish, sends, read, Session.lift_bind, Session.lift_map]
  | rowExists q =>
    obtain rfl := Option.some.inj h
    simp [work, Session.rowExists, Session.count, Session.aggregate, finish, sends, read, Session.lift_bind,
      Session.lift_map]
  | aggregate q a =>
    obtain rfl := Option.some.inj h
    simp [work, Session.aggregate, finish, sends, read, Session.lift_map]
  | executeProcedure name args =>
    obtain rfl := Option.some.inj h
    simp [work, Session.executeProcedure, Session.select, Query.ofProcedure, Query.ofTable, Session.execute,
      Session.compile, finish, sends, read, Session.lift_ok]
  | engineVersion | paging | columns | replaceConnection => cases h

theorem carryOut_finish_of_sends {op : Operation C} (h : op.sends = true) (statement : Statement) (s : Session C) :
    s.carryOut (op.finish statement) =
      ((Connection.execute s.connection statement).1.bind op.read,
        { s with connection := (Connection.execute s.connection statement).2 }) := by
  rw [finish, if_pos h, Session.carryOut_bind, Session.carryOut_run]
  rcases (Connection.execute s.connection statement).1 with e | rows <;> rfl

theorem carryOut_finish_of_not_sends {op : Operation C} (h : op.sends = false) (statement : Statement)
    (s : Session C) : s.carryOut (op.finish statement) = (.ok (.statement statement), s) := by
  rw [finish, h, if_neg Bool.false_ne_true]
  rfl

/-- The steps of an operation that compiles a statement. -/
theorem step_of_plan {op : Operation C} {plan : Paging → Except Error Statement} (h : op.plan? = some plan)
    (s : Session C) : op.step s =
      match s.carryOut Session.engineVersion with
      | (.ok v, s') =>
        match plan (.ofVersion v) with
        | .ok statement => s'.carryOut (op.finish statement)
        | .error e => (.error e, s')
      | (.error e, s') => (.error e, s') := by
  rw [step, work_of_plan h, Session.carryOut_bind, Session.carryOut_paging]
  cases s.carryOut Session.engineVersion with
  | mk r s' =>
    cases r with
    | error e => rfl
    | ok v =>
      simp only [Except.map]
      rw [Session.carryOut_bind, Session.carryOut_lift]
      cases plan (.ofVersion v) <;> rfl

/-- Asking for the version or the paging syntax is asking for the version. -/
theorem step_of_ask {op : Operation C} (hv : op.needsVersion = true) (hp : op.plan? = none) :
    ∃ f : EngineVersion → Outcome C, ∀ s, op.step s =
      ((s.carryOut Session.engineVersion).1.map f, (s.carryOut Session.engineVersion).2) := by
  cases op with
  | engineVersion => exact ⟨Outcome.version, fun s => s.carryOut_map Outcome.version Session.engineVersion⟩
  | paging =>
    refine ⟨fun v => .paging (.ofVersion v), fun s => ?_⟩
    rw [step, work, Session.carryOut_map, Session.carryOut_paging]
    rcases (s.carryOut Session.engineVersion).1 with e | v <;> rfl
  | select q =>
    rw [needsVersion, decide_eq_true_eq] at hv
    rw [plan?, if_pos hv] at hp
    cases hp
  | columns | replaceConnection => cases hv
  | compile | execute | count | rowExists | aggregate | executeProcedure => cases hp

/-- A write is refused by `select` before anything is asked. -/
theorem step_select_of_ne {q : Query} (h : q.action ≠ .select) (s : Session C) :
    (select q).step s = (.error (.malformedQuery (.readOnly q.action)), s) := by
  rw [step, work, Session.carryOut_map, Session.select, if_pos h]
  rfl

theorem step_columns (table : String) (s : Session C) : (columns table).step s =
    s.carryOut ((columns table).finish (columnListing table)) := by
  have hwork : (columns table : Operation C).work = (columns table).finish (columnListing table) := by
    simp [work, Session.columns, finish, sends, read, Session.lift_map]
  rw [step, hwork]

theorem step_replaceConnection (c : C) (s : Session C) :
    (replaceConnection c).step s = (.ok (.connection s.connection), { connection := c }) := rfl

/-- The ways in which operations work. -/
inductive Way (op : Operation C) : Prop where
  | compiling (plan : Paging → Except Error Statement) (h : op.plan? = some plan) (hv : op.needsVersion = true)
  | asking (hv : op.needsVersion = true) (hp : op.plan? = none)
  | refusing (q : Query) (h : op = select q) (hq : q.action ≠ .select)
  | listing (table : String) (h : op = columns table)
  | replacing (c : C) (h : op = replaceConnection c)

omit [Connection C] in
theorem way (op : Operation C) : op.Way := by
  cases op with
  | select q =>
    by_cases hq : q.action = .select
    · exact .compiling q.compile (if_pos hq) (decide_eq_true hq)
    · exact .refusing q rfl hq
  | columns table => exact .listing table rfl
  | replaceConnection c => exact .replacing c rfl
  | engineVersion | paging => exact .asking rfl rfl
  | compile | execute | count | rowExists | aggregate | executeProcedure => exact .compiling _ rfl rfl

end Operation

end SqlQuery
