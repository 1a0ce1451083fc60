import SqlQuery.Proofs.Session.Operation

/-!
# What a session says to its server

A connection that writes down what passes over it: the answers to the question for the banner, and the statements
that were executed.  Sessions over such connections show how often a server was asked, and for what.

* `Logged` — a connection of any kind with its log; `Session.forget`, `Operation.step_forget` — **no operation
  notices that there is a log**, so what holds over logged connections holds over all;
* `Operation.asked`, `Operation.sent` — what an operation asks its server for;
* `Operation.step_log` — **the log and the kept version after an operation**.
-/

namespace SqlQuery

/-- What passes over a connection. -/
inductive Exchange where
  | banner (answer : Except Error String)
  | statement (s : Statement)

/-- A connection with the log of what passed over it, in its order. -/
structure Logged (C : Type) where
  connection : C
  log : List Exchange := []

section Connections

variable {C : Type} [Connection C]

instance : Connection (Logged C) where
  askBanner c :=
    let answer := Connection.askBanner c.connection
    (answer.1, { connection := answer.2, log := c.log ++ [.banner answer.1] })
  execute c statement :=
    let reply := Connection.execute c.connection statement
    (reply.1, { connection := reply.2, log := c.log ++ [.statement statement] })

theorem execute_logged (c : Logged C) (statement : Statement) : Connection.execute c statement =
    ((Connection.execute c.connection statement).1,
      { connection := (Connection.execute c.connection statement).2
        log := c.log ++ [.statement statement] }) := rfl

end Connections

/-! ### Without the log -/

section Forgetting

variable {C D : Type}

def Operation.map (f : C → D) : Operation C → Operation D
  | engineVersion => engineVersion
  | paging => paging
  | compile q => compile q
  | execute q => execute q
  | select q => select q
  | count q => count q
  | rowExists q => rowExists q
  | aggregate q a => aggregate q a
  | executeProcedure name args => executeProcedure name args
  | columns table => columns table
  | replaceConnection c => replaceConnection (f c)

def Outcome.map (f : C → D) : Outcome C → Outcome D
  | version v => version v
  | paging p => paging p
  | statement s => statement s
  | rows l => rows l
  | number n => number n
  | truth b => truth b
  | value j => value j
  | names l => names l
  | connection c => connection (f c)

/-- The session without the log of its connection. -/
def Session.forget (s : Session (Logged C)) : Session C :=
  { connection := s.connection.connection, version := s.version }

namespace Operation

theorem plan?_map (f : C → D) (op : Operation C) : (op.map f).plan? = op.plan? := by
  cases op <;> rfl

theorem read_map (op : Operation (Logged C)) (rows : List Row) :
    (op.map Logged.connection).read rows = (op.read rows).map (Outcome.map Logged.connection) := by
  cases op with
  | count | rowExists =>
    simp only [map, read]
    cases aggregateValue rows >>= countOf <;> rfl
  | aggregate =>
    simp only [map, read]
    cases aggregateValue rows <;> rfl
  | columns =>
    simp only [map, read]
    cases columnNames rows <;> rfl
  | _ => rfl

end Operation

variable [Connection C] (s : Session (Logged C))

theorem Session.carryOut_engineVersion_forget : s.forget.carryOut engineVersion =
    ((s.carryOut engineVersion).1, (s.carryOut engineVersion).2.forget) := by
  rw [carryOut_engineVersion, carryOut_engineVersion]
  rcases s with ⟨c, _ | v⟩ <;> rfl

namespace Operation

theorem carryOut_finish_forget (op : Operation (Logged C)) (statement : Statement) :
    s.forget.carryOut ((op.map Logged.connection).finish statement) =
      ((s.carryOut (op.finish statement)).1.map (Outcome.map Logged.connection),
        (s.carryOut (op.finish statement)).2.forget) := by
  have hsends : (op.map Logged.connection).sends = op.sends := by cases op <;> rfl
  cases h : op.sends with
  | false =>
    rw [carryOut_finish_of_not_sends h, carryOut_finish_of_not_sends (hsends.trans h)]
    rfl
  | true =>
    rw [carryOut_finish_of_sends h, carryOut_finish_of_sends (hsends.trans h), execute_logged]
    simp only [Session.forget, Prod.mk.injEq, and_true]
    cases (Connection.execute s.connection.connection statement).1 with
    | error e => rfl
    | ok rows => exact read_map op rows

/-- **No operation notices that there is a log.** -/
theorem step_forget (op : Operation (Logged C)) : (op.map Logged.connection).step s.forget =
    ((op.step s).1.map (Outcome.map Logged.connection), (op.step s).2.forget) := by
  cases hp : op.plan? with
  | some plan =>
    rw [step_of_plan hp, step_of_plan ((plan?_map _ op).trans hp), Session.carryOut_engineVersion_forget]
    rcases s.carryOut Session.engineVersion with ⟨e | v, s'⟩
    · rfl
    · cases hplan : plan (.ofVersion v) with
      | error e => simp only [hplan]; rfl
      | ok statement =>
        simp only [hplan]
        exact carryOut_finish_forget s' op statement
  | none =>
    cases op with
    | engineVersion =>
      rw [map, step, work, Session.carryOut_map, Session.carryOut_engineVersion_forget, step, work,
        Session.carryOut_map]
      cases (s.carryOut Session.engineVersion).1 <;> rfl
    | paging =>
      rw [map, step, work, Session.carryOut_map, Session.carryOut_paging, Session.carryOut_engineVersion_forget,
        step, work, Session.carryOut_map, Session.carryOut_paging]
      cases (s.carryOut Session.engineVersion).1 <;> rfl
    | select q =>
      have hq : q.action ≠ .select := fun hq => by
        rw [plan?, if_pos hq] at hp
        cases hp
      rw [map, step_select_of_ne hq, step_select_of_ne hq]
      rfl
    | columns table =>
      rw [map, step_columns, step_columns]
      exact carryOut_finish_forget s (columns table) (columnListing table)
    | replaceConnection c => rfl
    | compile | execute | count | rowExists | aggregate | executeProcedure => cases hp

end Operation

end Forgetting

/-! ### The log of an operation -/

section Logs

variable {C : Type} [Connection C]

namespace Operation

/-- The answers that an operation asks its server for. -/
def asked (op : Operation C) (s : Session C) : List (Except Error String) :=
  if op.needsVersion && s.version.isNone then [(Connection.askBanner s.connection).1] else []

/-- The statements that an operation has its server execute: the one that it compiled, if it needs one and learned
the version, or the listing of columns. -/
def sent (op : Operation C) (s : Session C) : List Statement :=
  match op with
  | columns table => [columnListing table]
  | op =>
    if op.sends then
      (op.plan?.bind fun plan =>
        ((s.carryOut Session.engineVersion).1 >>= fun v => plan (.ofVersion v)).toOption).toList
    else []

end Operation

variable (s : Session (Logged C))

theorem Session.engineVersion_log : (s.carryOut engineVersion).2.connection.log =
    s.connection.log ++ ((Operation.engineVersion : Operation (Logged C)).asked s).map .banner := by
  rw [carryOut_engineVersion]
  rcases s with ⟨c, _ | v⟩
  · rfl
  · exact (List.append_nil _).symm

theorem Operation.finish_log (op : Operation (Logged C)) (statement : Statement) :
    (s.carryOut (op.finish statement)).2.connection.log =
        s.connection.log ++ (if op.sends then [statement] else []).map .statement ∧
      (s.carryOut (op.finish statement)).2.version = s.version := by
  cases h : op.sends with
  | true =>
    rw [carryOut_finish_of_sends h, execute_logged]
    exact ⟨rfl, rfl⟩
  | false =>
    rw [carryOut_finish_of_not_sends h]
    exact ⟨(List.append_nil _).symm, rfl⟩

namespace Operation

theorem asked_of_needsVersion {op : Operation C} (h : op.needsVersion = true) (s : Session C) :
    op.asked s = (engineVersion : Operation C).asked s := by
  rw [asked, asked, h]
  rfl

theorem sent_of_plan {op : Operation C} {plan : Paging → Except Error Statement} (h : op.plan? = some plan)
    (s : Session C) : op.sent s =
      if op.sends then ((s.carryOut Session.engineVersion).1 >>= fun v => plan (.ofVersion v)).toOption.toList
      else [] := by
  cases op with
  | columns => cases h
  | _ => simp [sent, h]

theorem sent_of_ask {op : Operation C} (hv : op.needsVersion = true) (hp : op.plan? = none) (s : Session C) :
    op.sent s = [] := by
  cases op with
  | columns => cases hv
  | _ => simp [sent, hp]

theorem sent_select_of_ne {q : Query} (hq : q.action ≠ .select) (s : Session C) : (select q).sent s = [] := by
  simp [sent, plan?, hq]

/-- **What an operation says to its server, and what the session keeps**: the operation asks for the banner when it
needs the version and does not have it, and then sends its statement; the session keeps what it learned. -/
theorem step_log {op : Operation (Logged C)} (h : op.replaces = false) :
    (op.step s).2.connection.log =
        s.connection.log ++ (op.asked s).map .banner ++ (op.sent s).map .statement ∧
      (op.step s).2.version =
        if op.needsVersion then (s.carryOut Session.engineVersion).2.version else s.version := by
  cases op.way with
  | compiling plan hp hv =>
    rw [asked_of_needsVersion hv, ← Session.engineVersion_log, step_of_plan hp, sent_of_plan hp, hv, if_pos rfl]
    rcases s.carryOut Session.engineVersion with ⟨e | v, s'⟩
    · exact ⟨by simp [bind, Except.bind, Except.toOption], rfl⟩
    · cases hplan : plan (.ofVersion v) with
      | error e => simp [bind, Except.bind, Except.toOption, hplan]
      | ok statement => simpa [bind, Except.bind, Except.toOption, hplan] using op.finish_log s' statement
  | asking hv hp =>
    obtain ⟨f, hstep⟩ := step_of_ask hv hp
    rw [asked_of_needsVersion hv, ← Session.engineVersion_log, hstep, sent_of_ask hv hp, hv]
    exact ⟨(List.append_nil _).symm, rfl⟩
  | refusing q hop hq =>
    subst hop
    rw [step_select_of_ne hq, sent_select_of_ne hq, asked, needsVersion, decide_eq_false hq]
    exact ⟨by simp, rfl⟩
  | listing table hop =>
    subst hop
    rw [step_columns, asked, needsVersion, Bool.false_and, if_neg Bool.false_ne_true, List.map_nil,
      List.append_nil]
    exact finish_log s (columns table) (columnListing table)
  | replacing c hop =>
    subst hop
    cases h

end Operation

end Logs

end SqlQuery
