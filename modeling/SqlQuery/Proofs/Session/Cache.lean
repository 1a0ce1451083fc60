import SqlQuery.Proofs.Compiled
import SqlQuery.Proofs.Session.Log

/-!
# The version that a session keeps

A session asks its server for the version when it first needs it, and keeps a usable answer until another connection
comes.

* `Logged.answers`, `Logged.statements` — the two kinds of exchanges in a log;
* `Operation.KeepsVersion` — what one operation does with the kept version and with the server;
* `EngineVersion.firstTold?` — the version of the first usable answer;
* `Session.UsesOneVersion` — what a run without another connection does: all its statements are for one version;
* `Session.version_kept` — **every operation in every session, and every run**.
-/

namespace SqlQuery

variable {C : Type}

/-! ### What a log holds -/

def Exchange.answer? : Exchange → Option (Except Error String)
  | banner answer => some answer
  | statement _ => none

def Exchange.statement? : Exchange → Option Statement
  | banner _ => none
  | statement s => some s

namespace Logged

/-- What the server answered when it was asked for its banner, in the order of the questions. -/
def answers (c : Logged C) : List (Except Error String) :=
  c.log.filterMap Exchange.answer?

/-- The statements that were executed, in their order. -/
def statements (c : Logged C) : List Statement :=
  c.log.filterMap Exchange.statement?

end Logged

theorem filterMap_answer? (answers : List (Except Error String)) (statements : List Statement) :
    (answers.map Exchange.banner ++ statements.map Exchange.statement).filterMap Exchange.answer? = answers := by
  simp [List.filterMap_append, List.filterMap_map, Function.comp_def, Exchange.answer?]

theorem filterMap_statement? (answers : List (Except Error String)) (statements : List Statement) :
    (answers.map Exchange.banner ++ statements.map Exchange.statement).filterMap Exchange.statement? =
      statements := by
  simp [List.filterMap_append, List.filterMap_map, Function.comp_def, Exchange.statement?]

/-! ### Runs -/

/-- The session after some operations, failed ones included. -/
def Session.after [Connection C] (s : Session C) (ops : List (Operation C)) : Session C :=
  ops.foldl (fun s op => (op.step s).2) s

theorem Session.after_cons [Connection C] (s : Session C) (op : Operation C) (ops : List (Operation C)) :
    s.after (op :: ops) = (op.step s).2.after ops := rfl

theorem Session.after_append [Connection C] (s : Session C) (before later : List (Operation C)) :
    s.after (before ++ later) = (s.after before).after later :=
  List.foldl_append

/-- The version that the first usable answer tells. -/
def EngineVersion.firstTold? (answers : List (Except Error String)) : Option EngineVersion :=
  answers.findSome? fun answer => (ofAnswer answer).toOption

/-- An answer is usable if the server gave one, with something in it that reads as a version. -/
theorem EngineVersion.toOption_ofAnswer {answer : Except Error String} {v : EngineVersion} :
    (ofAnswer answer).toOption = some v ↔
      ∃ banner, answer = .ok banner ∧ Text.isBlankText banner = false ∧ ofBanner? banner = some v := by
  cases answer with
  | error e => simp [ofAnswer, Except.toOption]
  | ok banner =>
    cases hblank : Text.isBlankText banner <;> cases hv : ofBanner? banner <;>
      simp [ofAnswer, ofBanner, Except.toOption, hblank, hv]

theorem EngineVersion.firstTold?_append (answers later : List (Except Error String)) :
    firstTold? (answers ++ later) = (firstTold? answers).or (firstTold? later) :=
  List.findSome?_append

/-- The version that was found is kept. -/
theorem Session.carryOut_engineVersion_kept [Connection C] {s : Session C} {v : EngineVersion}
    (h : (s.carryOut engineVersion).1 = .ok v) : (s.carryOut engineVersion).2.version = some v := by
  rw [carryOut_engineVersion] at h ⊢
  cases hs : s.version with
  | some w =>
    simp only [hs] at h ⊢
    cases h
    rfl
  | none =>
    simp only [hs] at h ⊢
    rw [h]
    rfl

/-! ### The statements -/

namespace Operation

variable [Connection C]

/-- What one operation does with the version that a session keeps, and what it asks the server. -/
structure KeepsVersion (op : Operation (Logged C)) (s : Session (Logged C)) : Prop where
  /-- A version that is there stays, and nobody is asked. -/
  kept (v : EngineVersion) (hs : s.version = some v) (hop : op.replaces = false) :
    (op.step s).2.version = some v ∧ (op.step s).2.connection.answers = s.connection.answers
  /-- A version that is needed and not there is asked for once. -/
  asked (hs : s.version = none) (hop : op.needsVersion = true) :
    (op.step s).2.connection.answers =
      s.connection.answers ++ [(Connection.askBanner s.connection.connection).1]
  /-- A usable answer is kept, and no other. -/
  filled (hs : s.version = none) (hop : op.needsVersion = true) (v : EngineVersion) :
    (op.step s).2.version = some v ↔
      ∃ banner, (Connection.askBanner s.connection.connection).1 = .ok banner ∧
        Text.isBlankText banner = false ∧ EngineVersion.ofBanner? banner = some v
  failed (hs : s.version = none) (hop : op.needsVersion = true) (e : Error)
    (h : (Connection.askBanner s.connection.connection).1 = .error e) :
    (op.step s).1 = .error (.versionUnavailable (.failed e.message))
  blank (hs : s.version = none) (hop : op.needsVersion = true) (banner : String)
    (h : (Connection.askBanner s.connection.connection).1 = .ok banner)
    (hblank : Text.isBlankText banner = true) :
    (op.step s).1 = .error (.versionUnavailable .blank)
  unparseable (hs : s.version = none) (hop : op.needsVersion = true) (banner : String)
    (h : (Connection.askBanner s.connection.connection).1 = .ok banner)
    (hblank : Text.isBlankText banner = false) (hv : EngineVersion.ofBanner? banner = none) :
    (op.step s).1 = .error (.versionUnparseable banner)
  /-- A listing of columns and a refused write neither ask nor learn. -/
  idle (hop : (∃ table, op = .columns table) ∨ ∃ q, op = .select q ∧ q.action ≠ .select) :
    (op.step s).2.version = s.version ∧ (op.step s).2.connection.answers = s.connection.answers
  /-- Another connection comes as it is and without a version. -/
  replaced (c : Logged C) (hop : op = .replaceConnection c) :
    op.step s = (.ok (.connection s.connection), { connection := c, version := none })

/-- The operation compiles this statement: it has it executed, or gives it back. -/
def Issues (op : Operation (Logged C)) (s : Session (Logged C)) (statement : Statement) : Prop :=
  if op.sends then (op.step s).2.connection.statements = s.connection.statements ++ [statement]
  else (op.step s).1 = .ok (.statement statement)

end Operation

/-- What a run does in which no other connection comes: it ends with the version that was there or else with that of
the first usable answer, and every statement that is compiled on the way is compiled for that version. -/
def Session.UsesOneVersion [Connection C] (s : Session (Logged C)) (ops : List (Operation (Logged C))) : Prop :=
  ∃ told : List (Except Error String),
    (s.after ops).connection.answers = s.connection.answers ++ told ∧
    (s.after ops).version = s.version.or (EngineVersion.firstTold? told) ∧
    ∀ before op later, ops = before ++ op :: later →
      ∀ plan, op.plan? = some plan → ∀ statement, op.Issues (s.after before) statement →
        ∃ v, (s.after ops).version = some v ∧ plan (.ofVersion v) = .ok statement

/-! ### One operation -/

namespace Operation

section Steps

variable [Connection C] {op : Operation (Logged C)}

theorem step_answers (h : op.replaces = false) (s : Session (Logged C)) :
    (op.step s).2.connection.answers = s.connection.answers ++ op.asked s := by
  rw [Logged.answers, (step_log s h).1, List.append_assoc, List.filterMap_append, filterMap_answer?]
  rfl

theorem step_statements (h : op.replaces = false) (s : Session (Logged C)) :
    (op.step s).2.connection.statements = s.connection.statements ++ op.sent s := by
  rw [Logged.statements, (step_log s h).1, List.append_assoc, List.filterMap_append, filterMap_statement?]
  rfl

/-- Every operation keeps what it was told. -/
theorem step_version (h : op.replaces = false) (s : Session (Logged C)) :
    (op.step s).2.version = s.version.or (EngineVersion.firstTold? (op.asked s)) := by
  rw [(step_log s h).2, Session.carryOut_engineVersion]
  cases hs : s.version with
  | some v => cases op.needsVersion <;> simp [asked, hs, EngineVersion.firstTold?]
  | none =>
    cases hv : op.needsVersion <;> simp [asked, hs, hv, EngineVersion.firstTold?]

end Steps

/-- An operation that needs the version fails as the question for it fails. -/
theorem step_of_unresolved [Connection C] {op : Operation C} (hv : op.needsVersion = true) {s : Session C}
    {e : Error} (h : (s.carryOut Session.engineVersion).1 = .error e) : (op.step s).1 = .error e := by
  cases hp : op.plan? with
  | none =>
    obtain ⟨f, hstep⟩ := step_of_ask hv hp
    rw [hstep, h]
    rfl
  | some plan =>
    rw [step_of_plan hp]
    rcases hr : s.carryOut Session.engineVersion with ⟨e' | v, s'⟩ <;> rw [hr] at h
    · cases h
      rfl
    · cases h

variable [Connection C]

omit [Connection C] in
theorem replaces_of_needsVersion {op : Operation C} (h : op.needsVersion = true) : op.replaces = false := by
  cases op with
  | replaceConnection => cases h
  | _ => rfl

omit [Connection C] in
/-- An operation that compiles a statement needs the version. -/
theorem of_plan {op : Operation C} {plan : Paging → Except Error Statement} (h : op.plan? = some plan) :
    op.needsVersion = true ∧ op.replaces = false := by
  cases op with
  | select q =>
    rw [plan?] at h
    split at h
    · next hq => exact ⟨decide_eq_true hq, rfl⟩
    · cases h
  | engineVersion | paging | columns | replaceConnection => cases h
  | _ => exact ⟨rfl, rfl⟩

theorem keepsVersion (op : Operation (Logged C)) (s : Session (Logged C)) : op.KeepsVersion s := by
  have hunresolved : s.version = none → op.needsVersion = true →
      ∀ e, EngineVersion.ofAnswer (Connection.askBanner s.connection.connection).1 = .error e →
        (op.step s).1 = .error e := fun hs hop e he =>
    step_of_unresolved hop (by rw [Session.carryOut_engineVersion, hs]; exact he)
  have hasked : s.version = none → op.needsVersion = true →
      op.asked s = [(Connection.askBanner s.connection.connection).1] := fun hs hop => by
    rw [asked, hop, hs]
    rfl
  constructor
  case kept =>
    intro v hs hop
    have hnone : op.asked s = [] := by rw [asked, hs]; simp
    rw [step_version hop, step_answers hop, hnone, hs]
    exact ⟨rfl, List.append_nil _⟩
  case asked =>
    intro hs hop
    rw [step_answers (replaces_of_needsVersion hop), hasked hs hop]
  case filled =>
    intro hs hop v
    rw [step_version (replaces_of_needsVersion hop), hasked hs hop, hs, ← EngineVersion.toOption_ofAnswer]
    simp [EngineVersion.firstTold?]
  case failed =>
    intro hs hop e h
    exact hunresolved hs hop _ (by rw [h]; rfl)
  case blank =>
    intro hs hop banner h hblank
    exact hunresolved hs hop _ (by rw [h]; simp [EngineVersion.ofAnswer, hblank])
  case unparseable =>
    intro hs hop banner h hblank hv
    exact hunresolved hs hop _ (by rw [h]; simp [EngineVersion.ofAnswer, EngineVersion.ofBanner, hblank, hv])
  case idle =>
    intro hop
    have hidle : op.needsVersion = false ∧ op.replaces = false := by
      obtain ⟨table, rfl⟩ | ⟨q, rfl, hq⟩ := hop
      · exact ⟨rfl, rfl⟩
      · exact ⟨decide_eq_false hq, rfl⟩
    have hnone : op.asked s = [] := by rw [Operation.asked, hidle.1]; simp
    rw [step_version hidle.2, step_answers hidle.2, hnone]
    exact ⟨Option.or_none, List.append_nil _⟩
  case replaced =>
    rintro c rfl
    exact step_replaceConnection c s

/-- The version that was needed for a statement is the one that is kept afterwards. -/
theorem Issues.version {op : Operation (Logged C)} {plan : Paging → Except Error Statement}
    (hp : op.plan? = some plan) {s : Session (Logged C)} {statement : Statement} (h : op.Issues s statement) :
    ∃ v, (op.step s).2.version = some v ∧ plan (.ofVersion v) = .ok statement := by
  have hfacts := of_plan hp
  have hcompiled : ((s.carryOut Session.engineVersion).1 >>= fun v => plan (.ofVersion v)) = .ok statement := by
    unfold Issues at h
    split at h
    · next hsends =>
      rw [step_statements hfacts.2, List.append_cancel_left_eq, sent_of_plan hp, if_pos hsends] at h
      cases hr : ((s.carryOut Session.engineVersion).1 >>= fun v => plan (.ofVersion v)) with
      | error e => rw [hr] at h; cases h
      | ok statement' => rw [hr] at h; cases h; rfl
    · next hsends =>
      rw [step_of_plan hp] at h
      rcases hr : s.carryOut Session.engineVersion with ⟨e | v, s'⟩ <;> rw [hr] at h
      · cases h
      · cases hplan : plan (.ofVersion v) with
        | error e => simp only [hplan] at h; cases h
        | ok statement' =>
          simp only [hplan] at h
          rw [carryOut_finish_of_not_sends (Bool.eq_false_iff.2 hsends)] at h
          cases h
          exact hplan
  obtain ⟨v, hv, hplan⟩ := bind_eq_ok.1 hcompiled
  refine ⟨v, ?_, hplan⟩
  rw [(step_log s hfacts.2).2, if_pos hfacts.1]
  exact Session.carryOut_engineVersion_kept hv

end Operation

/-! ### Runs -/

section Runs

variable [Connection C]

/-- What a run was told. -/
theorem Session.after_told (s : Session (Logged C)) (ops : List (Operation (Logged C)))
    (h : ∀ op ∈ ops, op.replaces = false) :
    ∃ told, (s.after ops).connection.answers = s.connection.answers ++ told ∧
      (s.after ops).version = s.version.or (EngineVersion.firstTold? told) := by
  induction ops generalizing s with
  | nil => exact ⟨[], (List.append_nil _).symm, Option.or_none.symm⟩
  | cons op ops ih =>
    obtain ⟨hop, hops⟩ := List.forall_mem_cons.1 h
    obtain ⟨told, hanswers, hversion⟩ := ih (op.step s).2 hops
    refine ⟨op.asked s ++ told, ?_, ?_⟩
    · rw [after_cons, hanswers, Operation.step_answers hop, List.append_assoc]
    · rw [after_cons, hversion, Operation.step_version hop, Option.or_assoc, EngineVersion.firstTold?_append]

/-- A version that is kept stays through a run. -/
theorem Session.after_kept {s : Session (Logged C)} {v : EngineVersion} (hs : s.version = some v)
    {ops : List (Operation (Logged C))} (h : ∀ op ∈ ops, op.replaces = false) : (s.after ops).version = some v := by
  obtain ⟨told, -, hversion⟩ := s.after_told ops h
  rw [hversion, hs]
  rfl

theorem Session.usesOneVersion (s : Session (Logged C)) (ops : List (Operation (Logged C)))
    (h : ∀ op ∈ ops, op.replaces = false) : s.UsesOneVersion ops := by
  obtain ⟨told, hanswers, hversion⟩ := s.after_told ops h
  refine ⟨told, hanswers, hversion, ?_⟩
  rintro before op later rfl plan hp statement hissues
  obtain ⟨v, hv, hplan⟩ := hissues.version hp
  refine ⟨v, ?_, hplan⟩
  rw [after_append, after_cons]
  exact after_kept hv fun op' hmem => h op' (List.mem_append_right _ (List.mem_cons_of_mem _ hmem))

/-- **The version that a session keeps.**  In every session over any connection, every operation keeps the version
that is there, asks for one that it needs and keeps just a usable answer; another connection empties the session.  So
in a run between two such exchanges all statements are compiled for one version: that which was there at the start, or
else that of the first usable answer. -/
theorem Session.version_kept (s : Session (Logged C)) :
    (∀ op : Operation (Logged C), op.KeepsVersion s) ∧
      ∀ ops : List (Operation (Logged C)), (∀ op ∈ ops, op.replaces = false) → s.UsesOneVersion ops :=
  ⟨fun op => op.keepsVersion s, s.usesOneVersion⟩

end Runs

/-- A server that fails, then answers with a blank, and then tells an old version. -/
def slowServer : Script where
  banners := [.error (.connection "reset"), .ok " ", .ok "LI-V2.5.9.27139 Firebird 2.5"]
  replies := []

def firstPage : Query where
  table := some (.named "t")
  limit := some 10

def firstPageText : Statement where
  sql := "select first 10 * from \"t\""
  params := []

def slowSession : Session (Logged Script) where
  connection := { connection := slowServer }

/-- A run that needs the version four times and is told it the third time. -/
def slowRun : List (Operation (Logged Script)) :=
  [.engineVersion, .select { action := .delete }, .execute firstPage, .columns "T", .select firstPage,
    .compile firstPage]

theorem version_kept_slowServer :
    (Operation.engineVersion.step slowSession).1 =
        .error (.versionUnavailable (.failed "Connection error: reset")) ∧
      (slowSession.after slowRun).connection.answers.length = 3 ∧
      (Operation.compile firstPage).Issues (slowSession.after (slowRun.take 5)) firstPageText ∧
      ∃ v, (slowSession.after slowRun).version = some v ∧ firstPage.compile (.ofVersion v) = .ok firstPageText := by
  have hfailed := ((Session.version_kept slowSession).1 .engineVersion).failed rfl rfl (.connection "reset") rfl
  have hasked : (slowSession.after slowRun).connection.answers.length = 3 := by decide +kernel
  have hkept : (slowSession.after (slowRun.take 5)).version = some ⟨2, 5, 9⟩ := by decide +kernel
  have hissues : (Operation.compile firstPage).Issues (slowSession.after (slowRun.take 5)) firstPageText := by
    rw [Operation.Issues, if_neg (by decide), Operation.step_of_plan rfl, Session.carryOut_engineVersion, hkept]
    have hcompile : firstPage.compile (.ofVersion ⟨2, 5, 9⟩) = .ok firstPageText := by rfl
    simp only [hcompile]
    rfl
  obtain ⟨-, -, -, hone⟩ := (Session.version_kept slowSession).2 slowRun (by simp [slowRun, Operation.replaces])
  exact ⟨hfailed, hasked, hissues, hone (slowRun.take 5) _ [] rfl _ rfl _ hissues⟩

end SqlQuery
