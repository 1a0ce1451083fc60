import SqlQuery.Proofs.Compiled
import SqlQuery.Proofs.Session.Operation

/-!
# What an existence check makes of its probe

An existence check asks for a count, and the count comes as a field of the first row.  A server that groups the probe
and has no groups, or pages it past its one row, gives no row back; then there is no count to read.

* `Session.answerTo`, `Counts` — the answer to the statement of an operation, and the count that rows tell;
* `Operation.step_of_compiled` — an operation whose statement compiles is carried out by one statement;
* `Operation.rowExists_reads` — **what comes of an existence check**: an answer from a row that tells a count, and a
  failure without rows;
* `Operation.groupedProbe_fails` — the check of a query that nothing matches.
-/

namespace SqlQuery

variable {C : Type} [Connection C]

/-- What the connection answers to a statement, and the connection after it, once the version has been asked for. -/
def Session.answerTo (s : Session C) (statement : Statement) : Except Error (List Row) × C :=
  Connection.execute (s.carryOut engineVersion).2.connection statement

/-- The first row has the field of an aggregate, and its value stands for this integer. -/
def Counts (rows : List Row) (n : Int) : Prop :=
  ∃ row later value, rows = row :: later ∧ row.field? aggregateName = some value ∧ integerOf? value = some n

/-- The one member with this name, in whatever letters. -/
theorem Row.field?_of_filter {name : String} {row : Row} {m : Member}
    (h : (row.filter fun m => Text.sameLetters m.key name) = [m]) : row.field? name = some m.value := by
  rw [Row.field?, h, List.mergeSort_singleton]
  rfl

theorem countOf_eq_ok_iff {value : Json} {n : Int} : countOf value = .ok n ↔ integerOf? value = some n := by
  unfold countOf
  cases integerOf? value <;> simp

/-- A count is read from rows that tell it. -/
theorem counted_eq_ok_iff {rows : List Row} {n : Int} :
    (aggregateValue rows >>= countOf) = .ok n ↔ Counts rows n := by
  cases rows with
  | nil =>
    refine ⟨nofun, ?_⟩
    rintro ⟨row, later, value, h, -⟩
    cases h
  | cons row later =>
    unfold aggregateValue
    constructor
    · intro h
      dsimp only at h
      cases hfield : row.field? aggregateName with
      | none =>
        rw [hfield] at h
        cases h
      | some value =>
        rw [hfield] at h
        exact ⟨row, later, value, rfl, hfield, countOf_eq_ok_iff.1 h⟩
    · rintro ⟨row', later', value, hrows, hfield, hn⟩
      obtain ⟨rfl, rfl⟩ := List.cons.inj hrows
      simp only [hfield]
      exact countOf_eq_ok_iff.2 hn

namespace Operation

variable {s : Session C} {v : EngineVersion} {statement : Statement}

/-- **One statement** carries out an operation that compiles one: what comes of it is read from the rows. -/
theorem step_of_compiled {op : Operation C} {plan : Paging → Except Error Statement} (hop : op.plan? = some plan)
    (hsends : op.sends = true) (hv : (s.carryOut Session.engineVersion).1 = .ok v)
    (h : plan (.ofVersion v) = .ok statement) :
    op.step s = ((s.answerTo statement).1.bind op.read,
      { (s.carryOut Session.engineVersion).2 with connection := (s.answerTo statement).2 }) := by
  rw [step_of_plan hop, Session.answerTo]
  rcases hr : s.carryOut Session.engineVersion with ⟨r, s'⟩
  rw [hr] at hv
  subst hv
  simp only [h]
  exact carryOut_finish_of_sends hsends statement s'

omit [Connection C] in
theorem read_rowExists_eq_ok_iff {q : Query} {rows : List Row} {b : Bool} :
    (rowExists q : Operation C).read rows = .ok (.truth b) ↔ ∃ n, Counts rows n ∧ b = decide (0 < n) := by
  have hread : (rowExists q : Operation C).read rows =
      (aggregateValue rows >>= countOf).map fun n => .truth (decide (0 < n)) := rfl
  rw [hread]
  cases hn : aggregateValue rows >>= countOf with
  | error e =>
    refine ⟨nofun, ?_⟩
    rintro ⟨n, hcounts, -⟩
    rw [counted_eq_ok_iff.2 hcounts] at hn
    cases hn
  | ok n =>
    have hcounts := counted_eq_ok_iff.1 hn
    constructor
    · rintro ⟨⟩
      exact ⟨n, hcounts, rfl⟩
    · rintro ⟨m, hm, rfl⟩
      obtain rfl : n = m := Except.ok.inj (hn.symm.trans (counted_eq_ok_iff.2 hm))
      rfl

/-- **What comes of an existence check.**  When the version is known and the probe compiles, one statement is executed,
and the check has an answer exactly when the first row tells a count, which is then compared with zero.  Without rows
the check fails, and so does counting, while the aggregate is null; a failure of the connection is passed on. -/
theorem rowExists_reads (q : Query) (hv : (s.carryOut Session.engineVersion).1 = .ok v)
    (h : q.compileExists (.ofVersion v) = .ok statement) :
    ((rowExists q).step s).2 =
        { (s.carryOut Session.engineVersion).2 with connection := (s.answerTo statement).2 } ∧
      (∀ b, ((rowExists q).step s).1 = .ok (.truth b) ↔
        ∃ rows n, (s.answerTo statement).1 = .ok rows ∧ Counts rows n ∧ b = decide (0 < n)) ∧
      ((s.answerTo statement).1 = .ok [] →
        ((rowExists q).step s).1 = .error (.malformedRow (.countNotInteger "null")) ∧
          ((count q).step s).1 = .error (.malformedRow (.countNotInteger "null")) ∧
          ((aggregate q .countRows).step s).1 = .ok (.value .null)) ∧
      ∀ e, (s.answerTo statement).1 = .error e → ((rowExists q).step s).1 = .error e := by
  have hexists : (rowExists q).step s = _ := step_of_compiled rfl rfl hv h
  have hcount : (count q).step s = _ := step_of_compiled rfl rfl hv h
  have haggregate : (aggregate q .countRows).step s = _ := step_of_compiled rfl rfl hv h
  rw [hexists, hcount, haggregate]
  refine ⟨rfl, fun b => ?_, fun hnone => ?_, fun e he => ?_⟩
  · dsimp only
    constructor
    · intro hb
      obtain ⟨rows, hrows, hread⟩ := bind_eq_ok.1 hb
      obtain ⟨n, hn, rfl⟩ := read_rowExists_eq_ok_iff.1 hread
      exact ⟨rows, n, hrows, hn, rfl⟩
    · rintro ⟨rows, n, hrows, hn, rfl⟩
      exact bind_eq_ok.2 ⟨rows, hrows, read_rowExists_eq_ok_iff.2 ⟨n, hn, rfl⟩⟩
  · dsimp only
    rw [hnone]
    exact ⟨rfl, rfl, rfl⟩
  · dsimp only
    rw [he]
    rfl

/-- A session with a server of this version that gives these rows back. -/
def answering (v : EngineVersion) (rows : List Row) : Session Script where
  connection := { banners := [], replies := [.ok rows] }
  version := some v

/-- All users but the first ten. -/
def laterUsers : Query where
  table := some (.named "users")
  offset := some 10

/-- The probe counts before it skips, so a legacy server skips the count itself. -/
def laterUsersProbe : Statement where
  sql := "select skip 10 count(*) as \"aggregate\" from \"users\""
  params := []

set_option maxRecDepth 4000 in
/-- The same check with the count in the answer, as text and in the letters of the server, and without it. -/
theorem rowExists_reads_laterUsers : laterUsers.compileExists .legacy = .ok laterUsersProbe ∧
    Counts [[⟨"AGGREGATE", .string " 0 "⟩]] 0 ∧
    ((rowExists laterUsers).step (answering ⟨2, 5, 9⟩ [[⟨"AGGREGATE", .string " 0 "⟩]])).1 = .ok (.truth false) ∧
    ((rowExists laterUsers).step (answering ⟨2, 5, 9⟩ [])).1 = .error (.malformedRow (.countNotInteger "null")) := by
  have hprobe : laterUsers.compileExists .legacy = .ok laterUsersProbe := by rfl
  have hfield : Row.field? aggregateName [⟨"AGGREGATE", .string " 0 "⟩] = some (.string " 0 ") :=
    Row.field?_of_filter (m := ⟨"AGGREGATE", .string " 0 "⟩) (by rfl)
  have hcount : Counts [[⟨"AGGREGATE", .string " 0 "⟩]] 0 := ⟨_, _, _, rfl, hfield, by rfl⟩
  obtain ⟨-, hanswer, -, -⟩ := rowExists_reads (s := answering ⟨2, 5, 9⟩ [[⟨"AGGREGATE", .string " 0 "⟩]])
    (v := ⟨2, 5, 9⟩) laterUsers rfl hprobe
  obtain ⟨-, -, hnone, -⟩ := rowExists_reads (s := answering ⟨2, 5, 9⟩ []) (v := ⟨2, 5, 9⟩) laterUsers rfl hprobe
  exact ⟨hprobe, hcount, (hanswer false).2 ⟨_, 0, rfl, hcount, rfl⟩, (hnone rfl).1⟩

/-- The customers who have orders. -/
def orderingCustomers : Query where
  table := some (.named "orders")
  groups := [.named "user_id"]

/-- The probe keeps the groups, so without orders it has no row, and the check fails instead of being false. -/
theorem groupedProbe_fails :
    ((answering ⟨4, 0, 1⟩ []).carryOut Session.engineVersion).1 = .ok ⟨4, 0, 1⟩ ∧
    orderingCustomers.compileExists (.ofVersion ⟨4, 0, 1⟩) =
      .ok ⟨"select count(*) as \"aggregate\" from \"orders\" group by \"user_id\"", []⟩ ∧
    ((answering ⟨4, 0, 1⟩ []).answerTo
      ⟨"select count(*) as \"aggregate\" from \"orders\" group by \"user_id\"", []⟩).1 = .ok [] ∧
    ((rowExists orderingCustomers).step (answering ⟨4, 0, 1⟩ [])).1 ≠ .ok (.truth false) ∧
    ((rowExists orderingCustomers).step (answering ⟨4, 0, 1⟩ [])).1 =
      .error (.malformedRow (.countNotInteger "null")) := by
  have hstep : ((rowExists orderingCustomers).step (answering ⟨4, 0, 1⟩ [])).1 =
      .error (.malformedRow (.countNotInteger "null")) := by rfl
  refine ⟨rfl, by rfl, rfl, ?_, hstep⟩
  rw [hstep]
  exact nofun

end Operation

end SqlQuery
