import SqlQuery.Compile
import SqlQuery.Query.Build
import SqlQuery.Session.Result

/-!
# Sessions

A session is a connection with the version of its server, which is asked for when it is first needed
and kept from then on. A failure is not kept, so the next operation asks again; another connection
starts without a version.

* `Session.engineVersion` — the version, asked for at most once;
* `Session.execute`, `Session.select`, `Session.count` and the others — a query compiled for the
  server and run;
* `Session.replaceConnection` — another connection in place of the old one.

Every operation changes the session it runs in and may fail; what it changed stays changed then.
-/

namespace SqlQuery

open SqlQuery.Text

/-- A connection, and the version of its server once it is known. -/
structure Session (C : Type) where
  connection : C
  version : Option EngineVersion := none

/-- An operation in a session. -/
abbrev InSession (C : Type) := ExceptT Error (StateM (Session C))

/-- The version that a server's answer tells. -/
def EngineVersion.ofAnswer (answer : Except Error String) : Except Error EngineVersion :=
  match answer with
  | .error e => .error (.versionUnavailable (.failed e.message))
  | .ok banner =>
    if isBlankText banner then .error (.versionUnavailable .blank)
    else ofBanner banner

namespace Session

variable {C : Type} [Connection C]

/-- A result that does not touch the session. -/
def lift (r : Except Error α) : InSession C α :=
  ExceptT.mk (pure r)

/-- The server's answer when it is asked for its banner. -/
def askBanner : InSession C (Except Error String) := do
  let s ← get
  let (answer, connection) := Connection.askBanner s.connection
  set { s with connection }
  return answer

/-- Runs a statement. -/
def run (statement : Statement) : InSession C (List Row) := do
  let s ← get
  let (rows, connection) := Connection.execute s.connection statement
  set { s with connection }
  lift rows

/-- The version of the server. -/
def engineVersion : InSession C EngineVersion := do
  match (← get).version with
  | some v => return v
  | none =>
    let v ← lift (EngineVersion.ofAnswer (← askBanner))
    modify fun s => { s with version := some v }
    return v

/-- The paging syntax of the server. -/
def paging : InSession C Paging := do
  return Paging.ofVersion (← engineVersion)

/-- A query compiled for the server. -/
def compile (q : Query) : InSession C Statement := do
  lift (q.compile (← paging))

/-- Any query compiled and run. -/
def execute (q : Query) : InSession C (List Row) := do
  run (← compile q)

/-- A select compiled and run. -/
def select (q : Query) : InSession C (List Row) := do
  if q.action ≠ .select then throw (.malformedQuery (.readOnly q.action))
  execute q

/-- The value of an aggregate over a query. -/
def aggregate (q : Query) (a : Aggregate) : InSession C Json := do
  let statement ← lift (q.compileAggregate (← paging) a)
  lift (aggregateValue (← run statement))

/-- How many rows a query has. -/
def count (q : Query) : InSession C Int := do
  lift (countOf (← aggregate q .countRows))

/-- Whether a query has a row. -/
def rowExists (q : Query) : InSession C Bool := do
  return 0 < (← count q)

/-- The rows of a stored procedure. -/
def executeProcedure (name : String) (args : List Value) : InSession C (List Row) :=
  select (Query.ofProcedure name args)

/-- The columns of a table. The statement is the same for every server, so none is asked. -/
def columns (table : String) : InSession C (List String) := do
  lift (columnNames (← run (columnListing table)))

/-- Puts another connection in place; gives back the old one. -/
def replaceConnection (connection : C) : InSession C C := do
  let s ← get
  set { connection : Session C }
  return s.connection

/-- What is known of a version, field by field. -/
def describeVersion (v : EngineVersion) : String :=
  "EngineVersion \x7b major: " ++ toString v.major.toNat ++ ", minor: " ++ toString v.minor.toNat ++
    ", patch: " ++ toString v.patch.toNat ++ " \x7d"

/-- What is known of a session; the connection is left out. -/
def describe (s : Session C) : String :=
  let version :=
    match s.version with
    | none => "None"
    | some v => "Some(" ++ describeVersion v ++ ")"
  "Session \x7b version: " ++ version ++ ", .. \x7d"

end Session

end SqlQuery
