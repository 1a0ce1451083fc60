import SqlQuery.Json.Record
import SqlQuery.Number.Digits
import SqlQuery.Query

/-!
# Descriptions from JSON

How a query description is read. Fields that a query leaves out have their defaults, members of other
names are passed over, and a record may be an array of its fields.

* `Query.decode` — a query; `Value.decode`, `Filter.decode` and the others — its parts. The number is
  how many objects and arrays may stand inside each other; reading stops at the limit;
* `Reading` — what a reader allows.
-/

namespace SqlQuery

open SqlQuery.Json SqlQuery.Number SqlQuery.Calendar

/-- What a reader of descriptions allows. -/
structure Reading where
  /-- The content of a tagged record may be an array of its fields. -/
  positionalContent : Bool

/-- A whole number of 64 bits. -/
def Json.int64? : Json → Option Int
  | int n => if fitsInt64 n then some n else none
  | _ => none

/-- A finite double; whole numbers are taken too. -/
def Json.float? : Json → Option Float
  | int n => some (if n < 0 then -(n.natAbs.toUInt64.toFloat) else n.natAbs.toUInt64.toFloat)
  | float x => if x.isFinite then some x else none
  | _ => none

/-- A string that a reader of characters takes. -/
def Json.read (read : List Char → Option α) : Json → Option α
  | string s => read s.toList
  | _ => none

def Action.decode : Nat → Json → Option Action := enumerated all tag

def JoinKind.decode : Nat → Json → Option JoinKind := enumerated all tag

def SetOp.decode : Nat → Json → Option SetOp := enumerated all tag

def SortOrder.decode : Nat → Json → Option SortOrder := enumerated all tag

def Connective.decode : Nat → Json → Option Connective := enumerated all tag

def DatePart.decode : Nat → Json → Option DatePart := enumerated all tag

def AggregateFunc.decode : Nat → Json → Option AggregateFunc := enumerated all tag

namespace Column

def decode (r : Reading) : Nat → Json → Option Column
  | _, .string "star" => some star
  | n + 1, .object [⟨tag, content⟩] =>
    match tag with
    | "star" => match content with
      | .null => some star
      | _ => none
    | "named" => named <$> content.string?
    | "aliased" => match n with
      | 0 => none
      | _ + 1 => do
        let get ← content.record? r.positionalContent ["name", "alias"] 2
        return aliased (← required Json.string? (get "name")) (← required Json.string? (get "alias"))
    | "raw" => raw <$> content.string?
    | _ => none
  | _, _ => none

end Column

namespace OrderBy

def decode (r : Reading) : Nat → Json → Option OrderBy
  | _, .string "random" => some random
  | n + 1, .object [⟨tag, content⟩] =>
    match tag with
    | "random" => match content with
      | .null => some random
      | _ => none
    | "column" => match n with
      | 0 => none
      | n + 1 => do
        let get ← content.record? r.positionalContent ["column", "order"] 2
        return column (← required Json.string? (get "column"))
          (← required (SortOrder.decode n) (get "order"))
    | "raw" => raw <$> content.string?
    | _ => none
  | _, _ => none

end OrderBy

def Aggregate.decode : Nat → Json → Option Aggregate
  | 0, _ => none
  | n + 1, j => do
    let get ← j.record? true ["func", "column"] 2
    return ⟨← required (AggregateFunc.decode n) (get "func"), ← required Json.string? (get "column")⟩

namespace Lock

def decode : Nat → Json → Option Lock
  | _, .string "for_update" => some forUpdate
  | _ + 1, .object [⟨tag, content⟩] =>
    match tag with
    | "for_update" => match content with
      | .null => some forUpdate
      | _ => none
    | "raw" => raw <$> content.string?
    | _ => none
  | _, _ => none

end Lock

/-- The fields of a query, in their order. -/
def Query.fields : List String :=
  ["action", "table", "distinct", "columns", "joins", "filter", "groups", "having", "orders", "limit",
    "offset", "aggregate", "set_ops", "lock", "assignments", "returning"]

mutual

def Value.decode (r : Reading) : Nat → Json → Option Value
  | _, .string "null" => some .null
  | n + 1, .object [⟨tag, content⟩] =>
    match tag with
    | "null" => match content with
      | .null => some .null
      | _ => none
    | "bool" => .bool <$> content.bool?
    | "int" => .int <$> content.int64?
    | "float" => .float <$> content.float?
    | "string" => .string <$> content.string?
    | "date" => .date <$> content.read Date.read?
    | "time" => .time <$> content.read (Time.read? · false)
    | "timestamp" => .timestamp <$> content.read Timestamp.read?
    | "raw" => .raw <$> content.string?
    | "column" => .column <$> content.string?
    | "list" => .list <$> Value.decodes r n content
    | "subquery" => .subquery <$> Query.decode r n content
    | _ => none
  | _, _ => none

def Value.decodes (r : Reading) : Nat → Json → Option (List Value)
  | n + 1, .array items => items.mapM (Value.decode r n)
  | _, _ => none

def TableRef.decode (r : Reading) : Nat → Json → Option TableRef
  | n + 1, .object [⟨tag, content⟩] =>
    match tag with
    | "named" => .named <$> content.string?
    | "raw" => match n with
      | 0 => none
      | n + 1 => do
        let get ← content.record? r.positionalContent ["sql", "bindings"] 1
        return .raw (← required Json.string? (get "sql"))
          (← defaulted [] (Value.decodes r n) (get "bindings"))
    | "subquery" => match n with
      | 0 => none
      | n + 1 => do
        let get ← content.record? r.positionalContent ["query", "alias"] 2
        return .subquery (← required (Query.decode r n) (get "query"))
          (← Json.optional Json.string? (get "alias"))
    | "procedure" => match n with
      | 0 => none
      | n + 1 => do
        let get ← content.record? r.positionalContent ["name", "args"] 2
        return .procedure (← required Json.string? (get "name"))
          (← required (Value.decodes r n) (get "args"))
    | _ => none
  | _, _ => none

def Join.decode (r : Reading) : Nat → Json → Option Join
  | 0, _ => none
  | n + 1, j => do
    let get ← j.record? true ["kind", "table", "on"] 2
    return ⟨← required (JoinKind.decode n) (get "kind"), ← required (TableRef.decode r n) (get "table"),
      ← Json.optional (Filter.decode r n) (get "on")⟩

def Join.decodes (r : Reading) : Nat → Json → Option (List Join)
  | n + 1, .array items => items.mapM (Join.decode r n)
  | _, _ => none

def Filter.decode (r : Reading) : Nat → Json → Option Filter
  | n + 1, .object [⟨tag, content⟩] =>
    match tag with
    | "and" => .and <$> Filter.decodes r n content
    | "or" => .or <$> Filter.decodes r n content
    | "not" => .not <$> Filter.decode r n content
    | "predicate" => .predicate <$> Predicate.decode r n content
    | "raw" => match n with
      | 0 => none
      | n + 1 => do
        let get ← content.record? r.positionalContent ["sql", "bindings"] 1
        return .raw (← required Json.string? (get "sql"))
          (← defaulted [] (Value.decodes r n) (get "bindings"))
    | _ => none
  | _, _ => none

def Filter.decodes (r : Reading) : Nat → Json → Option (List Filter)
  | n + 1, .array items => items.mapM (Filter.decode r n)
  | _, _ => none

def Predicate.decode (r : Reading) : Nat → Json → Option Predicate
  | n + 2, .object [⟨tag, content⟩] =>
    match tag with
    | "compare" => do
      let get ← content.record? r.positionalContent ["column", "op", "value", "negated"] 3
      return .compare (← required Json.string? (get "column")) (← required Json.string? (get "op"))
        (← required (Value.decode r n) (get "value")) (← defaulted false Json.bool? (get "negated"))
    | "in" => do
      let get ← content.record? r.positionalContent ["column", "values", "negated"] 2
      return .isIn (← required Json.string? (get "column"))
        (← required (Value.decodes r n) (get "values")) (← defaulted false Json.bool? (get "negated"))
    | "in_subquery" => do
      let get ← content.record? r.positionalContent ["column", "query", "negated"] 2
      return .inSelect (← required Json.string? (get "column"))
        (← required (Query.decode r n) (get "query")) (← defaulted false Json.bool? (get "negated"))
    | "null" => do
      let get ← content.record? r.positionalContent ["column", "negated"] 1
      return .isNull (← required Json.string? (get "column"))
        (← defaulted false Json.bool? (get "negated"))
    | "date" => do
      let get ← content.record? r.positionalContent ["column", "part", "op", "value"] 4
      return .datePart (← required Json.string? (get "column"))
        (← required (DatePart.decode n) (get "part")) (← required Json.string? (get "op"))
        (← required (Value.decode r n) (get "value"))
    | "exists" => do
      let get ← content.record? r.positionalContent ["query", "negated"] 1
      return .rowExists (← required (Query.decode r n) (get "query"))
        (← defaulted false Json.bool? (get "negated"))
    | _ => none
  | _, _ => none

def Branch.decode (r : Reading) : Nat → Json → Option Branch
  | n + 1, .array [op, query] => do return ⟨← SetOp.decode n op, ← Query.decode r n query⟩
  | _, _ => none

def Branch.decodes (r : Reading) : Nat → Json → Option (List Branch)
  | n + 1, .array items => items.mapM (Branch.decode r n)
  | _, _ => none

def Assignment.decode (r : Reading) : Nat → Json → Option Assignment
  | n + 1, .array [column, value] => do return ⟨← column.string?, ← Value.decode r n value⟩
  | _, _ => none

def Assignment.decodes (r : Reading) : Nat → Json → Option (List Assignment)
  | n + 1, .array items => items.mapM (Assignment.decode r n)
  | _, _ => none

/-- A query; each field that is missing has its default. -/
def Query.decode (r : Reading) : Nat → Json → Option Query
  | n + 1, j => do
    let get ← j.record? true Query.fields 0
    return {
      action := ← defaulted .select (Action.decode n) (get "action")
      table := ← Json.optional (TableRef.decode r n) (get "table")
      distinct := ← defaulted false Json.bool? (get "distinct")
      columns := ← defaulted [] (listWithin (Column.decode r) n) (get "columns")
      joins := ← defaulted [] (Join.decodes r n) (get "joins")
      filter := ← Json.optional (Filter.decode r n) (get "filter")
      groups := ← defaulted [] (listWithin (Column.decode r) n) (get "groups")
      having := ← Json.optional (Filter.decode r n) (get "having")
      orders := ← defaulted [] (listWithin (OrderBy.decode r) n) (get "orders")
      limit := ← Json.optional Json.int64? (get "limit")
      offset := ← Json.optional Json.int64? (get "offset")
      aggregate := ← Json.optional (Aggregate.decode n) (get "aggregate")
      branches := ← defaulted [] (Branch.decodes r n) (get "set_ops")
      lock := ← Json.optional (Lock.decode n) (get "lock")
      assignments := ← defaulted [] (Assignment.decodes r n) (get "assignments")
      returning := ← defaulted [] (listWithin (fun _ => Json.string?) n) (get "returning") }
  | 0, _ => none

end

end SqlQuery
