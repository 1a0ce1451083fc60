import SqlQuery.Fragment
import SqlQuery.Json.Basic

/-!
# Descriptions as JSON

How a query description is written. A choice between kinds is an object with one member, whose key
names the kind, or a string where the kind has no content; everything else is an object with all of
its fields in their order.

* `Query.encode` — a query; `Value.encode`, `Filter.encode` and the others — its parts.
-/

namespace SqlQuery

open SqlQuery.Json

/-- An object with one member. -/
def Json.tagged (tag : String) (content : Json) : Json :=
  .object [⟨tag, content⟩]

/-- An optional value, null if there is none. -/
def Json.orNull (j : Option Json) : Json :=
  j.getD .null

/-- A text. -/
def Json.chars (s : List Char) : Json :=
  .string (String.ofList s)

namespace Column

def encode : Column → Json
  | star => .string "star"
  | named name => .tagged "named" (.string name)
  | aliased name label =>
    .tagged "aliased" (.object [⟨"name", .string name⟩, ⟨"alias", .string label⟩])
  | raw sql => .tagged "raw" (.string sql)

end Column

namespace OrderBy

def encode : OrderBy → Json
  | column c order =>
    .tagged "column" (.object [⟨"column", .string c⟩, ⟨"order", .string order.tag⟩])
  | raw sql => .tagged "raw" (.string sql)
  | random => .string "random"

end OrderBy

def Aggregate.encode (a : Aggregate) : Json :=
  .object [⟨"func", .string a.func.tag⟩, ⟨"column", .string a.column⟩]

namespace Lock

def encode : Lock → Json
  | forUpdate => .string "for_update"
  | raw sql => .tagged "raw" (.string sql)

end Lock

mutual

def Value.encode : Value → Json
  | .null => .string "null"
  | .bool b => .tagged "bool" (.bool b)
  | .int n => .tagged "int" (.int n)
  | .float x => .tagged "float" (.float x)
  | .string s => .tagged "string" (.string s)
  | .date d => .tagged "date" (.chars d.text)
  | .time t => .tagged "time" (.chars t.text)
  | .timestamp t => .tagged "timestamp" (.chars t.text)
  | .raw sql => .tagged "raw" (.string sql)
  | .column name => .tagged "column" (.string name)
  | .list items => .tagged "list" (.array (Value.encodes items))
  | .subquery q => .tagged "subquery" q.encode

def Value.encodes : List Value → List Json
  | [] => []
  | v :: vs => v.encode :: Value.encodes vs

def TableRef.encode : TableRef → Json
  | .named name => .tagged "named" (.string name)
  | .raw sql bindings =>
    .tagged "raw" (.object [⟨"sql", .string sql⟩, ⟨"bindings", .array (Value.encodes bindings)⟩])
  | .subquery q label =>
    .tagged "subquery" (.object [⟨"query", q.encode⟩, ⟨"alias", .orNull (label.map .string)⟩])
  | .procedure name args =>
    .tagged "procedure" (.object [⟨"name", .string name⟩, ⟨"args", .array (Value.encodes args)⟩])

def TableRef.encodeOptional : Option TableRef → Json
  | none => .null
  | some t => t.encode

def Join.encode : Join → Json
  | ⟨kind, table, on⟩ =>
    .object [⟨"kind", .string kind.tag⟩, ⟨"table", table.encode⟩, ⟨"on", Filter.encodeOptional on⟩]

def Join.encodes : List Join → List Json
  | [] => []
  | j :: js => j.encode :: Join.encodes js

def Filter.encode : Filter → Json
  | .and children => .tagged "and" (.array (Filter.encodes children))
  | .or children => .tagged "or" (.array (Filter.encodes children))
  | .not inner => .tagged "not" inner.encode
  | .predicate c => .tagged "predicate" c.encode
  | .raw sql bindings =>
    .tagged "raw" (.object [⟨"sql", .string sql⟩, ⟨"bindings", .array (Value.encodes bindings)⟩])

def Filter.encodes : List Filter → List Json
  | [] => []
  | f :: fs => f.encode :: Filter.encodes fs

def Filter.encodeOptional : Option Filter → Json
  | none => .null
  | some f => f.encode

def Predicate.encode : Predicate → Json
  | .compare column op value negated =>
    .tagged "compare" (.object
      [⟨"column", .string column⟩, ⟨"op", .string op⟩, ⟨"value", value.encode⟩,
        ⟨"negated", .bool negated⟩])
  | .isIn column values negated =>
    .tagged "in" (.object
      [⟨"column", .string column⟩, ⟨"values", .array (Value.encodes values)⟩,
        ⟨"negated", .bool negated⟩])
  | .inSelect column q negated =>
    .tagged "in_subquery" (.object
      [⟨"column", .string column⟩, ⟨"query", q.encode⟩, ⟨"negated", .bool negated⟩])
  | .isNull column negated =>
    .tagged "null" (.object [⟨"column", .string column⟩, ⟨"negated", .bool negated⟩])
  | .datePart column part op value =>
    .tagged "date" (.object
      [⟨"column", .string column⟩, ⟨"part", .string part.tag⟩, ⟨"op", .string op⟩,
        ⟨"value", value.encode⟩])
  | .rowExists q negated =>
    .tagged "exists" (.object [⟨"query", q.encode⟩, ⟨"negated", .bool negated⟩])

def Branch.encodes : List Branch → List Json
  | [] => []
  | ⟨op, q⟩ :: bs => .array [.string op.tag, q.encode] :: Branch.encodes bs

def Assignment.encodes : List Assignment → List Json
  | [] => []
  | ⟨column, value⟩ :: as => .array [.string column, value.encode] :: Assignment.encodes as

/-- A query with all of its fields. -/
def Query.encode : Query → Json
  | ⟨action, table, distinct, columns, joins, filter, groups, having, orders, limit, offset, aggregate,
      branches, lock, assignments, returning⟩ =>
    .object
      [⟨"action", .string action.tag⟩,
        ⟨"table", TableRef.encodeOptional table⟩,
        ⟨"distinct", .bool distinct⟩,
        ⟨"columns", .array (columns.map Column.encode)⟩,
        ⟨"joins", .array (Join.encodes joins)⟩,
        ⟨"filter", Filter.encodeOptional filter⟩,
        ⟨"groups", .array (groups.map Column.encode)⟩,
        ⟨"having", Filter.encodeOptional having⟩,
        ⟨"orders", .array (orders.map OrderBy.encode)⟩,
        ⟨"limit", .orNull (limit.map .int)⟩,
        ⟨"offset", .orNull (offset.map .int)⟩,
        ⟨"aggregate", .orNull (aggregate.map Aggregate.encode)⟩,
        ⟨"set_ops", .array (Branch.encodes branches)⟩,
        ⟨"lock", .orNull (lock.map Lock.encode)⟩,
        ⟨"assignments", .array (Assignment.encodes assignments)⟩,
        ⟨"returning", .array (returning.map .string)⟩]

end

/-- A statement with its parameters. -/
def Statement.encode (s : Statement) : Json :=
  .object [⟨"sql", .string s.sql⟩, ⟨"params", .array (s.params.map Value.encode)⟩]

end SqlQuery
