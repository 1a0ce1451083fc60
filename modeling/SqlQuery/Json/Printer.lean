import SqlQuery.Json.Basic
import SqlQuery.Number.FloatText

/-!
# Writing JSON

* `Json.compact` — without spaces;
* `Json.pretty` — an item or member a line, indented by two spaces for each level;
* `Json.quoted` — a string: only quotes, backslashes and control characters are escaped.
-/

namespace SqlQuery

open SqlQuery.Number

namespace Json

/-- A control character as an escape. -/
def controlEscape (c : Char) : List Char :=
  match c with
  | '\x08' => ['\\', 'b']
  | '\x0C' => ['\\', 'f']
  | '\n' => ['\\', 'n']
  | '\r' => ['\\', 'r']
  | '\t' => ['\\', 't']
  | c => '\\' :: 'u' :: (Nat.toDigits 16 c.toNat).leftpad 4 '0'

/-- A character inside a string. -/
def escaped (c : Char) : List Char :=
  if c = '"' then ['\\', '"']
  else if c = '\\' then ['\\', '\\']
  else if c.toNat < 0x20 then controlEscape c
  else [c]

/-- A string in double quotes. -/
def quoted (s : String) : String :=
  String.ofList ('"' :: s.toList.flatMap escaped ++ ['"'])

/-- How the parts of a container are set out. -/
structure Layout where
  /-- What stands before an item at a level, and before the closing bracket. -/
  lineBreak : Nat → String
  colon : String

/-- Everything on one line without spaces. -/
def Layout.compact : Layout :=
  { lineBreak := fun _ => "", colon := ":" }

/-- A line for each item. -/
def Layout.pretty : Layout :=
  { lineBreak := fun level => String.ofList ('\n' :: List.replicate (2 * level) ' '), colon := ": " }

/-- The parts of a container between its brackets. -/
def Layout.container (l : Layout) (level : Nat) (left right : String) (parts : List String) :
    String :=
  if parts.isEmpty then left ++ right
  else
    left ++ l.lineBreak (level + 1) ++ ("," ++ l.lineBreak (level + 1)).intercalate parts ++
      l.lineBreak level ++ right

mutual

/-- A value that starts at a level. -/
def render (l : Layout) (level : Nat) : Json → String
  | null | unreadable => "null"
  | bool b => if b then "true" else "false"
  | int n => toString n
  | float x => FloatStyle.json.text x
  | string s => quoted s
  | array items => l.container level "[" "]" (renderItems l (level + 1) items)
  | object members => l.container level "\x7b" "\x7d" (renderMembers l (level + 1) members)

def renderItems (l : Layout) (level : Nat) : List Json → List String
  | [] => []
  | j :: js => j.render l level :: renderItems l level js

def renderMembers (l : Layout) (level : Nat) : List Member → List String
  | [] => []
  | ⟨key, value⟩ :: ms =>
    (quoted key ++ l.colon ++ value.render l level) :: renderMembers l level ms

end

/-- The value without spaces. -/
def compact (j : Json) : String :=
  j.render .compact 0

/-- The value with a line for each item. -/
def pretty (j : Json) : String :=
  j.render .pretty 0

end Json

end SqlQuery
