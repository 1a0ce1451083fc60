import SqlQuery.Text.Blank
import SqlQuery.Text.Case

/-!
# Identifiers

A caller writes a name as `part.part as alias`. It is taken apart into an `Identifier` and written
with every part in double quotes, so that the server keeps its letter case and no part can end early.

* `Identifier.ofText` — splits at the first ` as ` (in any letter case) and at the dots before it,
  and trims every part;
* `Identifier.text` — writes the parts quoted, a part `*` alone bare;
* `quote`, `quotePart` — both in one, for a whole name and for a name without dots and alias.
-/

namespace SqlQuery

open SqlQuery.Text

/-- A dotted name with an optional alias. -/
structure Identifier where
  parts : List (List Char)
  label : Option (List Char)
deriving DecidableEq

namespace Identifier

/-- What separates a name from its alias, in lower case. -/
def aliasKey : List Char := [' ', 'a', 's', ' ']

/-- The identifier that a caller's text stands for. -/
def ofText (s : String) : Identifier :=
  match cutFirst? foldAscii aliasKey s.toList with
  | none => { parts := (split (· == '.') s.toList).map trim, label := none }
  | some (name, label) =>
    { parts := (split (· == '.') name).map trim, label := some (trim label) }

/-- Each double quote written twice. -/
def escape (s : List Char) : List Char :=
  s.flatMap fun c => if c = '"' then ['"', '"'] else [c]

/-- One part in double quotes; `*` stands for all columns and stays bare. -/
def partText (s : List Char) : List Char :=
  if s = ['*'] then s else '"' :: escape s ++ ['"']

/-- The identifier as SQL. -/
def text (i : Identifier) : List Char :=
  ['.'].intercalate (i.parts.map partText) ++
    match i.label with
    | none => []
    | some label => " as ".toList ++ partText label

end Identifier

/-- A caller's name as SQL. -/
def quote (s : String) : String :=
  String.ofList (Identifier.ofText s).text

/-- A caller's name as SQL, taken as one part. -/
def quotePart (s : String) : String :=
  String.ofList (Identifier.partText (trim s.toList))

end SqlQuery
