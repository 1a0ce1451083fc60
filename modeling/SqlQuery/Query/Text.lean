import SqlQuery.Json.Reader
import SqlQuery.Query.Decode

/-!
# Descriptions as text

A query description as a JSON text of its own, such as a file.
-/

namespace SqlQuery

namespace Query

/-- How many objects and arrays may stand inside each other in a text. -/
def nestingLimit : Nat := 127

/-- The query that a JSON text describes. -/
def ofText? (text : String) : Option Query := do
  decode { positionalContent := true } nestingLimit (← Json.read? text)

end Query

end SqlQuery
