import SqlQuery.Json.Basic

/-!
# Records in JSON

A record is written as an object of its fields, or as an array of them in their order. A reader asks
for the value of each field and decides what a missing one means.

* `Json.record?` — the fields of a record by name;
* `required`, `optional`, `defaulted` — what a reader makes of a field;
* `enumerated`, `listWithin` — enumerations and lists. Readers take the number of levels that objects and
  arrays may still stand inside each other.
-/

namespace SqlQuery.Json

/-- Whether no name is the key of two members. -/
def keysOnce (names : List String) (members : List Member) : Bool :=
  names.all fun name => (members.filter (·.key == name)).length ≤ 1

/-- The value of each named field. An object may have members of other names, but none of these
twice. An array, where `positional` allows one, has at least the first `least` fields and nothing
more than all of them. -/
def record? (positional : Bool) (names : List String) (least : Nat) :
    Json → Option (String → Option Json)
  | object members =>
    if keysOnce names members then
      some fun name => (members.find? (·.key == name)).map (·.value)
    else none
  | array items =>
    if positional ∧ least ≤ items.length ∧ items.length ≤ names.length then
      some fun name => (names.zip items).lookup name
    else none
  | _ => none

variable {α : Type}

/-- A field that has to be there. -/
def required (read : Json → Option α) (field : Option Json) : Option α :=
  field.bind read

/-- A field that may be missing or null. -/
def optional (read : Json → Option α) : Option Json → Option (Option α)
  | none => some none
  | some null => some none
  | some j => (read j).map some

/-- A field that stands for a default when it is missing. -/
def defaulted (default : α) (read : Json → Option α) : Option Json → Option α
  | none => some default
  | some j => read j

/-- The member of an enumeration with this tag, given as a string or as the key of a null. -/
def enumerated (all : List α) (tag : α → String) : Nat → Json → Option α
  | _, string s => all.find? fun a => tag a == s
  | _ + 1, object [⟨s, null⟩] => all.find? fun a => tag a == s
  | _, _ => none

/-- A list. The items may go one level less deep than the list. -/
def listWithin (read : Nat → Json → Option α) : Nat → Json → Option (List α)
  | n + 1, array items => items.mapM (read n)
  | _, _ => none

end SqlQuery.Json
