/-!
# JSON trees

* `Json` — a JSON text as a tree. Members of an object keep their order and may repeat a key; whole
  numbers are told apart from those written with a point or an exponent;
* `Json.sortKeys` — the same tree with the members of every object in the order of their keys.
-/

namespace SqlQuery

mutual

/-- A JSON value. A number that is too large for a double is an infinite one. -/
inductive Json where
  | null
  | bool (b : Bool)
  | int (n : Int)
  | float (x : Float)
  | string (s : String)
  /-- A string, or an object with a key, that is no text because half of a surrogate pair stands alone
  in it. Such a value can be passed over, but not read. -/
  | unreadable
  | array (items : List Json)
  | object (members : List Member)

/-- A key and its value in an object. -/
structure Member where
  key : String
  value : Json

end

instance : Inhabited Json := ⟨.null⟩

namespace Json

/-- The order of keys, by code points. -/
def keyLe (a b : Member) : Bool :=
  a.key ≤ b.key

mutual

/-- The tree with the members of every object in the order of their keys. -/
def sortKeys : Json → Json
  | array items => array (sortItems items)
  | object members => object ((sortMembers members).mergeSort keyLe)
  | j => j

def sortItems : List Json → List Json
  | [] => []
  | j :: js => j.sortKeys :: sortItems js

def sortMembers : List Member → List Member
  | [] => []
  | ⟨key, value⟩ :: ms => ⟨key, value.sortKeys⟩ :: sortMembers ms

end

/-! ### Looking inside -/

/-- The text of a string. -/
def string? : Json → Option String
  | string s => some s
  | _ => none

/-- The truth value of a boolean. -/
def bool? : Json → Option Bool
  | bool b => some b
  | _ => none

/-- A whole number, which was written without a point and an exponent. -/
def int? : Json → Option Int
  | int n => some n
  | _ => none

/-- The members of an object. -/
def members? : Json → Option (List Member)
  | object members => some members
  | _ => none

/-- The items of an array. -/
def items? : Json → Option (List Json)
  | array items => some items
  | _ => none

/-- The value at a key of an object. -/
def get? (key : String) : Json → Option Json
  | object members => (members.find? (·.key == key)).map (·.value)
  | _ => none

end Json

end SqlQuery
