/-!
# TOML documents

* `Toml` — a TOML document as a tree, where a table remembers how it came about;
* `Toml.find?` — the value at a key of a table;
* `Toml.alter` — a change deep inside a table, at the end of a path of keys;
* `Toml.assign`, `Toml.openTable`, `Toml.openTables` — what a line of a document does to the tree.

A table may be continued only in the way in which it was begun, and no key is set twice; each of
these functions yields nothing when a line breaks the rule.
-/

namespace SqlQuery

/-- How a table came about. -/
inductive TableOrigin where
  /-- By a header of its own, as the document itself did. -/
  | header
  /-- By a header of a table inside it. -/
  | implied
  /-- By a dotted key. -/
  | dotted
  /-- As a value in braces. -/
  | inline
deriving DecidableEq

mutual

/-- A TOML value. -/
inductive Toml where
  | string (s : String)
  | int (n : Int)
  | float (x : Float)
  | bool (b : Bool)
  | dateTime (text : String)
  | array (items : List Toml)
  | table (origin : TableOrigin) (entries : List Entry)
  /-- Tables of one name, each with a header in double brackets. -/
  | tables (items : List Toml)

/-- A key and its value in a table. -/
structure Entry where
  key : String
  value : Toml

end

instance : Inhabited Toml := ⟨.bool false⟩

namespace Toml

/-- The value at a key. -/
def find? (key : String) (entries : List Entry) : Option Toml :=
  (entries.find? (·.key == key)).map (·.value)

/-- The entries with another value at a key; a new key comes last. -/
def put (key : String) (value : Toml) (entries : List Entry) : List Entry :=
  if entries.any (·.key == key) then
    entries.map fun e => if e.key == key then ⟨key, value⟩ else e
  else entries ++ [⟨key, value⟩]

/-- A change to the entries of a table. -/
abbrev Change := TableOrigin → List Entry → Option Toml

/-- The change made to the table at the end of a path. Tables on the way that are missing are begun,
by a dotted key or by a header; a dotted key does not reach into a table with a header of its own, and
nothing reaches into one in braces. Of several tables the last one is meant. -/
def alter (dotted : Bool) (change : Change) : List String → Change
  | [], origin, entries => change origin entries
  | key :: path, origin, entries => do
    let inner ← match find? key entries with
      | none => alter dotted change path (if dotted then .dotted else .implied) []
      | some (.table o es) =>
        if o = .inline || dotted && o = .header then none else alter dotted change path o es
      | some (.tables items) =>
        match items.getLast? with
        | some (.table o es) =>
          (alter dotted change path o es).map fun t => .tables (items.dropLast ++ [t])
        | _ => none
      | some _ => none
    return .table origin (put key inner entries)

/-- The path before the last key, and the last key. -/
def splitPath? (path : List String) : Option (List String × String) :=
  path.getLast?.map fun key => (path.dropLast, key)

/-- Sets a key that is not set yet. A dotted key may only continue a table that dotted keys began. -/
def assign (path : List String) (value : Toml) : Change := fun origin entries => do
  let (front, key) ← splitPath? path
  alter true (fun o es =>
    if front ≠ [] ∧ o ≠ .dotted then none
    else if (find? key es).isSome then none
    else some (.table o (es ++ [⟨key, value⟩]))) front origin entries

/-- A header: begins a table, or opens one that only headers of inner tables have named. -/
def openTable (path : List String) : Change := fun origin entries => do
  let (front, key) ← splitPath? path
  alter false (fun o es =>
    match find? key es with
    | none => some (.table o (put key (.table .header []) es))
    | some (.table .implied inner) => some (.table o (put key (.table .header inner) es))
    | some _ => none) front origin entries

/-- A header in double brackets: one more table of a name. -/
def openTables (path : List String) : Change := fun origin entries => do
  let (front, key) ← splitPath? path
  alter false (fun o es =>
    match find? key es with
    | none => some (.table o (put key (.tables [.table .header []]) es))
    | some (.tables items) =>
      some (.table o (put key (.tables (items ++ [.table .header []])) es))
    | some _ => none) front origin entries

/-! ### Lines -/

/-- A line of a document that says something. -/
inductive Line where
  | assign (path : List String) (value : Toml)
  | table (path : List String)
  | tables (path : List String)

/-- A document on the way: its entries, and the path of the last header. -/
structure Draft where
  entries : List Entry := []
  header : List String := []

/-- The draft after one more line. -/
def Draft.add (d : Draft) (line : Line) : Option Draft :=
  let changed (t : Option Toml) (header : List String) : Option Draft :=
    match t with
    | some (.table _ entries) => some { entries, header }
    | _ => none
  match line with
  | .assign path value => changed (alter false (assign path value) d.header .header d.entries) d.header
  | .table path => changed (openTable path .header d.entries) path
  | .tables path => changed (openTables path .header d.entries) path

/-- The table of a document's lines. -/
def ofLines? (lines : List Line) : Option (List Entry) :=
  (lines.foldlM Draft.add {}).map (·.entries)

end Toml

end SqlQuery
