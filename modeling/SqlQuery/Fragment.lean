import SqlQuery.Identifier
import SqlQuery.Query

/-!
# Fragments of SQL

SQL is put together from pieces, and a piece knows both what it adds to the text and which values it
binds. So the text and the parameters of a statement are two views of one list, and their order
cannot come apart.

* `Piece` — a word of the dialect, a quoted name, a placeholder with its value, or SQL of the caller's;
* `Fragment` — a list of pieces, with the views `Fragment.text` and `Fragment.params`;
* `Statement` — the two views of a whole fragment.
-/

namespace SqlQuery

/-- A piece of SQL. -/
inductive Piece where
  /-- Words, punctuation and numbers of the dialect. -/
  | word (s : String)
  /-- A name, which may be dotted and carry an alias. -/
  | name (s : String)
  /-- A name of one part. -/
  | part (s : String)
  /-- A placeholder, with the value for it. -/
  | bound (v : Value)
  /-- SQL of the caller's own, with the values for the placeholders in it. -/
  | verbatim (sql : String) (bindings : List Value)

namespace Piece

/-- What a piece adds to the text. -/
def text : Piece → String
  | word s => s
  | name s => quote s
  | part s => quotePart s
  | bound _ => "?"
  | verbatim sql _ => sql

/-- The values that a piece binds. -/
def params : Piece → List Value
  | bound v => [v]
  | verbatim _ bindings => bindings
  | _ => []

end Piece

/-- A part of a statement. -/
abbrev Fragment := List Piece

namespace Fragment

/-- The text of a fragment. -/
def text (f : Fragment) : String :=
  String.join (f.map Piece.text)

/-- The values of a fragment, in the order of their placeholders. -/
def params (f : Fragment) : List Value :=
  f.flatMap Piece.params

/-- Whether a fragment adds nothing to the text; it may bind values all the same. -/
def isBlank (f : Fragment) : Bool :=
  f.all fun p => p.text.isEmpty

/-- A fragment of words. -/
def word (s : String) : Fragment := [.word s]

/-- A fragment of one name. -/
def name (s : String) : Fragment := [.name s]

/-- A fragment of one name without dots and alias. -/
def part (s : String) : Fragment := [.part s]

/-- Fragments with a separator between them. -/
def joined (separator : String) (fs : List Fragment) : Fragment :=
  (word separator).intercalate fs

/-- A fragment in parentheses. -/
def parenthesized (f : Fragment) : Fragment :=
  word "(" ++ f ++ word ")"

/-- A clause of a statement: its keyword and its body with a space before each; without text there
is no clause. -/
def clause (keyword : String) (body : Fragment) : Fragment :=
  if body.isBlank then body else word (" " ++ keyword ++ " ") ++ body

@[simp] theorem text_append (f g : Fragment) : text (f ++ g) = text f ++ text g := by
  simp [text, String.join_append]

@[simp] theorem params_append (f g : Fragment) : params (f ++ g) = params f ++ params g := by
  simp [params]

@[simp] theorem params_word (s : String) : params (word s) = [] := rfl

@[simp] theorem params_name (s : String) : params (name s) = [] := rfl

@[simp] theorem params_part (s : String) : params (part s) = [] := rfl

@[simp] theorem params_parenthesized (f : Fragment) : params (parenthesized f) = params f := by
  simp [parenthesized]

@[simp] theorem params_clause (keyword : String) (f : Fragment) :
    params (clause keyword f) = params f := by
  unfold clause
  split <;> simp

end Fragment

/-- SQL text, and the values for its placeholders in their order. -/
structure Statement where
  sql : String
  params : List Value

/-- The statement that a fragment spells. -/
def Fragment.statement (f : Fragment) : Statement :=
  { sql := Fragment.text f, params := Fragment.params f }

end SqlQuery
