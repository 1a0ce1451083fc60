import SqlQuery.EngineVersion

/-!
# Paging

Servers before 3.0.0 limit a select by words directly after `select`, later ones by clauses at its
end. `Paging.leading` and `Paging.trailing` give the text for either place; at most one of them is
not empty.
-/

namespace SqlQuery

/-- The two paging syntaxes. -/
inductive Paging where
  | legacy | modern
deriving DecidableEq

namespace Paging

/-- The first release with the modern syntax. -/
def firstModern : EngineVersion := ⟨3, 0, 0⟩

/-- The syntax that a server understands. -/
def ofVersion (v : EngineVersion) : Paging :=
  if v.compare firstModern = .lt then legacy else modern

def isLegacy : Paging → Bool
  | legacy => true
  | modern => false

/-- The syntax as shown to people. -/
def text : Paging → String
  | legacy => "legacy (first/skip)"
  | modern => "modern (offset/fetch)"

/-- The clauses directly after `select`. -/
def leading (p : Paging) (limit offset : Option Int) : List String :=
  match p with
  | legacy =>
    (limit.map fun n => s!"first {n}").toList ++ (offset.map fun n => s!"skip {n}").toList
  | modern => []

/-- The clauses after the ordering. -/
def trailing (p : Paging) (limit offset : Option Int) : List String :=
  match p with
  | legacy => []
  | modern =>
    (offset.map fun n => s!"offset {n} rows").toList ++
      (limit.map fun n => s!"fetch first {n} rows only").toList

@[simp] theorem leading_none (p : Paging) : p.leading none none = [] := by
  cases p <;> rfl

@[simp] theorem trailing_none (p : Paging) : p.trailing none none = [] := by
  cases p <;> rfl

end Paging

end SqlQuery
