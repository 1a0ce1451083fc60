import SqlQuery.Proofs.Outline
import SqlQuery.Value

/-!
# Descriptions changed place by place

A `Rewriting` puts other scalars in place of the scalars of a description and other spellings in place of those
of its operators, and keeps all else.  `Query.rewritten` carries it out at every depth.

The checks of the compiler see no difference: `Filter.isEmpty_rewritten`, `Filter.needsParens_rewritten`,
`Query.rewritten_sameOutline`.
-/

namespace SqlQuery

/-- What is put in place of the scalars and of the operators of a description.  Null stands only for null, and a
spelling for one of the same operator. -/
structure Rewriting where
  scalar : Value → Value
  spelling : String → String
  /-- Whether the values bound by the caller's own SQL are changed too. -/
  inBindings : Bool
  isScalar_scalar : ∀ v, v.isScalar = true → (scalar v).isScalar = true
  scalar_eq_null : ∀ v, v.isScalar = true → (scalar v = .null ↔ v = .null)
  ofText?_spelling : ∀ s, Operator.ofText? (spelling s) = Operator.ofText? s

/-- The rewriting that changes nothing. -/
def Rewriting.identity : Rewriting where
  scalar v := v
  spelling s := s
  inBindings := false
  isScalar_scalar _ h := h
  scalar_eq_null _ _ := Iff.rfl
  ofText?_spelling _ := rfl

mutual

def Value.rewritten (ρ : Rewriting) : Value → Value
  | .raw sql => .raw sql
  | .column c => .column c
  | .list items => .list (Value.allRewritten ρ items)
  | .subquery q => .subquery (q.rewritten ρ)
  | v => ρ.scalar v

def Value.allRewritten (ρ : Rewriting) : List Value → List Value
  | [] => []
  | v :: vs => v.rewritten ρ :: Value.allRewritten ρ vs

def TableRef.rewritten (ρ : Rewriting) : TableRef → TableRef
  | .named n => .named n
  | .raw sql bindings => .raw sql (if ρ.inBindings then Value.allRewritten ρ bindings else bindings)
  | .subquery q label => .subquery (q.rewritten ρ) label
  | .procedure n args => .procedure n (Value.allRewritten ρ args)

def TableRef.optRewritten (ρ : Rewriting) : Option TableRef → Option TableRef
  | none => none
  | some t => some (t.rewritten ρ)

def Join.rewritten (ρ : Rewriting) : Join → Join
  | ⟨kind, table, on⟩ => ⟨kind, table.rewritten ρ, Filter.optRewritten ρ on⟩

def Join.allRewritten (ρ : Rewriting) : List Join → List Join
  | [] => []
  | j :: js => j.rewritten ρ :: Join.allRewritten ρ js

def Filter.rewritten (ρ : Rewriting) : Filter → Filter
  | .and children => .and (Filter.allRewritten ρ children)
  | .or children => .or (Filter.allRewritten ρ children)
  | .not inner => .not (inner.rewritten ρ)
  | .predicate c => .predicate (c.rewritten ρ)
  | .raw sql bindings => .raw sql (if ρ.inBindings then Value.allRewritten ρ bindings else bindings)

def Filter.allRewritten (ρ : Rewriting) : List Filter → List Filter
  | [] => []
  | f :: fs => f.rewritten ρ :: Filter.allRewritten ρ fs

def Filter.optRewritten (ρ : Rewriting) : Option Filter → Option Filter
  | none => none
  | some f => some (f.rewritten ρ)

def Predicate.rewritten (ρ : Rewriting) : Predicate → Predicate
  | .compare c op v negated => .compare c (ρ.spelling op) (v.rewritten ρ) negated
  | .isIn c vs negated => .isIn c (Value.allRewritten ρ vs) negated
  | .inSelect c q negated => .inSelect c (q.rewritten ρ) negated
  | .isNull c negated => .isNull c negated
  | .datePart c part op v => .datePart c part (ρ.spelling op) (v.rewritten ρ)
  | .rowExists q negated => .rowExists (q.rewritten ρ) negated

def Branch.allRewritten (ρ : Rewriting) : List Branch → List Branch
  | [] => []
  | ⟨op, q⟩ :: bs => ⟨op, q.rewritten ρ⟩ :: Branch.allRewritten ρ bs

def Assignment.allRewritten (ρ : Rewriting) : List Assignment → List Assignment
  | [] => []
  | ⟨c, v⟩ :: as => ⟨c, v.rewritten ρ⟩ :: Assignment.allRewritten ρ as

/-- The query with other scalars and other spellings at every depth. -/
def Query.rewritten (ρ : Rewriting) : Query → Query
  | ⟨action, table, distinct, columns, joins, filter, groups, having, orders, limit, offset, aggregate, branches,
      lock, assignments, returning⟩ =>
    ⟨action, TableRef.optRewritten ρ table, distinct, columns, Join.allRewritten ρ joins,
      Filter.optRewritten ρ filter, groups, Filter.optRewritten ρ having, orders, limit, offset, aggregate,
      Branch.allRewritten ρ branches, lock, Assignment.allRewritten ρ assignments, returning⟩

end

variable {ρ : Rewriting}

/-! ### Scalars and null -/

theorem Value.rewritten_of_isScalar {v : Value} (h : v.isScalar = true) : v.rewritten ρ = ρ.scalar v := by
  cases v with
  | raw | column | list | subquery => exact nomatch h
  | _ => rfl

theorem Value.rewritten_eq_null (v : Value) : v.rewritten ρ = .null ↔ v = .null := by
  cases v with
  | raw | column | list | subquery => simp [Value.rewritten]
  | _ => exact ρ.scalar_eq_null _ rfl

theorem Value.allRewritten_eq_map (vs : List Value) : Value.allRewritten ρ vs = vs.map (Value.rewritten ρ) := by
  induction vs with
  | nil => rfl
  | cons v vs ih => rw [Value.allRewritten, ih, List.map_cons]

/-! ### What the checks see -/

mutual

theorem Filter.isEmpty_rewritten : ∀ f : Filter, (f.rewritten ρ).isEmpty = f.isEmpty
  | .and cs => by
    rw [Filter.rewritten, Filter.isEmpty, Filter.isEmpty]
    exact Filter.allEmpty_rewritten cs
  | .or cs => by
    rw [Filter.rewritten, Filter.isEmpty, Filter.isEmpty]
    exact Filter.allEmpty_rewritten cs
  | .not f => by
    rw [Filter.rewritten, Filter.isEmpty, Filter.isEmpty]
    exact Filter.isEmpty_rewritten f
  | .predicate _ => rfl
  | .raw _ _ => rfl

theorem Filter.allEmpty_rewritten : ∀ fs : List Filter,
    Filter.allEmpty (Filter.allRewritten ρ fs) = Filter.allEmpty fs
  | [] => rfl
  | f :: fs => by
    rw [Filter.allRewritten, Filter.allEmpty, Filter.allEmpty, Filter.isEmpty_rewritten f,
      Filter.allEmpty_rewritten fs]

end

theorem Filter.allRewritten_eq_map (fs : List Filter) : Filter.allRewritten ρ fs = fs.map (Filter.rewritten ρ) := by
  induction fs with
  | nil => rfl
  | cons f fs ih => rw [Filter.allRewritten, ih, List.map_cons]

theorem Filter.needsParens_rewritten (f : Filter) : (f.rewritten ρ).needsParens = f.needsParens := by
  cases f with
  | and cs | or cs =>
    rw [Filter.rewritten, Filter.needsParens, Filter.needsParens, Filter.allRewritten_eq_map,
      Filter.length_filter_map Filter.isEmpty_rewritten]
  | not | predicate | raw => rfl

theorem Query.rewritten_eq (q : Query) : q.rewritten ρ =
    { q with
      table := TableRef.optRewritten ρ q.table
      joins := Join.allRewritten ρ q.joins
      filter := Filter.optRewritten ρ q.filter
      having := Filter.optRewritten ρ q.having
      branches := Branch.allRewritten ρ q.branches
      assignments := Assignment.allRewritten ρ q.assignments } := by
  cases q
  rfl

theorem Query.rewritten_sameOutline (q : Query) : (q.rewritten ρ).SameOutline q := by
  rw [q.rewritten_eq]
  refine q.sameOutline_of_parts ?_ ?_ ?_ ?_ ?_ ?_
  · cases q.table <;> rfl
  · cases q.joins <;> rfl
  · cases q.filter <;> rfl
  · cases q.having with
    | none => rfl
    | some f => exact congrArg some f.isEmpty_rewritten
  · obtain _ | ⟨⟨_, _⟩, _⟩ := q.branches <;> rfl
  · obtain _ | ⟨⟨_, _⟩, _⟩ := q.assignments <;> rfl

/-! ### The rewriting that changes nothing -/

mutual

theorem Value.rewritten_identity : ∀ v : Value, v.rewritten .identity = v
  | .list items => congrArg Value.list (Value.allRewritten_identity items)
  | .subquery q => congrArg Value.subquery q.rewritten_identity
  | .null | .bool _ | .int _ | .float _ | .string _ | .date _ | .time _ | .timestamp _ | .raw _ | .column _ => rfl

theorem Value.allRewritten_identity : ∀ vs : List Value, Value.allRewritten .identity vs = vs
  | [] => rfl
  | v :: vs => by rw [Value.allRewritten, Value.rewritten_identity v, Value.allRewritten_identity vs]

theorem TableRef.rewritten_identity : ∀ t : TableRef, t.rewritten .identity = t
  | .named _ | .raw _ _ => rfl
  | .subquery q label => by rw [TableRef.rewritten, q.rewritten_identity]
  | .procedure n args => by rw [TableRef.rewritten, Value.allRewritten_identity args]

theorem TableRef.optRewritten_identity : ∀ t : Option TableRef, TableRef.optRewritten .identity t = t
  | none => rfl
  | some t => congrArg some t.rewritten_identity

theorem Join.rewritten_identity : ∀ j : Join, j.rewritten .identity = j
  | ⟨kind, table, on⟩ => by rw [Join.rewritten, table.rewritten_identity, Filter.optRewritten_identity on]

theorem Join.allRewritten_identity : ∀ js : List Join, Join.allRewritten .identity js = js
  | [] => rfl
  | j :: js => by rw [Join.allRewritten, j.rewritten_identity, Join.allRewritten_identity js]

theorem Filter.rewritten_identity : ∀ f : Filter, f.rewritten .identity = f
  | .and cs => congrArg Filter.and (Filter.allRewritten_identity cs)
  | .or cs => congrArg Filter.or (Filter.allRewritten_identity cs)
  | .not f => congrArg Filter.not f.rewritten_identity
  | .predicate c => congrArg Filter.predicate c.rewritten_identity
  | .raw _ _ => rfl

theorem Filter.allRewritten_identity : ∀ fs : List Filter, Filter.allRewritten .identity fs = fs
  | [] => rfl
  | f :: fs => by rw [Filter.allRewritten, f.rewritten_identity, Filter.allRewritten_identity fs]

theorem Filter.optRewritten_identity : ∀ f : Option Filter, Filter.optRewritten .identity f = f
  | none => rfl
  | some f => congrArg some f.rewritten_identity

theorem Predicate.rewritten_identity : ∀ c : Predicate, c.rewritten .identity = c
  | .compare c op v negated => by
    rw [Predicate.rewritten, v.rewritten_identity]
    rfl
  | .isIn c vs negated => by rw [Predicate.rewritten, Value.allRewritten_identity vs]
  | .inSelect c q negated => by rw [Predicate.rewritten, q.rewritten_identity]
  | .isNull _ _ => rfl
  | .datePart c part op v => by
    rw [Predicate.rewritten, v.rewritten_identity]
    rfl
  | .rowExists q negated => by rw [Predicate.rewritten, q.rewritten_identity]

theorem Branch.allRewritten_identity : ∀ bs : List Branch, Branch.allRewritten .identity bs = bs
  | [] => rfl
  | ⟨op, q⟩ :: bs => by rw [Branch.allRewritten, q.rewritten_identity, Branch.allRewritten_identity bs]

theorem Assignment.allRewritten_identity : ∀ as : List Assignment, Assignment.allRewritten .identity as = as
  | [] => rfl
  | ⟨c, v⟩ :: as => by rw [Assignment.allRewritten, v.rewritten_identity, Assignment.allRewritten_identity as]

theorem Query.rewritten_identity : ∀ q : Query, q.rewritten .identity = q
  | ⟨_, table, _, _, joins, filter, _, having, _, _, _, _, branches, _, assignments, _⟩ => by
    rw [Query.rewritten, TableRef.optRewritten_identity table, Join.allRewritten_identity joins,
      Filter.optRewritten_identity filter, Filter.optRewritten_identity having,
      Branch.allRewritten_identity branches, Assignment.allRewritten_identity assignments]

end

end SqlQuery
