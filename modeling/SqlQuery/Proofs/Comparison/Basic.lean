import SqlQuery.Proofs.Relational.Agreement

/-!
# Comparisons that differ in one place

A comparison is its left side, its operator and what stands on the right.  Two comparisons that differ in one of the
first two succeed together, and then they differ there and nowhere else.  Where they fail, their failures may name
what differs, so they are of one kind and need not be the same.

* `Error.kind` — the kind of a failure, `SameKind` — failures of one kind;
* `Predicate.fragment_compare_of_known`, `Predicate.fragment_datePart_of_known` — a condition whose operator is one;
* `comparison_agree_left` — two left sides; `comparison_agree_opposite` — an operator and its opposite.
-/

namespace SqlQuery

open SqlQuery.Fragment

/-- The kinds of failures. -/
inductive ErrorKind where
  | versionUnavailable | versionUnparseable | unsupportedOperator | malformedQuery | malformedRow | connection | config
deriving DecidableEq

/-- The kind of a failure, without what it tells of the case. -/
def Error.kind : Error → ErrorKind
  | .versionUnavailable _ => .versionUnavailable
  | .versionUnparseable _ => .versionUnparseable
  | .unsupportedOperator _ => .unsupportedOperator
  | .malformedQuery _ => .malformedQuery
  | .malformedRow _ => .malformedRow
  | .connection _ => .connection
  | .config => .config

/-- Two failures of one kind. -/
def SameKind (e e' : Error) : Prop := e.kind = e'.kind

section Agree

variable {α β : Type} {R : α → β → Prop} {x : Except Error α} {y : Except Error β}

/-- Both results fail in one kind, or both succeed. -/
theorem Agree.ofSameKind (h : Agree SameKind R x y) :
    (∃ e e', x = .error e ∧ y = .error e' ∧ e.kind = e'.kind) ∨ ∃ a b, x = .ok a ∧ y = .ok b ∧ R a b := by
  have hdiffer : ¬ SameKind .config (.connection "") := nofun
  exact h.cases hdiffer

theorem Agree.imp {S : α → β → Prop} (h : Agree SameKind R x y) (hS : ∀ a b, x = .ok a → R a b → S a b) :
    Agree SameKind S x y := by
  obtain ⟨e, e', rfl, rfl, hk⟩ | ⟨a, b, rfl, rfl, hab⟩ := h.ofSameKind
  · exact hk
  · exact hS a b rfl hab

end Agree

@[simp]
theorem Operator.params_spacedSymbol (op : Operator) : params op.spacedSymbol = [] :=
  params_word _

theorem text_operator (column : String) (op : Operator) (rhs : Fragment) :
    text (name column ++ op.spacedSymbol ++ rhs) = quote column ++ " " ++ op.symbol ++ " " ++ text rhs := by
  simp only [text_append, Operator.spacedSymbol, text_word, Fragment.name, text_singleton, Piece.text,
    String.append_assoc]

section Comparison

variable {lhs lhs' : Fragment} {op op' : Operator} {v : Value} {operand : Except Error Fragment}
  {bounds : Option (Except Error (Fragment × Fragment))}

/-- Two comparisons with the same on the right are related, if they are in the three ways in which they succeed. -/
theorem comparison_agree {R : Fragment → Fragment → Prop} (hrange : op'.isRange = op.isRange)
    (hbounds : ∀ low high, R (lhs ++ op.spacedSymbol ++ low ++ word " and " ++ high)
      (lhs' ++ op'.spacedSymbol ++ low ++ word " and " ++ high))
    (hnull : R (compareNull lhs op) (compareNull lhs' op'))
    (hone : ∀ rhs, R (lhs ++ op.spacedSymbol ++ rhs) (lhs' ++ op'.spacedSymbol ++ rhs)) :
    Agree SameKind R (comparison lhs op v operand bounds) (comparison lhs' op' v operand bounds) := by
  cases hr : op.isRange with
  | true =>
    unfold comparison
    rw [if_pos hr, if_pos (hrange.trans hr)]
    rcases bounds with _ | e | ⟨low, high⟩
    · exact rfl
    · exact rfl
    · exact hbounds low high
  | false =>
    unfold comparison
    rw [if_neg (by simp [hr]), if_neg (by simp [hrange, hr])]
    cases v with
    | null => exact hnull
    | list => exact rfl
    | _ =>
      cases operand with
      | error e => exact rfl
      | ok rhs => exact hone rhs

/-- **Two left sides** with the same on the right of them. -/
theorem comparison_agree_left : Agree SameKind (fun f f' => ∃ g, f = lhs ++ g ∧ f' = lhs' ++ g)
    (comparison lhs op v operand bounds) (comparison lhs' op v operand bounds) := by
  refine comparison_agree rfl (fun low high => ⟨op.spacedSymbol ++ low ++ word " and " ++ high, ?_, ?_⟩) ?_
    fun rhs => ⟨op.spacedSymbol ++ rhs, List.append_assoc .., List.append_assoc ..⟩
  · simp only [List.append_assoc]
  · simp only [List.append_assoc]
  · unfold compareNull
    split
    · exact ⟨_, rfl, rfl⟩
    · exact ⟨_, rfl, rfl⟩
    · exact ⟨_, rfl, rfl⟩
    · split
      · exact ⟨op.spacedSymbol ++ word "null", List.append_assoc .., List.append_assoc ..⟩
      · exact ⟨op.spacedSymbol ++ [.bound .null], List.append_assoc .., List.append_assoc ..⟩

/-- An operator that has an opposite does not ask whether something is null. -/
theorem compareNull_of_negated? (h : op.negated? = some op') : ∃ g,
    compareNull lhs op = lhs ++ op.spacedSymbol ++ g ∧ compareNull lhs op' = lhs ++ op'.spacedSymbol ++ g := by
  cases op <;> simp only [Operator.negated?, Option.some.injEq, reduceCtorEq] at h <;> subst h <;>
    exact ⟨_, rfl, rfl⟩

/-- **An operator and its opposite** between the same two sides. -/
theorem comparison_agree_opposite (h : op.negated? = some op') :
    Agree SameKind (fun f f' => ∃ g, f = lhs ++ op.spacedSymbol ++ g ∧ f' = lhs ++ op'.spacedSymbol ++ g)
      (comparison lhs op v operand bounds) (comparison lhs op' v operand bounds) := by
  refine comparison_agree (Operator.isRange_of_negated? h) (fun low high => ⟨low ++ word " and " ++ high, ?_, ?_⟩)
    (compareNull_of_negated? h) fun rhs => ⟨rhs, rfl, rfl⟩
  · simp only [List.append_assoc]
  · simp only [List.append_assoc]

end Comparison

/-! ### Conditions with an operator -/

namespace Predicate

variable {p : Paging} {column op : String} {v : Value}

theorem fragment_compare_of_unknown {marked : Bool} (h : Operator.ofText? op = none) :
    (compare column op v marked).fragment p = .error (.unsupportedOperator op) := by
  rw [fragment, Operator.resolve, h]
  rfl

theorem fragment_compare_of_known {marked : Bool} {o : Operator} (h : Operator.ofText? op = some o) :
    (compare column op v marked).fragment p =
      comparison (name column) (o.oriented marked).1 v (v.fragment p none) (v.bounds? p none) >>= fun f =>
        pure (negatedComparison (o.oriented marked).2 f) := by
  rw [fragment, Operator.resolve, h]
  rfl

theorem fragment_datePart_of_unknown {part : DatePart} (h : Operator.ofText? op = none) :
    (datePart column part op v).fragment p = .error (.unsupportedOperator op) := by
  rw [fragment, Operator.resolve, h]
  rfl

theorem fragment_datePart_of_known {part : DatePart} {o : Operator} (h : Operator.ofText? op = some o) :
    (datePart column part op v).fragment p =
      comparison (part.ofColumn column) o v (v.fragment p (some part)) (v.bounds? p (some part)) := by
  rw [fragment, Operator.resolve, h]
  rfl

end Predicate

end SqlQuery
