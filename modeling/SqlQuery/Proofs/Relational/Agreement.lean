import SqlQuery.Proofs.Form.Statement
import SqlQuery.Proofs.Relational.Fragment
import SqlQuery.Proofs.Relational.Rewriting

/-!
# Two runs side by side

The compiler runs on a description with one paging and on the rewritten description with another.

* `Agree` — both runs succeed with related results, or both fail with related failures;
* `Simulation` — a relation on failures and one on fragments that the two runs keep;
* `Simulation.comparison`, `Simulation.assembled` — comparisons and whole selects keep them.
-/

namespace SqlQuery

open SqlQuery.Fragment SqlQuery.Text

/-! ### Agreement -/

section Agree

variable {α β γ δ : Type} {E : Error → Error → Prop} {R : α → β → Prop} {S : γ → δ → Prop}

/-- Both results are successes related by `R`, or both are failures related by `E`.  Where `E` relates all
failures, nothing is said about them, and a success may also meet a failure. -/
def Agree (E : Error → Error → Prop) (R : α → β → Prop) : Except Error α → Except Error β → Prop
  | .ok a, .ok b => R a b
  | .error e, .error e' => E e e'
  | .ok _, .error _ | .error _, .ok _ => ∀ e e', E e e'

theorem Agree.of_forall {x : Except Error α} {y : Except Error β} (hE : ∀ e e', E e e')
    (h : ∀ a b, x = .ok a → y = .ok b → R a b) : Agree E R x y := by
  cases x with
  | ok a =>
    cases y with
    | ok b => exact h a b rfl rfl
    | error e' => exact hE
  | error e =>
    cases y with
    | ok b => exact hE
    | error e' => exact hE e e'

/-- Where some failures differ, both runs succeed or both fail. -/
theorem Agree.cases {x : Except Error α} {y : Except Error β} (h : Agree E R x y) {e₁ e₂ : Error}
    (hE : ¬ E e₁ e₂) : (∃ e e', x = .error e ∧ y = .error e' ∧ E e e') ∨ ∃ a b, x = .ok a ∧ y = .ok b ∧ R a b := by
  cases x with
  | ok a =>
    cases y with
    | ok b => exact Or.inr ⟨a, b, rfl, rfl, h⟩
    | error e' => exact absurd (h e₁ e₂) hE
  | error e =>
    cases y with
    | ok b => exact absurd (h e₁ e₂) hE
    | error e' => exact Or.inl ⟨e, e', rfl, rfl, h⟩

/-- Agreement goes on through the next step, which may use how the first one came out. -/
theorem Agree.bind {x : Except Error α} {y : Except Error β} {f : α → Except Error γ} {g : β → Except Error δ}
    (h : Agree E R x y) (hnext : ∀ a b, x = .ok a → y = .ok b → R a b → Agree E S (f a) (g b)) :
    Agree E S (x >>= f) (y >>= g) := by
  cases x with
  | ok a =>
    cases y with
    | ok b => exact hnext a b rfl rfl h
    | error e' => exact .of_forall h fun _ _ _ hy => nomatch hy
  | error e =>
    cases y with
    | ok b => exact .of_forall h fun _ _ hx => nomatch hx
    | error e' => exact h

/-- A last step that cannot fail. -/
theorem Agree.map {x : Except Error α} {y : Except Error β} {f : α → γ} {g : β → δ} (h : Agree E R x y)
    (hnext : ∀ a b, R a b → S (f a) (g b)) :
    Agree E S (x >>= fun a => pure (f a)) (y >>= fun b => pure (g b)) :=
  h.bind fun a b _ _ hab => hnext a b hab

end Agree

/-! ### What a comparison takes -/

section Comparison

variable {lhs : Fragment} {op : Operator} {v : Value} {operand : Except Error Fragment}
  {bounds : Option (Except Error (Fragment × Fragment))}

def Value.isList : Value → Bool
  | list _ => true
  | _ => false

theorem Value.isList_rewritten {ρ : Rewriting} (v : Value) : (v.rewritten ρ).isList = v.isList := by
  have hscalar : ∀ w : Value, w.isScalar = true → w.isList = false := by
    intro w hw
    cases w with
    | list => exact nomatch hw
    | _ => rfl
  cases v with
  | raw | column | list | subquery => rfl
  | _ => exact hscalar _ (ρ.isScalar_scalar _ rfl)

theorem comparison_null (hr : op.isRange = false) :
    comparison lhs op .null operand bounds = .ok (compareNull lhs op) := by
  unfold comparison
  rw [hr]
  rfl

theorem comparison_list (hr : op.isRange = false) (hl : v.isList = true) :
    comparison lhs op v operand bounds = .error (.malformedQuery (.listWithoutBetween op (text lhs))) := by
  cases v with
  | list =>
    unfold comparison
    rw [hr]
    rfl
  | _ => exact nomatch hl

theorem comparison_one (hr : op.isRange = false) (hn : v ≠ .null) (hl : v.isList = false) :
    comparison lhs op v operand bounds = operand >>= fun rhs => pure (lhs ++ op.spacedSymbol ++ rhs) := by
  cases v with
  | null => exact absurd rfl hn
  | list => exact nomatch hl
  | _ =>
    unfold comparison
    rw [hr]
    rfl

end Comparison

/-! ### Simulations -/

/-- Relations that two runs of the compiler keep: with paging `p` on a description, and with paging `p'` on the
rewritten one. -/
structure Simulation (ρ : Rewriting) (p p' : Paging) (E : Error → Error → Prop)
    (R : Fragment → Fragment → Prop) : Prop extends Compositional R where
  malformed : ∀ d, E (.malformedQuery d) (.malformedQuery d)
  unsupported : ∀ s, E (.unsupportedOperator s) (.unsupportedOperator (ρ.spelling s))
  /-- A join without its condition is reported with the text of its table. -/
  unjoined : ∀ kind {f g}, R f g → E (.malformedQuery (.joinWithoutCondition kind (text f)))
    (.malformedQuery (.joinWithoutCondition kind (text g)))
  /-- The checks of a select depend on the paging. -/
  checked : ∀ q : Query, Agree E (fun _ _ => True) (Defect.refuse (q.selectDefect? p))
    (Defect.refuse (q.selectDefect? p'))
  verbatim : ∀ sql bindings, R [.verbatim sql bindings]
    [.verbatim sql (if ρ.inBindings then Value.allRewritten ρ bindings else bindings)]
  bound : ∀ part {v}, v.isScalar = true → R [.bound (v.narrowTo part)] [.bound ((ρ.scalar v).narrowTo part)]
  head : ∀ (q : Query) a, q.selectDefect? p = none → q.selectDefect? p' = none → R (q.head p a) (q.head p' a)
  tail : ∀ q : Query, q.selectDefect? p = none → q.selectDefect? p' = none → R (q.tail p) (q.tail p')

namespace Simulation

variable {ρ : Rewriting} {p p' : Paging} {E : Error → Error → Prop} {R : Fragment → Fragment → Prop}

theorem refused (h : Simulation ρ p p' E R) (d : Option Defect) :
    Agree E (fun _ _ => True) (Defect.refuse d) (Defect.refuse d) := by
  cases d with
  | none => trivial
  | some d => exact h.malformed d

/-- A spelling stands for one operator, before and after. -/
theorem resolve (h : Simulation ρ p p' E R) (s : String) :
    Agree E (· = ·) (Operator.resolve s) (Operator.resolve (ρ.spelling s)) := by
  unfold Operator.resolve
  rw [ρ.ofText?_spelling]
  cases Operator.ofText? s with
  | none => exact h.unsupported s
  | some op => rfl

/-- The operator decides what it takes, so two comparisons go the same way. -/
theorem comparison (h : Simulation ρ p p' E R) {lhs : Fragment} (hlhs : R lhs lhs) (op : Operator) (v : Value)
    {operand operand' : Except Error Fragment} {bounds bounds' : Option (Except Error (Fragment × Fragment))}
    (hoperand : Agree E R operand operand')
    (hbounds : Option.Rel (Agree E fun a b => R a.1 b.1 ∧ R a.2 b.2) bounds bounds') :
    Agree E R (comparison lhs op v operand bounds) (comparison lhs op (v.rewritten ρ) operand' bounds') := by
  cases hr : op.isRange with
  | true =>
    unfold SqlQuery.comparison
    rw [if_pos hr, if_pos hr]
    cases hbounds with
    | none => exact h.malformed _
    | some hb =>
      refine hb.map fun a b hab => ?_
      exact h.append (h.append (h.append (h.append hlhs (h.spacedSymbol op)) hab.1) (h.word _ (by decide))) hab.2
  | false =>
    by_cases hnull : v = .null
    · subst hnull
      have hnull' : Value.null.rewritten ρ = .null := (Value.rewritten_eq_null _).2 rfl
      rw [hnull', comparison_null hr, comparison_null hr]
      exact h.compareNull hlhs op
    · have hnull' : v.rewritten ρ ≠ .null := mt (Value.rewritten_eq_null v).1 hnull
      cases hl : v.isList with
      | true =>
        rw [comparison_list hr hl, comparison_list hr (v.isList_rewritten.trans hl)]
        exact h.malformed _
      | false =>
        rw [comparison_one hr hnull hl, comparison_one hr hnull' (v.isList_rewritten.trans hl)]
        exact hoperand.map fun a b hab => h.append (h.append hlhs (h.spacedSymbol op)) hab

theorem assembled (h : Simulation ρ p p' E R) {q : Query} (hq : q.selectDefect? p = none)
    (hq' : q.selectDefect? p' = none) {table joins filter having branches : Fragment}
    {table' joins' filter' having' branches' : Fragment} (ht : R table table') (hj : R joins joins')
    (hf : R filter filter') (hfb : filter.isBlank = filter'.isBlank) (hh : R having having')
    (hhb : having.isBlank = having'.isBlank) (hb : R branches branches') :
    R (q.assembled p table joins filter having branches)
      (q.assembled p' table' joins' filter' having' branches') := by
  have hlayout : ∀ a, R (q.layout p a table joins filter having branches)
      (q.layout p' a table' joins' filter' having' branches') := by
    intro a
    have hfrom := h.append (h.append (h.append (h.head q a hq hq') (h.word " from " (by decide))) ht) hj
    have hwhere := h.append (h.append hfrom (h.clause (w := "where") (by decide) hf hfb)) (h.grouping q)
    exact h.append (h.append (h.append hwhere (h.clause (by decide) hh hhb)) hb) (h.tail q hq hq')
  unfold Query.assembled
  split
  · exact hlayout none
  · next a _ =>
    split
    · have hselect := h.append (h.word "select " (by decide)) (h.aggregate a q.distinct)
      have hfrom := h.append hselect (h.word " from " (by decide))
      exact h.append (h.append (h.append hfrom (h.parenthesized (hlayout none))) (h.word _ (by decide))) (h.part _)
    · exact hlayout (some a)

end Simulation

end SqlQuery
