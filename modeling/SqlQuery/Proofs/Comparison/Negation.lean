import SqlQuery.Proofs.Comparison.Basic
import SqlQuery.Proofs.Subquery.Statement

/-!
# Negation

`Filter.negate` turns a tree of conditions into its opposite: a comparison is marked, a negation is undone, and all else
is put into a negation.  What the mark does is left to the compiler, which writes the operator's opposite, or `not`
around the comparison where the operator has none.  Either way one negation comes out.

* `Filter.Opposed` — the texts of a tree and of its opposite;
* `Filter.not_agree`, `Predicate.compare_agree` — a tree in a negation, and a comparison with its mark turned;
* `Filter.negate_agree` — every tree and its opposite;
* `Filter.negate_opposes` — **a tree and its opposite compile alike, up to one negation**.
-/

namespace SqlQuery

open SqlQuery.Fragment

variable {p : Paging}

/-- How the text of a tree and that of its opposite differ. -/
inductive Filter.Opposed (c : Filter) (t t' : String) : Prop
  /-- A tree that asks for nothing does so in both directions. -/
  | silent : t = "" → t' = "" → Opposed c t t'
  | negated : t' = "not (" ++ t ++ ")" → Opposed c t t'
  | undone : t = "not (" ++ t' ++ ")" → Opposed c t t'
  /-- A comparison by an operator that has an opposite: the two operators stand at one place. -/
  | turned {column op : String} {v : Value} {marked : Bool} {w w' : Operator} {right : String} :
      c = .predicate (.compare column op v marked) → Operator.ofText? op = some (if marked then w' else w) →
      w.negated? = some w' → t = quote column ++ " " ++ w.symbol ++ " " ++ right →
      t' = quote column ++ " " ++ w'.symbol ++ " " ++ right → Opposed c t t'

/-! ### Negations -/

theorem params_negation (f : Fragment) : params (negation f) = params f := by
  unfold negation
  split
  · rfl
  · rw [params_append, params_parenthesized, params_word, List.nil_append]

theorem text_notParenthesized (f : Fragment) : text (word "not " ++ parenthesized f) = "not (" ++ text f ++ ")" := by
  have hopen : "not (" = "not " ++ "(" := by decide
  simp only [parenthesized, text_append, text_word, hopen, String.append_assoc]

theorem text_negation (f : Fragment) :
    text f = "" ∧ text (negation f) = "" ∨ text (negation f) = "not (" ++ text f ++ ")" := by
  unfold negation
  split
  · next h => exact .inl ⟨text_eq_empty_iff.2 h, text_eq_empty_iff.2 h⟩
  · exact .inr (text_notParenthesized f)

/-- **A tree in a negation** fails like the tree, and otherwise has the same values and its text negated. -/
theorem Filter.not_agree (c : Filter) : Agree SameKind (fun f f' => params f' = params f ∧
    (text f = "" ∧ text f' = "" ∨ text f' = "not (" ++ text f ++ ")")) (c.fragment p) ((Filter.not c).fragment p) := by
  rw [Filter.fragment]
  cases c.fragment p with
  | error e => exact rfl
  | ok f => exact ⟨params_negation f, text_negation f⟩

/-! ### Comparisons -/

/-- **A comparison with its mark turned** has the opposite operator at its place, or is negated, or loses its
negation. -/
theorem Predicate.compare_agree (column op : String) (v : Value) (marked : Bool) :
    Agree SameKind (fun f f' => params f' = params f ∧
        (Filter.predicate (.compare column op v marked)).Opposed (text f) (text f'))
      ((Predicate.compare column op v marked).fragment p) ((Predicate.compare column op v (!marked)).fragment p) := by
  cases ho : Operator.ofText? op with
  | none =>
    rw [fragment_compare_of_unknown ho, fragment_compare_of_unknown ho]
    exact rfl
  | some o =>
    rw [fragment_compare_of_known ho, fragment_compare_of_known ho]
    cases hopposite : o.negated? with
    | some o' =>
      -- the operators that are written, with the mark and without
      obtain ⟨w, w', hw, hmarked, h, h'⟩ : ∃ w w' : Operator, w.negated? = some w' ∧
          o = (if marked then w' else w) ∧ o.oriented marked = (w, false) ∧ o.oriented (!marked) = (w', false) := by
        cases marked with
        | false => exact ⟨o, o', hopposite, rfl, rfl, by simp [Operator.oriented, hopposite]⟩
        | true => exact ⟨o', o, Operator.negated?_negated? hopposite, rfl, by simp [Operator.oriented, hopposite], rfl⟩
      rw [h, h']
      refine Agree.map (comparison_agree_opposite hw) fun f f' => ?_
      rintro ⟨g, rfl, rfl⟩
      refine ⟨?_, .turned rfl (hmarked ▸ ho) hw (text_operator column w g) (text_operator column w' g)⟩
      simp only [negatedComparison, Bool.false_eq_true, if_false, params_append, Operator.params_spacedSymbol]
    | none =>
      have horiented : ∀ marked, o.oriented marked = (o, marked) := fun marked => by
        cases marked <;> simp [Operator.oriented, hopposite]
      rw [horiented, horiented]
      cases comparison (name column) o v (v.fragment p none) (v.bounds? p none) with
      | error e => exact rfl
      | ok g =>
        cases marked with
        | false =>
          refine ⟨?_, .negated (text_notParenthesized g)⟩
          simp [negatedComparison]
        | true =>
          refine ⟨?_, .undone (text_notParenthesized g)⟩
          simp [negatedComparison]

/-! ### Every tree -/

namespace Filter

theorem negate_negate {c : Filter} (h : ∀ d, c ≠ not d) : c.negate.negate = c := by
  cases c with
  | predicate c =>
    cases c with
    | compare column op v marked => simp [negate]
    | _ => rfl
  | not d => exact absurd rfl (h d)
  | _ => rfl

/-- **A tree and its opposite.** -/
theorem negate_agree (c : Filter) : Agree SameKind (fun f f' => params f' = params f ∧ c.Opposed (text f) (text f'))
    (c.fragment p) (c.negate.fragment p) := by
  have hwrapped : Agree SameKind (fun f f' => params f' = params f ∧ c.Opposed (text f) (text f'))
      (c.fragment p) ((not c).fragment p) :=
    (not_agree c).imp fun f f' _ ⟨hparams, htext⟩ => ⟨hparams, htext.elim (fun h => .silent h.1 h.2) .negated⟩
  cases c with
  | predicate c =>
    cases c with
    | compare column op v marked =>
      rw [fragment, negate, fragment]
      exact Predicate.compare_agree column op v marked
    | _ => exact hwrapped
  | not d =>
    rw [negate, fragment]
    cases d.fragment p with
    | error e => exact rfl
    | ok f => exact ⟨(params_negation f).symm, (text_negation f).elim (fun h => .silent h.2 h.1) .undone⟩
  | _ => exact hwrapped

/-- **A tree and its opposite compile alike, up to one negation.**  Whatever has been collected before, both fail in one
kind, or both succeed with the same values and with texts that are opposed.  The opposite of the opposite is the tree
itself, unless that is a negation, which is undone at once. -/
theorem negate_opposes (p : Paging) (c : Filter) (vs : List Value) :
    ((∃ e e', collected vs (c.fragment p) = .error e ∧ collected vs (c.negate.fragment p) = .error e' ∧
        e.kind = e'.kind) ∨
      ∃ s s', collected vs (c.fragment p) = .ok s ∧ collected vs (c.negate.fragment p) = .ok s' ∧
        s'.params = s.params ∧ c.Opposed s.sql s'.sql) ∧
    ((∀ d, c ≠ not d) → collected vs (c.negate.negate.fragment p) = collected vs (c.fragment p)) := by
  refine ⟨?_, fun h => by rw [negate_negate h]⟩
  obtain ⟨e, e', he, he', hkind⟩ | ⟨f, f', hf, hf', hparams, hopposed⟩ := (negate_agree (p := p) c).ofSameKind
  · rw [he, he']
    exact .inl ⟨e, e', rfl, rfl, hkind⟩
  · rw [hf, hf']
    refine .inr ⟨_, _, rfl, rfl, ?_, ?_⟩
    · simp only [Fragment.collect_eq, hparams]
    · simpa only [Fragment.collect_eq, String.empty_append] using hopposed

set_option maxRecDepth 4000

/-- A marked comparison by an operator that is itself an opposite, in a spelling of its own. -/
def unlike : Filter :=
  predicate (.compare "name" "NOT  Like" (.string "a%") true)

theorem negate_opposes_unlike : (∀ d, unlike ≠ not d) ∧
    collected [.int 0] (unlike.fragment .legacy) = .ok ⟨"\"name\" like ?", [.int 0, .string "a%"]⟩ ∧
    collected [.int 0] (unlike.negate.fragment .legacy) = .ok ⟨"\"name\" not like ?", [.int 0, .string "a%"]⟩ ∧
    unlike.Opposed "\"name\" like ?" "\"name\" not like ?" ∧
    collected [.int 0] (unlike.negate.negate.fragment .legacy) = collected [.int 0] (unlike.fragment .legacy) := by
  have hc : ∀ d, unlike ≠ not d := nofun
  have hs : collected [.int 0] (unlike.fragment .legacy) = .ok ⟨"\"name\" like ?", [.int 0, .string "a%"]⟩ := by rfl
  have hs' : collected [.int 0] (unlike.negate.fragment .legacy) =
      .ok ⟨"\"name\" not like ?", [.int 0, .string "a%"]⟩ := by rfl
  obtain ⟨hopposes, htwice⟩ := negate_opposes .legacy unlike [.int 0]
  obtain ⟨e, -, he, -⟩ | ⟨s, s', h, h', -, hopposed⟩ := hopposes
  · exact nomatch hs.symm.trans he
  · obtain rfl := Except.ok.inj (hs.symm.trans h)
    obtain rfl := Except.ok.inj (hs'.symm.trans h')
    exact ⟨hc, hs, hs', hopposed, htwice hc⟩

end Filter

end SqlQuery
