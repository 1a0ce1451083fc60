import SqlQuery.Proofs.Relational.Agreement
import SqlQuery.Proofs.Subquery.Context
import SqlQuery.Proofs.Subquery.Frame

/-!
# Selects around a subquery

Whatever stands around the place for a subquery, the compiler treats all subqueries in it alike: one theorem for
each kind of context, by induction on contexts.

* `Value.fragments_append` and its like — lists are compiled part by part;
* `Framed.values`, `Framed.joins`, `Framed.group`, `Framed.branches` — lists around one member with a subquery;
* `QueryContext.select_framed` — **a select with a subquery compiles to a frame around it**.
-/

namespace SqlQuery

open SqlQuery.Fragment SqlQuery.Text

variable {p : Paging}

/-! ### Lists -/

section Lists

theorem Value.fragments_append (vs ws : List Value) : Value.fragments p (vs ++ ws) = do
    let fs ← Value.fragments p vs
    let gs ← Value.fragments p ws
    return fs ++ gs := by
  induction vs with
  | nil => exact (bind_pure _).symm
  | cons v vs ih =>
    simp only [List.cons_append, Value.fragments, ih, bind_assoc, pure_bind]

theorem Value.length_fragments {vs : List Value} {fs : List Fragment} (h : Value.fragments p vs = .ok fs) :
    fs.length = vs.length := by
  induction vs generalizing fs with
  | nil =>
    obtain rfl := Except.ok.inj h
    rfl
  | cons v vs ih =>
    obtain ⟨g, gs, -, hgs, rfl⟩ := Value.fragments_cons_eq_ok.1 h
    rw [List.length_cons, List.length_cons, ih hgs]

theorem Join.fragments_append (js ks : List Join) : Join.fragments p (js ++ ks) = do
    let f ← Join.fragments p js
    let g ← Join.fragments p ks
    return f ++ g := by
  induction js with
  | nil => exact (bind_pure _).symm
  | cons j js ih =>
    simp only [List.cons_append, Join.fragments, ih, bind_assoc, pure_bind, List.append_assoc]

theorem Filter.group_append (cs ds : List Filter) : Filter.group p (cs ++ ds) = do
    let fs ← Filter.group p cs
    let gs ← Filter.group p ds
    return fs ++ gs := by
  induction cs with
  | nil => exact (bind_pure _).symm
  | cons c cs ih =>
    rw [List.cons_append, Filter.group, Filter.group]
    split
    · exact ih
    · simp only [ih, bind_assoc, pure_bind, List.cons_append]

theorem Branch.fragments_append (bs ds : List Branch) : Branch.fragments p (bs ++ ds) = do
    let f ← Branch.fragments p bs
    let g ← Branch.fragments p ds
    return f ++ g := by
  induction bs with
  | nil => exact (bind_pure _).symm
  | cons b bs ih =>
    obtain ⟨op, q⟩ := b
    simp only [List.cons_append, Branch.fragments, ih, bind_assoc, pure_bind, List.append_assoc]

end Lists

namespace Framed

theorem values {v : Query → Value} (h : Framed p Around fun s => (v s).fragment p none) (before after : List Value) :
    Framed p (Among before.length) fun s => Value.fragments p (before ++ v s :: after) := by
  simp only [Value.fragments_append, Value.fragments]
  refine .const_bind fun fs hfs => ?_
  simp only [bind_assoc, pure_bind]
  refine h.bind fun k hk => .const_bind fun gs _ => .pure ?_
  exact ⟨fs, gs, k, Value.length_fragments hfs, hk, fun _ => rfl⟩

theorem joins {j : Query → Join} (h : Framed p Around fun s => (j s).fragment p) (before after : List Join) :
    Framed p Around fun s => Join.fragments p (before ++ j s :: after) := by
  simp only [Join.fragments_append, Join.fragments]
  refine .const_bind fun f _ => ?_
  simp only [bind_assoc, pure_bind]
  exact h.bind fun k hk => .const_bind fun g _ => .pure (((hk.append_left _).append_right g).append_left f)

theorem group {c : Query → Filter} (h : Framed p Around fun s => (c s).fragment p)
    (hempty : ∀ s, (c s).isEmpty = false) {parens : Bool} (hparens : ∀ s, (c s).needsParens = parens)
    (before after : List Filter) :
    Framed p (fun k => ∃ n, Among n k) fun s => Filter.group p (before ++ c s :: after) := by
  simp only [Filter.group_append, Filter.group, hempty, hparens, Bool.false_eq_true, if_false]
  refine .const_bind fun fs _ => ?_
  simp only [bind_assoc, pure_bind]
  refine h.bind fun k hk => .const_bind fun gs _ => .pure ?_
  exact ⟨fs.length, fs, gs, _, rfl, hk.grouped parens, fun _ => rfl⟩

theorem branches {q : Query → Query} (h : Framed p Around fun s => (q s).select p) {d : Option Defect}
    (hdefect : ∀ s, (q s).branchDefect? = d) (op : SetOp) (before after : List Branch) :
    Framed p Around fun s => Branch.fragments p (before ++ ⟨op, q s⟩ :: after) := by
  simp only [Branch.fragments_append, Branch.fragments, hdefect]
  refine .const_bind fun f _ => ?_
  simp only [bind_assoc, pure_bind]
  refine .const_bind fun _ _ => h.bind fun k hk => .const_bind fun g _ => .pure ?_
  exact ((hk.append_left _).append_right g).append_left f

end Framed

/-! ### Comparisons -/

theorem Value.bounds?_eq_none {part : Option DatePart} {vs : List Value} (h : vs.length ≠ 2) :
    (Value.list vs).bounds? p part = none := by
  match vs with
  | [] | [_] | _ :: _ :: _ :: _ => rfl
  | [_, _] => exact absurd rfl h

/-- A comparison with a list that may have a subquery in it. -/
theorem Framed.listComparison {v : Query → Value} {part : Option DatePart}
    (h : Framed p Around fun s => (v s).fragment p part) (lhs : Fragment) (op : Operator)
    (before after : List Value) : Framed p Around fun s => comparison lhs op (.list (before ++ v s :: after))
      ((Value.list (before ++ v s :: after)).fragment p part)
      ((Value.list (before ++ v s :: after)).bounds? p part) := by
  cases hr : op.isRange with
  | false =>
    have hlist : ∀ s, (Value.list (before ++ v s :: after)).isList = true := fun _ => rfl
    simp only [comparison_list hr (hlist _)]
    exact .error _
  | true =>
    by_cases hlength : before.length + after.length = 1
    · rcases Nat.add_eq_one_iff.1 hlength with ⟨hb, ha⟩ | ⟨hb, ha⟩
      · obtain rfl := List.length_eq_zero_iff.1 hb
        obtain ⟨high, rfl⟩ := List.length_eq_one_iff.1 ha
        simp only [comparison, hr, if_true, List.nil_append, Value.bounds?, bind_assoc, pure_bind]
        exact h.bind fun k hk => .const_bind fun g _ => .pure (((hk.append_left _).append_right _).append_right g)
      · obtain ⟨low, rfl⟩ := List.length_eq_one_iff.1 hb
        obtain rfl := List.length_eq_zero_iff.1 ha
        simp only [comparison, hr, if_true, List.singleton_append, Value.bounds?, bind_assoc, pure_bind]
        exact .const_bind fun g _ => h.map fun k hk => hk.append_left _
    · have hnone : ∀ s, (Value.list (before ++ v s :: after)).bounds? p part = none := by
        intro s
        refine Value.bounds?_eq_none ?_
        rw [List.length_append, List.length_cons]
        omega
      simp only [comparison, hr, if_true, hnone]
      exact .error _

/-! ### The recursion -/

theorem TableRef.fragment_subquery (q : Query) (label : Option String) :
    (TableRef.subquery q label).fragment p =
      q.select p >>= fun g => pure (labelled (parenthesized g) label) := by
  cases label <;> rfl

/-- The steps of compiling a select with a place: its checks and what it writes do not depend on the subquery. -/
theorem QueryContext.select_plug (c : QueryContext) (s : Query) : (c.plug s).select p = do
    Defect.refuse ((c.plug default).selectDefect? p)
    let table ← TableRef.optional p (c.plug s).table
    let joins ← Join.fragments p (c.plug s).joins
    let filter ← Filter.optional p (c.plug s).filter
    let having ← Filter.optional p (c.plug s).having
    let branches ← Branch.fragments p (c.plug s).branches
    return (c.plug default).assembled p table joins filter having branches := by
  have houtline := c.sameOutline s default
  simp only [Query.select_eq, houtline.selectDefect?_eq, houtline.assembled_eq]

mutual

/-- What is written around a subquery in parentheses. -/
theorem Place.framed {k : Fragment → Fragment} (hk : ∀ h, Around h → Around fun g => k (h g)) : ∀ c : Place,
    Framed p Around fun s => (c.plug s).select p >>= fun g => pure (k (parenthesized g))
  | .hole => Or.inr ⟨_, .pure (hk _ .parentheses), fun _ => rfl⟩
  | .inside c => (QueryContext.select_framed c).map fun _ h => hk _ h.parenthesized

theorem ValueContext.fragment_framed (part : Option DatePart) : ∀ c : ValueContext,
    Framed p Around fun s => (c.plug s).fragment p part
  | .subquery c => Place.framed (k := id) (fun _ => id) c
  | .list _ _ _ => .error _

theorem ValueContext.comparison_framed (lhs : Fragment) (op : Operator) (part : Option DatePart) :
    ∀ c : ValueContext, Framed p Around fun s =>
      comparison lhs op (c.plug s) ((c.plug s).fragment p part) ((c.plug s).bounds? p part)
  | .list before c after => (ValueContext.fragment_framed part c).listComparison lhs op before after
  | .subquery c => by
    cases hr : op.isRange with
    | true =>
      simp only [comparison, hr, if_true, ValueContext.plug, Value.bounds?]
      exact .error _
    | false =>
      have hone : ∀ s, comparison lhs op (.subquery (c.plug s)) ((Value.subquery (c.plug s)).fragment p part) none =
          (Value.subquery (c.plug s)).fragment p part >>= fun rhs => pure (lhs ++ op.spacedSymbol ++ rhs) :=
        fun s => comparison_one hr nofun rfl
      simp only [ValueContext.plug, Value.bounds?, hone]
      exact (ValueContext.fragment_framed part (.subquery c)).map fun k hk => hk.append_left _

theorem TableContext.framed : ∀ c : TableContext, Framed p Around fun s => (c.plug s).fragment p
  | .subquery c label => by
    simp only [TableContext.plug, TableRef.fragment_subquery]
    exact Place.framed (k := fun g => labelled g label) (fun _ h => h.labelled label) c
  | .procedure n before c after => by
    simp only [TableContext.plug, TableRef.fragment]
    refine .const_bind fun _ _ => ?_
    exact ((ValueContext.fragment_framed none c).values before after).map fun _ h => h.procedureCall n

theorem JoinContext.framed : ∀ c : JoinContext, Framed p Around fun s => (c.plug s).fragment p
  | .table kind c on => by
    simp only [JoinContext.plug, Join.fragment]
    refine (TableContext.framed c).bind fun k hk => ?_
    cases kind.takesCondition with
    | false => exact .pure (hk.join_table kind [])
    | true =>
      refine .const_bind fun condition _ => ?_
      cases condition.isBlank with
      | false => exact .pure (hk.join_table kind condition)
      | true =>
        -- the failure names the table, and so shows the text of the subquery
        obtain ⟨t, ht⟩ := hk.text
        refine Or.inl ⟨fun sql => .malformedQuery (.joinWithoutCondition kind (t sql)), fun g => ?_⟩
        simp only [ht]
        rfl
  | .on kind table c takes => by
    simp only [JoinContext.plug, Join.fragment, takes, if_true, Filter.optional, Bool.true_and]
    refine .const_bind fun t _ => (FilterContext.framed c).bind fun k hk => ?_
    simp only [hk.isBlank, Bool.false_eq_true, if_false]
    exact .pure (hk.join_on takes t)

theorem FilterContext.framed : ∀ c : FilterContext, Framed p Around fun s => (c.plug s).fragment p
  | .and before c after => by
    simp only [FilterContext.plug, Filter.fragment]
    exact ((FilterContext.framed c).group (fun s => c.isEmpty_plug s) (fun s => c.needsParens_plug s default)
      before after).map fun _ ⟨_, h⟩ => h.joined " and "
  | .or before c after => by
    simp only [FilterContext.plug, Filter.fragment]
    exact ((FilterContext.framed c).group (fun s => c.isEmpty_plug s) (fun s => c.needsParens_plug s default)
      before after).map fun _ ⟨_, h⟩ => h.joined " or "
  | .not c => (FilterContext.framed c).map fun _ h => h.negation
  | .predicate c => PredicateContext.framed c

theorem PredicateContext.framed : ∀ c : PredicateContext, Framed p Around fun s => (c.plug s).fragment p
  | .compare column op c negated => by
    simp only [PredicateContext.plug, Predicate.fragment]
    refine .const_bind fun o _ => ?_
    exact (ValueContext.comparison_framed (name column) _ none c).map fun _ h => h.negatedComparison _
  | .isIn column before c after negated => by
    simp only [PredicateContext.plug, Predicate.fragment]
    exact ((ValueContext.fragment_framed none c).values before after).map fun _ h => h.membership column negated
  | .inSelect column c negated =>
    Place.framed (k := fun g => name column ++ word " " ++ notWord negated ++ word "in " ++ g)
      (fun _ h => h.append_left _) c
  | .datePart column part op c => by
    simp only [PredicateContext.plug, Predicate.fragment]
    exact .const_bind fun o _ => ValueContext.comparison_framed (part.ofColumn column) o (some part) c
  | .rowExists c negated =>
    Place.framed (k := fun g => notWord negated ++ word "exists " ++ g) (fun _ h => h.append_left _) c

/-- **Frames.**  A select with a place for a subquery fails for every subquery there, or it compiles the subquery
and writes the same around each, or fails with the same failure for each text of it. -/
theorem QueryContext.select_framed : ∀ c : QueryContext, Framed p Around fun s => (c.plug s).select p
  | .table q c => by
    simp only [QueryContext.select_plug]
    simp only [QueryContext.plug, TableRef.optional]
    refine .const_bind fun _ _ => (TableContext.framed c).bind fun k hk => .const_bind fun j _ => ?_
    refine .const_bind fun w _ => .const_bind fun v _ => .const_bind fun b _ => .pure ?_
    exact (hk.assembled p _ [] j w v b).1
  | .join q before c after => by
    simp only [QueryContext.select_plug]
    simp only [QueryContext.plug]
    refine .const_bind fun _ _ => .const_bind fun t _ => ?_
    refine ((JoinContext.framed c).joins before after).bind fun k hk => ?_
    refine .const_bind fun w _ => .const_bind fun v _ => .const_bind fun b _ => .pure ?_
    exact (hk.assembled p _ t [] w v b).2.1
  | .filter q c => by
    simp only [QueryContext.select_plug]
    simp only [QueryContext.plug, Filter.optional]
    refine .const_bind fun _ _ => .const_bind fun t _ => .const_bind fun j _ => ?_
    refine (FilterContext.framed c).bind fun k hk => .const_bind fun v _ => .const_bind fun b _ => .pure ?_
    exact (hk.assembled p _ t j [] v b).2.2.1
  | .having q c => by
    simp only [QueryContext.select_plug]
    simp only [QueryContext.plug, Filter.optional]
    refine .const_bind fun _ _ => .const_bind fun t _ => .const_bind fun j _ => .const_bind fun w _ => ?_
    refine (FilterContext.framed c).bind fun k hk => .const_bind fun b _ => .pure ?_
    exact (hk.assembled p _ t j w [] b).2.2.2.1
  | .branch q before op c after => by
    have hdefect : ∀ s, (c.plug s).branchDefect? = (c.plug default).branchDefect? := fun s =>
      (c.sameOutline s default).branchDefect?_eq
    simp only [QueryContext.select_plug]
    simp only [QueryContext.plug]
    refine .const_bind fun _ _ => .const_bind fun t _ => .const_bind fun j _ => .const_bind fun w _ => ?_
    refine .const_bind fun v _ => ((QueryContext.select_framed c).branches hdefect op before after).map fun k hk => ?_
    exact (hk.assembled p _ t j w v []).2.2.2.2
  | .assignment q before column c after => by
    simp only [QueryContext.select_plug]
    refine .const_bind fun _ hd => ?_
    -- a select has no assignments
    obtain ⟨-, -, -, -, -, -, hnone, -⟩ := Query.selectDefect?_eq_none.1 (refuse_eq_ok.1 hd)
    rw [QueryContext.plug, isEmpty_append_cons] at hnone
    exact nomatch hnone

end

end SqlQuery
