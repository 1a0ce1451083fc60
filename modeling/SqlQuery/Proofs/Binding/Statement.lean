import SqlQuery.Proofs.Binding.Clauses
import SqlQuery.Proofs.Binding.Inline
import SqlQuery.Proofs.Form.Statement

/-!
# Positional binding

The `n`-th value of a statement belongs to its `n`-th placeholder.  Stated without positions: a statement with
its values put in place of its placeholders is what the description with its values written out compiles to.

* `Formed.piecesBound` — in formed SQL every piece has one placeholder for each of its values;
* `Value.fragment_inlined` … `Query.select_inlined` — compiling and writing values out can change places, by
  induction on the description;
* `Query.compile_inlined` — **positional binding**.
-/

namespace SqlQuery

open SqlQuery.Fragment SqlQuery.Text

/-- SQL of the caller's own with closed quotes and one placeholder for each of its values. -/
def Verbatim.WellBound (r : Verbatim) : Prop := SqlQuery.WellBound r.sql r.bindings

instance : DecidablePred Verbatim.WellBound := fun r => by unfold Verbatim.WellBound; infer_instance

/-! ### Formed pieces -/

theorem wellBound_phrase {w : String} (h : Phrase w) : WellBound w [] where
  evenQuotes := evenQuotes_of_notMem h.1
  marks := by
    rw [bareMarks, outside_of_notMem h.1, List.count_eq_zero.2 h.2.1]
    rfl
  scalars := fun _ hv => nomatch hv

/-- What stands outside of quotes decides whether a text without values is well bound. -/
theorem wellBound_of_outside {s : String} {i : Identifier} (he : EvenQuotes s.toList)
    (h : outside false s.toList = skeleton i) : WellBound s [] where
  evenQuotes := he
  marks := by
    rw [bareMarks, h]
    exact List.count_eq_zero.2 fun hm => absurd (mem_skeleton hm) (by decide)
  scalars := fun _ hv => nomatch hv

theorem wellBound_mark {v : Value} (h : v.isScalar = true) : WellBound "?" [v] where
  evenQuotes := by decide
  marks := (by decide : bareMarks "?".toList = 1)
  scalars := List.forall_mem_singleton.2 h

theorem Formed.piecesBound {f : Fragment} (h : Formed Verbatim.WellBound f) : PiecesBound f := by
  induction h with
  | nil => exact fun _ hx => nomatch hx
  | word hw _ => exact List.forall_mem_singleton.2 (wellBound_phrase hw)
  | name n => exact List.forall_mem_singleton.2 (wellBound_of_outside (evenQuotes_quote n) (outside_quote n))
  | part n =>
    exact List.forall_mem_singleton.2 (wellBound_of_outside (evenQuotes_quotePart n) (outside_quotePart n))
  | bound hv => exact List.forall_mem_singleton.2 (wellBound_mark hv)
  | verbatim hr => exact List.forall_mem_singleton.2 hr
  | append _ _ _ ihf ihg => exact List.forall_mem_append.2 ⟨ihf, ihg⟩
  | enclosed hlr _ ih =>
    refine List.forall_mem_append.2 ⟨List.forall_mem_append.2 ⟨?_, ih⟩, ?_⟩
    · exact List.forall_mem_singleton.2 (wellBound_phrase hlr.1.1)
    · exact List.forall_mem_singleton.2 (wellBound_phrase hlr.2.1)

/-! ### Comparisons -/

theorem Operator.takesNull_oriented (op : Operator) (negated : Bool) :
    (op.oriented negated).1.takesNull = op.takesNull := by
  cases op <;> cases negated <;> rfl

theorem compareNull_of_takesNull {lhs : Fragment} {op : Operator} (hl : params lhs = [])
    (h : op.takesNull = true) : (compareNull lhs op).inlined = compareNull lhs op := by
  refine inlined_of_params_eq_nil ?_
  cases op with
  | eq | ne | bangEq | isDistinctFrom | isNotDistinctFrom =>
    simp [compareNull, Operator.isDistinctness, Operator.spacedSymbol, hl]
  | _ => exact absurd h (by decide)

theorem compareNull_of_not_takesNull {lhs : Fragment} {op : Operator} (h : op.takesNull = false) :
    compareNull lhs op = lhs ++ op.spacedSymbol ++ [.bound .null] := by
  cases op with
  | eq | ne | bangEq | isDistinctFrom | isNotDistinctFrom => exact absurd h (by decide)
  | _ => rfl

theorem Value.inlined_ne_null (part : Option DatePart) (v : Value) : v.inlined part ≠ .null := by
  cases v <;> exact fun h => nomatch h

theorem Value.inlined_ne_list {part : Option DatePart} {v : Value} (h : ∀ vs, v ≠ .list vs) :
    ∀ vs, v.inlined part ≠ .list vs := by
  cases v with
  | list vs => exact absurd rfl (h vs)
  | _ => exact fun _ h => nomatch h

theorem Value.isNullWord_iff {op : String} {o : Operator} {v : Value} (ho : Operator.ofText? op = some o) :
    v.isNullWord op = true ↔ v = .null ∧ o.takesNull = true := by
  cases v <;> simp [Value.isNullWord, ho]

section Comparison

variable {p : Paging} {lhs f : Fragment} {op : String} {o : Operator} {v : Value} {part : Option DatePart}

/-- A comparison with null as a word is the same with its value written out. -/
theorem comparison_nullWord (hl : params lhs = []) (ht : o.takesNull = true)
    (h : comparison lhs o .null (Value.null.fragment p part) (Value.null.bounds? p part) = .ok f) :
    f.inlined = f := by
  rcases comparison_eq_ok.1 h with ⟨-, low, high, hb, -⟩ | ⟨-, -, rfl⟩ | ⟨-, hn, -⟩
  · cases hb
  · exact compareNull_of_takesNull hl ht
  · exact absurd rfl hn

/-- A comparison without null as a word, with its value written out. -/
theorem comparison_inlined (hl : params lhs = []) (hnull : v = .null → o.takesNull = false)
    (hoperand : ∀ g, v.fragment p part = .ok g → (v.inlined part).fragment p part = .ok g.inlined)
    (hbounds : ∀ low high, v.bounds? p part = some (.ok (low, high)) →
      (v.inlined part).bounds? p part = some (.ok (low.inlined, high.inlined)))
    (h : comparison lhs o v (v.fragment p part) (v.bounds? p part) = .ok f) :
    comparison lhs o (v.inlined part) ((v.inlined part).fragment p part) ((v.inlined part).bounds? p part) =
      .ok f.inlined := by
  have hlhs : lhs.inlined = lhs := inlined_of_params_eq_nil hl
  have hsymbol : o.spacedSymbol.inlined = o.spacedSymbol := rfl
  rw [comparison_eq_ok]
  rcases comparison_eq_ok.1 h with ⟨hr, low, high, hb, rfl⟩ | ⟨hr, rfl, rfl⟩ | ⟨hr, hn, hlist, rhs, hrhs, rfl⟩
  · refine Or.inl ⟨hr, _, _, hbounds low high hb, ?_⟩
    simp only [inlined_append, inlined_word, hlhs, hsymbol]
  · -- null is bound, and written out it is an operand like any other
    have hbound : Value.null.fragment p part = .ok [.bound (Value.null.narrowTo part)] :=
      Value.fragment_of_isScalar rfl
    have hnarrow : Value.null.narrowTo part = .null := by
      rcases part with _ | part
      · rfl
      · cases part <;> rfl
    refine Or.inr (Or.inr ⟨hr, Value.inlined_ne_null _ _, Value.inlined_ne_list (by simp), _,
      hoperand _ hbound, ?_⟩)
    rw [hnarrow, compareNull_of_not_takesNull (hnull rfl), inlined_append, inlined_append, hlhs, hsymbol]
  · refine Or.inr (Or.inr ⟨hr, Value.inlined_ne_null _ _, Value.inlined_ne_list hlist, _, hoperand _ hrhs, ?_⟩)
    rw [inlined_append, inlined_append, hlhs, hsymbol]

/-- What `Predicate.inlined` does to the value of a comparison. -/
theorem comparison_operand {o' : Operator} (ho : Operator.ofText? op = some o)
    (ht : o'.takesNull = o.takesNull) (hl : params lhs = [])
    (hoperand : ∀ g, v.fragment p part = .ok g → (v.inlined part).fragment p part = .ok g.inlined)
    (hbounds : ∀ low high, v.bounds? p part = some (.ok (low, high)) →
      (v.inlined part).bounds? p part = some (.ok (low.inlined, high.inlined)))
    (h : comparison lhs o' v (v.fragment p part) (v.bounds? p part) = .ok f) :
    comparison lhs o' (if v.isNullWord op then v else v.inlined part)
      ((if v.isNullWord op then v else v.inlined part).fragment p part)
      ((if v.isNullWord op then v else v.inlined part).bounds? p part) = .ok f.inlined := by
  cases hw : v.isNullWord op with
  | true =>
    obtain ⟨rfl, htakes⟩ := (Value.isNullWord_iff ho).1 hw
    rw [if_pos rfl, comparison_nullWord hl (ht.trans htakes) h]
    exact h
  | false =>
    rw [if_neg Bool.false_ne_true]
    refine comparison_inlined hl (fun hv => ?_) hoperand hbounds h
    rw [ht, Bool.eq_false_iff]
    intro htakes
    rw [(Value.isNullWord_iff ho).2 ⟨hv, htakes⟩] at hw
    exact nomatch hw

end Comparison

/-! ### The recursion -/

section Recursion

variable {p : Paging}

theorem Value.scalar_inlined {part : Option DatePart} {v : Value} {f : Fragment} (hs : v.isScalar = true)
    (hf : v.fragment p part = .ok f) : (v.inlined part).fragment p part = .ok f.inlined := by
  rw [Value.fragment_of_isScalar hs] at hf
  cases hf
  cases v with
  | raw | column | list | subquery => exact nomatch hs
  | _ => rfl

mutual

theorem Value.fragment_inlined (part : Option DatePart) : ∀ (v : Value) (_ : ∀ r ∈ v.verbatims, r.WellBound)
    {f : Fragment}, v.fragment p part = .ok f → (v.inlined part).fragment p part = .ok f.inlined
  | .raw sql, _, f, hf => by
    cases hf
    rw [inlined_of_params_eq_nil rfl]
    rfl
  | .column c, _, f, hf => by
    cases hf
    rfl
  | .list _, _, f, hf => nomatch hf
  | .subquery q, h, f, hf => by
    obtain ⟨inner, hi, rfl⟩ := Value.fragment_subquery_eq_ok.1 hf
    rw [Value.inlined]
    exact Value.fragment_subquery_eq_ok.2 ⟨_, Query.select_inlined q h hi, (inlined_parenthesized _).symm⟩
  | .null, _, _, hf | .bool _, _, _, hf | .int _, _, _, hf | .float _, _, _, hf | .string _, _, _, hf
  | .date _, _, _, hf | .time _, _, _, hf | .timestamp _, _, _, hf => Value.scalar_inlined rfl hf

theorem Value.bounds_inlined (part : Option DatePart) : ∀ (v : Value) (_ : ∀ r ∈ v.verbatims, r.WellBound)
    (low high : Fragment), v.bounds? p part = some (.ok (low, high)) →
      (v.inlined part).bounds? p part = some (.ok (low.inlined, high.inlined))
  | .list [l, h], hr, low, high, hb => by
    obtain ⟨l', h', heq, hl, hh⟩ := Value.bounds?_eq_some_ok.1 hb
    cases heq
    simp only [Value.verbatims, Value.allVerbatims, List.append_nil, List.forall_mem_append] at hr
    exact Value.bounds?_eq_some_ok.2 ⟨l.inlined part, h.inlined part, rfl,
      Value.fragment_inlined part l hr.1 hl, Value.fragment_inlined part h hr.2 hh⟩
  | .list [], _, _, _, hb | .list [_], _, _, _, hb | .list (_ :: _ :: _ :: _), _, _, _, hb
  | .null, _, _, _, hb | .bool _, _, _, _, hb | .int _, _, _, _, hb | .float _, _, _, _, hb
  | .string _, _, _, _, hb | .date _, _, _, _, hb | .time _, _, _, _, hb | .timestamp _, _, _, _, hb
  | .raw _, _, _, _, hb | .column _, _, _, _, hb | .subquery _, _, _, _, hb => nomatch hb

theorem Value.fragments_inlined : ∀ (vs : List Value) (_ : ∀ r ∈ Value.allVerbatims vs, r.WellBound)
    {fs : List Fragment}, Value.fragments p vs = .ok fs →
      Value.fragments p (Value.allInlined none vs) = .ok (fs.map Fragment.inlined)
  | [], _, fs, hf => by
    cases hf
    rfl
  | v :: vs, h, fs, hf => by
    obtain ⟨g, gs, hg, hgs, rfl⟩ := Value.fragments_cons_eq_ok.1 hf
    rw [Value.allVerbatims, List.forall_mem_append] at h
    rw [Value.allInlined]
    exact Value.fragments_cons_eq_ok.2
      ⟨_, _, Value.fragment_inlined none v h.1 hg, Value.fragments_inlined vs h.2 hgs, rfl⟩

theorem TableRef.fragment_inlined : ∀ (t : TableRef) (_ : ∀ r ∈ t.verbatims, r.WellBound) {f : Fragment},
    t.fragment p = .ok f → t.inlined.fragment p = .ok f.inlined
  | .named n, _, f, hf => by
    obtain ⟨hn, rfl⟩ := TableRef.fragment_named_eq_ok.1 hf
    exact TableRef.fragment_named_eq_ok.2 ⟨hn, rfl⟩
  | .raw sql bindings, _, f, hf => by
    cases hf
    rfl
  | .subquery q label, h, f, hf => by
    obtain ⟨inner, hi, rfl⟩ := TableRef.fragment_subquery_eq_ok.1 hf
    rw [TableRef.inlined, inlined_labelled, inlined_parenthesized]
    exact TableRef.fragment_subquery_eq_ok.2 ⟨_, Query.select_inlined q h hi, rfl⟩
  | .procedure n args, h, f, hf => by
    obtain ⟨hn, gs, hgs, rfl⟩ := TableRef.fragment_procedure_eq_ok.1 hf
    rw [TableRef.inlined, inlined_procedureCall]
    exact TableRef.fragment_procedure_eq_ok.2 ⟨hn, _, Value.fragments_inlined args h hgs, rfl⟩

theorem TableRef.optional_inlined : ∀ (t : Option TableRef) (_ : ∀ r ∈ TableRef.optVerbatims t, r.WellBound)
    {f : Fragment}, TableRef.optional p t = .ok f → TableRef.optional p (TableRef.optInlined t) = .ok f.inlined
  | none, _, f, hf => by
    cases hf
    rfl
  | some t, h, f, hf => TableRef.fragment_inlined t h hf

theorem Join.fragments_inlined : ∀ (js : List Join) (_ : ∀ r ∈ Join.allVerbatims js, r.WellBound)
    {f : Fragment}, Join.fragments p js = .ok f → Join.fragments p (Join.allInlined js) = .ok f.inlined
  | [], _, f, hf => by
    cases hf
    rfl
  | ⟨kind, t, on⟩ :: js, h, f, hf => by
    obtain ⟨g, gs, hg, hgs, rfl⟩ := Join.fragments_cons_eq_ok.1 hf
    rw [Join.allVerbatims, Join.verbatims, List.forall_mem_append, List.forall_mem_append] at h
    obtain ⟨⟨ht, ho⟩, hjs⟩ := h
    have hjoin : Join.fragment p ⟨kind, t.inlined, Filter.optInlined on⟩ = .ok g.inlined := by
      obtain ⟨table, htable, hrest⟩ := Join.fragment_eq_ok.1 hg
      refine Join.fragment_eq_ok.2 ⟨_, TableRef.fragment_inlined t ht htable, ?_⟩
      rcases hrest with ⟨hk, rfl⟩ | ⟨hk, condition, hc, hblank, rfl⟩
      · exact Or.inl ⟨hk, (inlined_joinFragment kind table []).symm⟩
      · have hbound := (Filter.optional_formed on ho hc).piecesBound
        refine Or.inr ⟨hk, _, Filter.optional_inlined on ho hc, ?_, (inlined_joinFragment _ _ _).symm⟩
        rw [isBlank_inlined hbound, hblank]
    rw [Join.allInlined, inlined_append, inlined_append, inlined_word]
    exact Join.fragments_cons_eq_ok.2 ⟨_, _, hjoin, Join.fragments_inlined js hjs hgs, rfl⟩

theorem Filter.fragment_inlined : ∀ (c : Filter) (_ : ∀ r ∈ c.verbatims, r.WellBound) {f : Fragment},
    c.fragment p = .ok f → c.inlined.fragment p = .ok f.inlined
  | .and cs, h, f, hf => by
    obtain ⟨gs, hgs, rfl⟩ := Filter.fragment_and_eq_ok.1 hf
    rw [Filter.inlined, inlined_joined]
    exact Filter.fragment_and_eq_ok.2 ⟨_, Filter.group_inlined cs h hgs, rfl⟩
  | .or cs, h, f, hf => by
    obtain ⟨gs, hgs, rfl⟩ := Filter.fragment_or_eq_ok.1 hf
    rw [Filter.inlined, inlined_joined]
    exact Filter.fragment_or_eq_ok.2 ⟨_, Filter.group_inlined cs h hgs, rfl⟩
  | .not c, h, f, hf => by
    obtain ⟨g, hg, rfl⟩ := Filter.fragment_not_eq_ok.1 hf
    have hbound := (Filter.fragment_formed c h hg).piecesBound
    rw [Filter.inlined, inlined_negation hbound]
    exact Filter.fragment_not_eq_ok.2 ⟨_, Filter.fragment_inlined c h hg, rfl⟩
  | .predicate c, h, f, hf => Predicate.fragment_inlined c h hf
  | .raw sql bindings, _, f, hf => by
    cases hf
    rfl

theorem Filter.group_inlined : ∀ (cs : List Filter) (_ : ∀ r ∈ Filter.allVerbatims cs, r.WellBound)
    {fs : List Fragment}, Filter.group p cs = .ok fs →
      Filter.group p (Filter.allInlined cs) = .ok (fs.map Fragment.inlined)
  | [], _, fs, hf => by
    cases hf
    rfl
  | c :: cs, h, fs, hf => by
    rw [Filter.allVerbatims, List.forall_mem_append] at h
    have hempty := c.isEmpty_inlined
    rw [Filter.allInlined]
    cases he : c.isEmpty with
    | true =>
      rw [Filter.group_cons_of_isEmpty he] at hf
      rw [Filter.group_cons_of_isEmpty (hempty.trans he)]
      exact Filter.group_inlined cs h.2 hf
    | false =>
      obtain ⟨g, gs, hg, hgs, rfl⟩ := (Filter.group_cons_eq_ok he).1 hf
      have hgrouped : c.inlined.grouped g.inlined = (c.grouped g).inlined := by
        unfold Filter.grouped
        rw [c.needsParens_inlined]
        split
        · exact (inlined_parenthesized g).symm
        · rfl
      rw [Filter.group_cons_eq_ok (hempty.trans he), List.map_cons, ← hgrouped]
      exact ⟨_, _, Filter.fragment_inlined c h.1 hg, Filter.group_inlined cs h.2 hgs, rfl⟩

theorem Filter.optional_inlined : ∀ (c : Option Filter) (_ : ∀ r ∈ Filter.optVerbatims c, r.WellBound)
    {f : Fragment}, Filter.optional p c = .ok f → Filter.optional p (Filter.optInlined c) = .ok f.inlined
  | none, _, f, hf => by
    cases hf
    rfl
  | some c, h, f, hf => Filter.fragment_inlined c h hf

theorem Predicate.fragment_inlined : ∀ (c : Predicate) (_ : ∀ r ∈ c.verbatims, r.WellBound) {f : Fragment},
    c.fragment p = .ok f → c.inlined.fragment p = .ok f.inlined
  | .compare c op v negated, h, f, hf => by
    obtain ⟨o, ho, g, hg, rfl⟩ := Predicate.fragment_compare_eq_ok.1 hf
    have hoperand : ∀ x, v.fragment p none = .ok x → (v.inlined none).fragment p none = .ok x.inlined :=
      fun _ hx => Value.fragment_inlined none v h hx
    have hcompare := comparison_operand ho (o.takesNull_oriented negated) rfl hoperand
      (Value.bounds_inlined none v h) hg
    rw [Predicate.inlined, inlined_negatedComparison]
    exact Predicate.fragment_compare_eq_ok.2 ⟨o, ho, _, hcompare, rfl⟩
  | .isIn c vs negated, h, f, hf => by
    obtain ⟨gs, hgs, rfl⟩ := Predicate.fragment_isIn_eq_ok.1 hf
    rw [Predicate.inlined, inlined_membership]
    exact Predicate.fragment_isIn_eq_ok.2 ⟨_, Value.fragments_inlined vs h hgs, rfl⟩
  | .inSelect c q negated, h, f, hf => by
    obtain ⟨inner, hi, rfl⟩ := Predicate.fragment_inSelect_eq_ok.1 hf
    rw [Predicate.inlined]
    refine Predicate.fragment_inSelect_eq_ok.2 ⟨_, Query.select_inlined q h hi, ?_⟩
    simp only [inlined_append, inlined_name, inlined_word, inlined_notWord, inlined_parenthesized]
  | .isNull c negated, _, f, hf => by
    cases hf
    rw [Predicate.inlined, Predicate.fragment]
    simp only [inlined_append, inlined_name, inlined_word, inlined_notWord]
  | .datePart c part op v, h, f, hf => by
    obtain ⟨o, ho, hg⟩ := Predicate.fragment_datePart_eq_ok.1 hf
    have hoperand : ∀ x, v.fragment p (some part) = .ok x →
        (v.inlined (some part)).fragment p (some part) = .ok x.inlined :=
      fun _ hx => Value.fragment_inlined (some part) v h hx
    have hcompare := comparison_operand ho rfl (part.params_ofColumn c) hoperand
      (Value.bounds_inlined (some part) v h) hg
    rw [Predicate.inlined]
    exact Predicate.fragment_datePart_eq_ok.2 ⟨o, ho, hcompare⟩
  | .rowExists q negated, h, f, hf => by
    obtain ⟨inner, hi, rfl⟩ := Predicate.fragment_rowExists_eq_ok.1 hf
    rw [Predicate.inlined]
    refine Predicate.fragment_rowExists_eq_ok.2 ⟨_, Query.select_inlined q h hi, ?_⟩
    simp only [inlined_append, inlined_word, inlined_notWord, inlined_parenthesized]

theorem Branch.fragments_inlined : ∀ (bs : List Branch) (_ : ∀ r ∈ Branch.allVerbatims bs, r.WellBound)
    {f : Fragment}, Branch.fragments p bs = .ok f → Branch.fragments p (Branch.allInlined bs) = .ok f.inlined
  | [], _, f, hf => by
    cases hf
    rfl
  | ⟨op, q⟩ :: bs, h, f, hf => by
    obtain ⟨hd, g, gs, hg, hgs, rfl⟩ := Branch.fragments_cons_eq_ok.1 hf
    rw [Branch.allVerbatims, List.forall_mem_append] at h
    rw [Branch.allInlined, inlined_append, inlined_append, inlined_word]
    exact Branch.fragments_cons_eq_ok.2 ⟨q.inlined_sameOutline.branchDefect?_eq.trans hd, _, _,
      Query.select_inlined q h.1 hg, Branch.fragments_inlined bs h.2 hgs, rfl⟩

theorem Query.select_inlined : ∀ (q : Query) (_ : ∀ r ∈ q.verbatims, r.WellBound) {f : Fragment},
    q.select p = .ok f → q.inlined.select p = .ok f.inlined
  | ⟨action, table, distinct, columns, joins, filter, groups, having, orders, limit, offset, aggregate,
      branches, lock, assignments, returning⟩, h, f, hf => by
    obtain ⟨hd, t, ht, j, hj, w, hw, g, hg, b, hb, rfl⟩ := Query.select_eq_ok.1 hf
    have hq := Query.allVerbatims_iff.1 h
    have hfilter := (Filter.optional_formed filter hq.filter hw).piecesBound
    have hhaving := (Filter.optional_formed having hq.having hg).piecesBound
    have houtline := Query.inlined_sameOutline ⟨action, table, distinct, columns, joins, filter, groups, having,
      orders, limit, offset, aggregate, branches, lock, assignments, returning⟩
    rw [Query.inlined_assembled hfilter hhaving, ← houtline.assembled_eq]
    refine Query.select_eq_ok.2 ⟨(houtline.selectDefect?_eq p).trans hd, _,
      TableRef.optional_inlined table hq.table ht, _, Join.fragments_inlined joins hq.joins hj, _,
      Filter.optional_inlined filter hq.filter hw, _, Filter.optional_inlined having hq.having hg, _,
      Branch.fragments_inlined branches hq.branches hb, rfl⟩

end

end Recursion

/-! ### Writes -/

section Writes

variable {p : Paging} {q : Query} {f : Fragment}

/-- The parts of the description that a write compiles, with their values written out. -/
theorem Query.inlined_fields (q : Query) : q.inlined.action = q.action ∧
    q.inlined.table = TableRef.optInlined q.table ∧ q.inlined.filter = Filter.optInlined q.filter ∧
    q.inlined.assignments = Assignment.allInlined q.assignments ∧ q.inlined.givesBack = q.givesBack := by
  cases q
  exact ⟨rfl, rfl, rfl, rfl, rfl⟩

theorem Assignment.map_value_inlined (as : List Assignment) :
    (Assignment.allInlined as).map Assignment.value = Value.allInlined none (as.map Assignment.value) := by
  induction as with
  | nil => rfl
  | cons a as ih =>
    obtain ⟨c, v⟩ := a
    rw [Assignment.allInlined, List.map_cons, List.map_cons, Value.allInlined, ih]

theorem Assignment.map_column_inlined (as : List Assignment) :
    ((Assignment.allInlined as).map fun a => name a.column) = as.map fun a => name a.column := by
  induction as with
  | nil => rfl
  | cons a as ih =>
    obtain ⟨c, v⟩ := a
    rw [Assignment.allInlined, List.map_cons, List.map_cons, ih]

theorem Assignment.map_set_inlined (as : List Assignment) (values : List Fragment) :
    ((Assignment.allInlined as).zip (values.map Fragment.inlined)).map
        (fun (a, v) => name a.column ++ word " = " ++ v) =
      ((as.zip values).map fun (a, v) => name a.column ++ word " = " ++ v).map Fragment.inlined := by
  induction as generalizing values with
  | nil => rfl
  | cons a as ih =>
    obtain ⟨c, v⟩ := a
    cases values with
    | nil => rfl
    | cons x values =>
      rw [Assignment.allInlined, List.map_cons, List.zip_cons_cons, List.zip_cons_cons, List.map_cons,
        List.map_cons, List.map_cons, ih values]
      simp only [inlined_append, inlined_name, inlined_word]

theorem Query.assigned_inlined (h : ∀ r ∈ Assignment.allVerbatims q.assignments, r.WellBound)
    {fs : List Fragment} (hf : q.assigned p = .ok fs) : q.inlined.assigned p = .ok (fs.map Fragment.inlined) := by
  obtain ⟨-, -, -, hassignments, -⟩ := q.inlined_fields
  rw [Assignment.allVerbatims_eq] at h
  rw [Query.assigned_eq] at hf
  rw [Query.assigned_eq, hassignments, Assignment.map_value_inlined]
  exact Value.fragments_inlined _ h hf

theorem Query.insertFragment_inlined (hq : q.AllVerbatims Verbatim.WellBound)
    (h : q.insertFragment p = .ok f) : q.inlined.insertFragment p = .ok f.inlined := by
  obtain ⟨-, htable, -, hassignments, hback⟩ := q.inlined_fields
  obtain ⟨table, ht, hn, hread, hdefect, values, hv, rfl⟩ := Query.insertFragment_eq_ok.1 h
  refine Query.insertFragment_eq_ok.2 ⟨table, ?_, hn, q.inlined_sameOutline.readClause?_eq.trans hread,
    (q.inlined_sameOutline.insertDefect?_eq table).trans hdefect, _, Query.assigned_inlined hq.assignments hv, ?_⟩
  · rw [htable, ht]
    rfl
  · rw [hassignments, Assignment.map_column_inlined, hback]
    have hcolumns : params (joined ", " (q.assignments.map fun a => name a.column)) = [] := by
      refine params_joined_eq_nil ?_
      rw [List.forall_mem_map]
      exact fun _ _ => rfl
    simp only [inlined_append, inlined_word, inlined_name, inlined_parenthesized, inlined_joined ", " values,
      inlined_of_params_eq_nil hcolumns, inlined_of_params_eq_nil q.params_givesBack]

theorem Query.updateFragment_inlined (hq : q.AllVerbatims Verbatim.WellBound)
    (h : q.updateFragment p = .ok f) : q.inlined.updateFragment p = .ok f.inlined := by
  obtain ⟨-, htable, hfilter, hassignments, hback⟩ := q.inlined_fields
  obtain ⟨table, ht, hn, hread, hempty, values, hv, condition, hc, rfl⟩ := Query.updateFragment_eq_ok.1 h
  have hbound := (Filter.optional_formed q.filter hq.filter hc).piecesBound
  refine Query.updateFragment_eq_ok.2 ⟨table, ?_, hn, q.inlined_sameOutline.readClause?_eq.trans hread, ?_, _,
    Query.assigned_inlined hq.assignments hv, condition.inlined, ?_, ?_⟩
  · rw [htable, ht]
    rfl
  · rw [q.inlined_sameOutline.assignments, hempty]
  · rw [hfilter]
    exact Filter.optional_inlined q.filter hq.filter hc
  · rw [hassignments, Assignment.map_set_inlined, hback]
    simp only [inlined_append, inlined_word, inlined_name, inlined_joined, inlined_clause _ hbound,
      inlined_of_params_eq_nil q.params_givesBack]

theorem Query.deleteFragment_inlined (hq : q.AllVerbatims Verbatim.WellBound)
    (h : q.deleteFragment p = .ok f) : q.inlined.deleteFragment p = .ok f.inlined := by
  obtain ⟨-, htable, hfilter, hassignments, hback⟩ := q.inlined_fields
  obtain ⟨table, ht, hn, hread, hempty, condition, hc, rfl⟩ := Query.deleteFragment_eq_ok.1 h
  have hbound := (Filter.optional_formed q.filter hq.filter hc).piecesBound
  refine Query.deleteFragment_eq_ok.2 ⟨table, ?_, hn, q.inlined_sameOutline.readClause?_eq.trans hread, ?_,
    condition.inlined, ?_, ?_⟩
  · rw [htable, ht]
    rfl
  · rw [q.inlined_sameOutline.assignments, hempty]
  · rw [hfilter]
    exact Filter.optional_inlined q.filter hq.filter hc
  · rw [hback]
    simp only [inlined_append, inlined_word, inlined_name, inlined_clause _ hbound,
      inlined_of_params_eq_nil q.params_givesBack]

theorem Query.fragment_inlined (hr : ∀ r ∈ q.verbatims, r.WellBound) (h : q.fragment p = .ok f) :
    q.inlined.fragment p = .ok f.inlined := by
  have hq := Query.allVerbatims_iff.1 hr
  obtain ⟨haction, -⟩ := q.inlined_fields
  unfold Query.fragment at h ⊢
  rw [haction]
  split at h
  · exact Query.select_inlined q hr h
  · exact Query.insertFragment_inlined hq h
  · exact Query.updateFragment_inlined hq h
  · exact Query.deleteFragment_inlined hq h

end Writes

/-- **Positional binding.**  A statement has one placeholder for each of its values, and with the values in place
of the placeholders it is what the description with its values written out compiles to, where nothing is
bound. -/
theorem Query.compile_inlined {p : Paging} {q : Query} {s : Statement}
    (hr : ∀ r ∈ q.verbatims, r.WellBound) (h : q.compile p = .ok s) :
    bareMarks s.sql.toList = s.params.length ∧
      q.inlined.compile p = .ok { sql := filled s.sql s.params, params := [] } := by
  obtain ⟨f, hf, rfl⟩ := Query.compile_eq_ok.1 h
  have hbound : PiecesBound f := (Query.fragment_formed hr hf).piecesBound
  refine ⟨hbound.wellBound.marks, Query.compile_eq_ok.2 ⟨f.inlined, Query.fragment_inlined hr hf, ?_⟩⟩
  rw [Fragment.statement, text_inlined hbound, params_inlined]
  rfl

set_option maxRecDepth 4000

/-- An update with values from an assignment, from SQL of the caller's own and from a date, and with question
marks in its names and values. -/
def manyValues : Query where
  action := .update
  table := some (.named "t?")
  assignments := [⟨"a", .string "\"?"⟩]
  filter := some (.or [.raw "\"r?\" < ?" [.int 3], .predicate (.compare "b" "=" .null false),
    .predicate (.datePart "d" .year "=" (.date ⟨2024, 2, 29, by decide⟩))])

def manyValuesStatement : Statement where
  sql := "update \"t?\" set \"a\" = ? where \"r?\" < ? or \"b\" is null or extract(year from \"d\") = ?"
  params := [.string "\"?", .int 3, .int 2024]

theorem compile_inlined_manyValues : (∀ r ∈ manyValues.verbatims, r.WellBound) ∧
    manyValues.compile .modern = .ok manyValuesStatement ∧ bareMarks manyValuesStatement.sql.toList = 3 ∧
    manyValues.inlined.compile .modern = .ok { params := [], sql := "update \"t?\" set \"a\" = '\"?' " ++
      "where \"r?\" < 3 or \"b\" is null or extract(year from \"d\") = 2024" } := by
  have hr : ∀ r ∈ manyValues.verbatims, r.WellBound := by decide
  have hc : manyValues.compile .modern = .ok manyValuesStatement := by rfl
  obtain ⟨hm, hi⟩ := Query.compile_inlined hr hc
  exact ⟨hr, hc, hm, hi.trans (by rfl)⟩

end SqlQuery
