import SqlQuery.Proofs.Form.Clauses

/-!
# Compiled statements are formed

`Query.fragment_formed`, by induction on the description: one theorem for each function of the recursion, in
the same order, and then the writes.
-/

namespace SqlQuery

open SqlQuery.Fragment SqlQuery.Text

variable {R : Verbatim → Prop} {p : Paging}

/-! ### The recursion -/

theorem Value.fragment_of_isScalar {part : Option DatePart} {v : Value} (h : v.isScalar = true) :
    v.fragment p part = .ok [.bound (v.narrowTo part)] := by
  cases v with
  | raw | column | list | subquery => exact nomatch h
  | _ => rfl

theorem Value.isScalar_narrowTo (part : Option DatePart) (v : Value) :
    (v.narrowTo part).isScalar = v.isScalar := by
  cases part with
  | none => rfl
  | some part => exact Value.isScalar_narrow part v

theorem Value.scalar_formed {part : Option DatePart} {v : Value} {f : Fragment} (hs : v.isScalar = true)
    (hf : v.fragment p part = .ok f) : Formed R f := by
  rw [Value.fragment_of_isScalar hs] at hf
  cases hf
  exact .bound (by rwa [Value.isScalar_narrowTo])

mutual

theorem Value.fragment_formed (part : Option DatePart) : ∀ (v : Value) (_ : ∀ r ∈ v.verbatims, R r)
    {f : Fragment}, v.fragment p part = .ok f → Formed R f
  | .raw sql, h, f, hf => by
    cases hf
    exact .verbatim (h _ List.mem_cons_self)
  | .column c, _, f, hf => by
    cases hf
    exact .name c
  | .list _, _, f, hf => nomatch hf
  | .subquery q, h, f, hf => by
    obtain ⟨inner, hi, rfl⟩ := Value.fragment_subquery_eq_ok.1 hf
    exact (Query.select_formed q h hi).parenthesized
  | .null, _, _, hf | .bool _, _, _, hf | .int _, _, _, hf | .float _, _, _, hf | .string _, _, _, hf
  | .date _, _, _, hf | .time _, _, _, hf | .timestamp _, _, _, hf => Value.scalar_formed rfl hf

theorem Value.bounds_formed (part : Option DatePart) : ∀ (v : Value) (_ : ∀ r ∈ v.verbatims, R r)
    (low high : Fragment), v.bounds? p part = some (.ok (low, high)) → Formed R low ∧ Formed R high
  | .list [l, h], hr, low, high, hb => by
    obtain ⟨l', h', heq, hl, hh⟩ := Value.bounds?_eq_some_ok.1 hb
    cases heq
    simp only [Value.verbatims, Value.allVerbatims, List.append_nil, List.forall_mem_append] at hr
    exact ⟨Value.fragment_formed part l hr.1 hl, Value.fragment_formed part h hr.2 hh⟩
  | .list [], _, _, _, hb | .list [_], _, _, _, hb | .list (_ :: _ :: _ :: _), _, _, _, hb
  | .null, _, _, _, hb | .bool _, _, _, _, hb | .int _, _, _, _, hb | .float _, _, _, _, hb
  | .string _, _, _, _, hb | .date _, _, _, _, hb | .time _, _, _, _, hb | .timestamp _, _, _, _, hb
  | .raw _, _, _, _, hb | .column _, _, _, _, hb | .subquery _, _, _, _, hb => nomatch hb

theorem Value.fragments_formed : ∀ (vs : List Value) (_ : ∀ r ∈ Value.allVerbatims vs, R r)
    {fs : List Fragment}, Value.fragments p vs = .ok fs → ∀ f ∈ fs, Formed R f
  | [], _, fs, hf => by
    cases hf
    exact fun _ hf => nomatch hf
  | v :: vs, h, fs, hf => by
    obtain ⟨g, gs, hg, hgs, rfl⟩ := Value.fragments_cons_eq_ok.1 hf
    rw [Value.allVerbatims, List.forall_mem_append] at h
    rw [List.forall_mem_cons]
    exact ⟨Value.fragment_formed none v h.1 hg, Value.fragments_formed vs h.2 hgs⟩

theorem TableRef.fragment_formed : ∀ (t : TableRef) (_ : ∀ r ∈ t.verbatims, R r) {f : Fragment},
    t.fragment p = .ok f → Formed R f
  | .named n, _, f, hf => by
    obtain ⟨-, rfl⟩ := TableRef.fragment_named_eq_ok.1 hf
    exact .name n
  | .raw sql bindings, h, f, hf => by
    cases hf
    exact .verbatim (h _ List.mem_cons_self)
  | .subquery q label, h, f, hf => by
    obtain ⟨inner, hi, rfl⟩ := TableRef.fragment_subquery_eq_ok.1 hf
    exact labelled_formed (Query.select_formed q h hi).parenthesized label
  | .procedure n args, h, f, hf => by
    obtain ⟨-, gs, hgs, rfl⟩ := TableRef.fragment_procedure_eq_ok.1 hf
    exact procedureCall_formed n (Value.fragments_formed args h hgs)

theorem TableRef.optional_formed : ∀ (t : Option TableRef) (_ : ∀ r ∈ TableRef.optVerbatims t, R r)
    {f : Fragment}, TableRef.optional p t = .ok f → Formed R f
  | none, _, f, hf => by
    cases hf
    exact .nil
  | some t, h, f, hf => TableRef.fragment_formed t h hf

theorem Join.fragment_formed : ∀ (j : Join) (_ : ∀ r ∈ j.verbatims, R r) {f : Fragment},
    j.fragment p = .ok f → Formed R f
  | ⟨kind, t, on⟩, h, f, hf => by
    rw [Join.verbatims, List.forall_mem_append] at h
    obtain ⟨table, ht, ⟨-, rfl⟩ | ⟨-, condition, hc, -, rfl⟩⟩ := Join.fragment_eq_ok.1 hf
    · exact join_formed kind (TableRef.fragment_formed t h.1 ht) .nil
    · exact join_formed kind (TableRef.fragment_formed t h.1 ht) (Filter.optional_formed on h.2 hc)

theorem Join.fragments_formed : ∀ (js : List Join) (_ : ∀ r ∈ Join.allVerbatims js, R r) {f : Fragment},
    Join.fragments p js = .ok f → Formed R f ∧ startsApart f.chars = true
  | [], _, f, hf => by
    cases hf
    exact ⟨.nil, rfl⟩
  | j :: js, h, f, hf => by
    obtain ⟨g, gs, hg, hgs, rfl⟩ := Join.fragments_cons_eq_ok.1 hf
    rw [Join.allVerbatims, List.forall_mem_append] at h
    obtain ⟨hrest, hs⟩ := Join.fragments_formed js h.2 hgs
    have hjoin : Formed R (word " " ++ g) :=
      .lead (.of_mem (by simp [phrases, glues])) (by decide) (Join.fragment_formed j h.1 hg)
    refine ⟨hjoin.follow hrest hs, ?_⟩
    rw [List.append_assoc, chars_word_append]
    rfl

theorem Filter.fragment_formed : ∀ (c : Filter) (_ : ∀ r ∈ c.verbatims, R r) {f : Fragment},
    c.fragment p = .ok f → Formed R f
  | .and cs, h, f, hf => by
    obtain ⟨gs, hgs, rfl⟩ := Filter.fragment_and_eq_ok.1 hf
    exact Formed.joined (.of_mem (by simp [glues])) (Filter.group_formed cs h hgs)
  | .or cs, h, f, hf => by
    obtain ⟨gs, hgs, rfl⟩ := Filter.fragment_or_eq_ok.1 hf
    exact Formed.joined (.of_mem (by simp [glues])) (Filter.group_formed cs h hgs)
  | .not c, h, f, hf => by
    obtain ⟨g, hg, rfl⟩ := Filter.fragment_not_eq_ok.1 hf
    exact negation_formed (Filter.fragment_formed c h hg)
  | .predicate c, h, f, hf => Predicate.fragment_formed c h hf
  | .raw sql bindings, h, f, hf => by
    cases hf
    exact .verbatim (h _ List.mem_cons_self)

theorem Filter.group_formed : ∀ (cs : List Filter) (_ : ∀ r ∈ Filter.allVerbatims cs, R r)
    {fs : List Fragment}, Filter.group p cs = .ok fs → ∀ f ∈ fs, Formed R f
  | [], _, fs, hf => by
    cases hf
    exact fun _ hf => nomatch hf
  | c :: cs, h, fs, hf => by
    rw [Filter.allVerbatims, List.forall_mem_append] at h
    cases he : c.isEmpty with
    | true =>
      rw [Filter.group_cons_of_isEmpty he] at hf
      exact Filter.group_formed cs h.2 hf
    | false =>
      obtain ⟨g, gs, hg, hgs, rfl⟩ := (Filter.group_cons_eq_ok he).1 hf
      have hc : Formed R g := Filter.fragment_formed c h.1 hg
      rw [List.forall_mem_cons]
      refine ⟨?_, Filter.group_formed cs h.2 hgs⟩
      unfold Filter.grouped
      split
      · exact hc.parenthesized
      · exact hc

theorem Filter.optional_formed : ∀ (c : Option Filter) (_ : ∀ r ∈ Filter.optVerbatims c, R r)
    {f : Fragment}, Filter.optional p c = .ok f → Formed R f
  | none, _, f, hf => by
    cases hf
    exact .nil
  | some c, h, f, hf => Filter.fragment_formed c h hf

theorem Predicate.fragment_formed : ∀ (c : Predicate) (_ : ∀ r ∈ c.verbatims, R r) {f : Fragment},
    c.fragment p = .ok f → Formed R f
  | .compare c op v negated, h, f, hf => by
    obtain ⟨o, -, g, hg, rfl⟩ := Predicate.fragment_compare_eq_ok.1 hf
    have hoperand : ∀ x, v.fragment p none = .ok x → Formed R x :=
      fun _ hx => Value.fragment_formed none v h hx
    exact negatedComparison_formed _
      (comparison_formed (.name c) hoperand (Value.bounds_formed none v h) hg)
  | .isIn c vs negated, h, f, hf => by
    obtain ⟨gs, hgs, rfl⟩ := Predicate.fragment_isIn_eq_ok.1 hf
    exact membership_formed c negated (Value.fragments_formed vs h hgs)
  | .inSelect c q negated, h, f, hf => by
    obtain ⟨inner, hi, rfl⟩ := Predicate.fragment_inSelect_eq_ok.1 hf
    have hin : Formed R (word "in " ++ parenthesized inner) :=
      .lead (.of_mem (by simp [phrases])) (by decide) (Query.select_formed q h hi).parenthesized
    rw [List.append_assoc, List.append_assoc]
    exact (Formed.name c).glue (.of_mem (by simp [glues])) (notWord_formed negated hin)
  | .isNull c negated, _, f, hf => by
    cases hf
    have hnull : Formed R (word "null") := .flat (.of_mem (by simp [phrases]))
    rw [List.append_assoc]
    exact (Formed.name c).glue (.of_mem (by simp [glues])) (notWord_formed negated hnull)
  | .datePart c part op v, h, f, hf => by
    obtain ⟨o, -, hg⟩ := Predicate.fragment_datePart_eq_ok.1 hf
    have hoperand : ∀ x, v.fragment p (some part) = .ok x → Formed R x :=
      fun _ hx => Value.fragment_formed (some part) v h hx
    exact comparison_formed (ofColumn_formed part c) hoperand (Value.bounds_formed (some part) v h) hg
  | .rowExists q negated, h, f, hf => by
    obtain ⟨inner, hi, rfl⟩ := Predicate.fragment_rowExists_eq_ok.1 hf
    have hexists : Formed R (word "exists " ++ parenthesized inner) :=
      .lead (.of_mem (by simp [phrases])) (by decide) (Query.select_formed q h hi).parenthesized
    rw [List.append_assoc]
    exact notWord_formed negated hexists

theorem Branch.fragments_formed : ∀ (bs : List Branch) (_ : ∀ r ∈ Branch.allVerbatims bs, R r)
    {f : Fragment}, Branch.fragments p bs = .ok f → Formed R f ∧ startsApart f.chars = true
  | [], _, f, hf => by
    cases hf
    exact ⟨.nil, rfl⟩
  | ⟨op, q⟩ :: bs, h, f, hf => by
    obtain ⟨-, g, gs, hg, hgs, rfl⟩ := Branch.fragments_cons_eq_ok.1 hf
    rw [Branch.allVerbatims, List.forall_mem_append] at h
    obtain ⟨hrest, hs⟩ := Branch.fragments_formed bs h.2 hgs
    obtain ⟨hflat, hne, hstart, hend⟩ := glue_setOp op
    have hbranch : Formed R (word (" " ++ op.keyword ++ " ") ++ g) :=
      .lead hflat hend (Query.select_formed q h.1 hg)
    refine ⟨hbranch.follow hrest hs, ?_⟩
    rw [List.append_assoc, chars_word_append]
    exact startsApart_append_of_ne_nil hne hstart

theorem Query.select_formed : ∀ (q : Query) (_ : ∀ r ∈ q.verbatims, R r) {f : Fragment},
    q.select p = .ok f → Formed R f
  | ⟨action, table, distinct, columns, joins, filter, groups, having, orders, limit, offset, aggregate,
      branches, lock, assignments, returning⟩, h, f, hf => by
    obtain ⟨hd, t, ht, j, hj, w, hw, g, hg, b, hb, rfl⟩ := Query.select_eq_ok.1 hf
    obtain ⟨-, -, hl, ho, -⟩ := Query.selectDefect?_eq_none.1 hd
    have hq := Query.allVerbatims_iff.1 h
    exact Query.assembled_formed hq hl ho (TableRef.optional_formed table hq.table ht)
      (Join.fragments_formed joins hq.joins hj) (Filter.optional_formed filter hq.filter hw)
      (Filter.optional_formed having hq.having hg) (Branch.fragments_formed branches hq.branches hb)

end

/-! ### Writes -/

section Writes

variable {q : Query} {f : Fragment}

theorem Query.givesBack_formed (q : Query) : Formed R q.givesBack ∧ startsApart q.givesBack.chars = true := by
  unfold Query.givesBack
  split
  · exact ⟨.nil, rfl⟩
  · have hnames : ∀ g ∈ q.returning.map name, Formed R g := by
      rw [List.forall_mem_map]
      exact fun n _ => .name n
    have hlist : Formed R (joined ", " (q.returning.map name)) :=
      Formed.joined (.of_mem (by simp [glues])) hnames
    refine ⟨.lead (.of_mem (by simp [phrases])) (by decide) hlist, ?_⟩
    rw [chars_word_append]
    rfl

theorem Query.assigned_formed (h : ∀ r ∈ Assignment.allVerbatims q.assignments, R r) {fs : List Fragment}
    (hf : q.assigned p = .ok fs) : ∀ f ∈ fs, Formed R f := by
  rw [Assignment.allVerbatims_eq] at h
  rw [Query.assigned_eq] at hf
  exact Value.fragments_formed _ h hf

theorem Query.insertFragment_formed (hq : q.AllVerbatims R) (h : q.insertFragment p = .ok f) :
    Formed R f := by
  obtain ⟨table, -, -, -, -, values, hv, rfl⟩ := Query.insertFragment_eq_ok.1 h
  have hinto : Formed R (word "insert into " ++ name table) :=
    .lead (.of_mem (by simp [phrases])) (by decide) (.name table)
  have hcolumns : Formed R (joined ", " (q.assignments.map fun a => name a.column)) := by
    refine Formed.joined (.of_mem (by simp [glues])) ?_
    rw [List.forall_mem_map]
    exact fun a _ => .name a.column
  have hvalues : Formed R (joined ", " values) :=
    Formed.joined (.of_mem (by simp [glues])) (Query.assigned_formed hq.assignments hv)
  obtain ⟨hback, hs⟩ := Query.givesBack_formed (R := R) q
  exact ((hinto.glue (.of_mem (by simp [glues])) hcolumns.parenthesized).glue (.of_mem (by simp [glues]))
    hvalues.parenthesized).follow hback hs

theorem Query.updateFragment_formed (hq : q.AllVerbatims R) (h : q.updateFragment p = .ok f) :
    Formed R f := by
  obtain ⟨table, -, -, -, -, values, hv, condition, hc, rfl⟩ := Query.updateFragment_eq_ok.1 h
  have hupdate : Formed R (word "update " ++ name table) :=
    .lead (.of_mem (by simp [phrases])) (by decide) (.name table)
  have hset : ∀ av ∈ q.assignments.zip values, Formed R (name av.1.column ++ word " = " ++ av.2) := by
    rintro ⟨a, v⟩ hav
    have hvalue : Formed R v := Query.assigned_formed hq.assignments hv v (List.of_mem_zip hav).2
    exact (Formed.name a.column).glue (.of_mem (by simp [glues])) hvalue
  have hsets := Formed.joined (w := ", ") (.of_mem (by simp [glues])) (List.forall_mem_map.2 hset)
  have hwhere : Formed R (clause "where" condition) :=
    (Filter.optional_formed q.filter hq.filter hc).clause flat_where
  obtain ⟨hback, hs⟩ := Query.givesBack_formed (R := R) q
  exact ((hupdate.glue (.of_mem (by simp [glues])) hsets).follow hwhere (startsApart_clause _ _)).follow hback hs

theorem Query.deleteFragment_formed (hq : q.AllVerbatims R) (h : q.deleteFragment p = .ok f) :
    Formed R f := by
  obtain ⟨table, -, -, -, -, condition, hc, rfl⟩ := Query.deleteFragment_eq_ok.1 h
  have hdelete : Formed R (word "delete from " ++ name table) :=
    .lead (.of_mem (by simp [phrases])) (by decide) (.name table)
  have hwhere : Formed R (clause "where" condition) :=
    (Filter.optional_formed q.filter hq.filter hc).clause flat_where
  obtain ⟨hback, hs⟩ := Query.givesBack_formed (R := R) q
  exact (hdelete.follow hwhere (startsApart_clause _ _)).follow hback hs

end Writes

/-- **Every compiled statement is formed.** -/
theorem Query.fragment_formed {q : Query} {f : Fragment} (hr : ∀ r ∈ q.verbatims, R r)
    (h : q.fragment p = .ok f) : Formed R f := by
  have hq := Query.allVerbatims_iff.1 hr
  unfold Query.fragment at h
  split at h
  · exact Query.select_formed q hr h
  · exact Query.insertFragment_formed hq h
  · exact Query.updateFragment_formed hq h
  · exact Query.deleteFragment_formed hq h

end SqlQuery
