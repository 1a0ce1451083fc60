import SqlQuery.Proofs.Acceptance.Basic

/-!
# The compiler accepts exactly the accepted descriptions

By induction on the description, one equivalence for each function of the compiler: it succeeds exactly on the
accepted parts.

* `comparison_ok_iff` — the operands that an operator takes;
* `Query.select_ok_iff` — a select, at any depth;
* `Query.compile_ok_iff` — **acceptance**, for statements of every kind.
-/

namespace SqlQuery

open SqlQuery.Fragment SqlQuery.Text

variable {p : Paging}

/-! ### Checks -/

theorem Query.wrapsAggregate_iff {q : Query} :
    q.wrapsAggregate = true ↔ q.branches ≠ [] ∨ ∃ h ∈ q.having, h.isEmpty = false := by
  unfold Query.wrapsAggregate
  cases q.having <;> simp

theorem Query.selectDefect?_eq_none_iff {q : Query} :
    q.selectDefect? p = none ↔ q.action = .select ∧ q.table.isSome = true ∧ (∀ n ∈ q.limit, 0 ≤ n) ∧
      (∀ n ∈ q.offset, 0 ≤ n) ∧
      (q.aggregate.isSome = true → q.columns = [] ∨ q.branches ≠ [] ∨ ∃ h ∈ q.having, h.isEmpty = false) ∧
      (q.branches ≠ [] → q.lock = none ∧ (p = .legacy → q.limit = none ∧ q.offset = none)) ∧
      q.assignments = [] ∧ q.returning = [] := by
  have hlegacy : p.isLegacy = true ↔ p = .legacy := by cases p <;> simp [Paging.isLegacy]
  have hbranches : q.branches.isEmpty = false ↔ q.branches ≠ [] := by
    cases q.branches <;> simp
  rw [Query.selectDefect?_eq_none, Query.wrapsAggregate_iff, Query.isPaged_eq_false, hlegacy, hbranches,
    List.isEmpty_iff, List.isEmpty_iff, List.isEmpty_iff, Option.isSome_eq_false_iff, Option.isNone_iff_eq_none]

/-! ### Comparisons -/

theorem Operator.isRange_oriented (op : Operator) (negated : Bool) :
    (op.oriented negated).1.isRange = op.isRange := by
  cases op <;> cases negated <;> rfl

/-- A comparison compiles when the value is one that the operator takes: two bounds, or one operand. -/
theorem comparison_ok_iff (lhs : Fragment) (op : Operator) {part : Option DatePart} {v : Value}
    (hv : (∃ f, v.fragment p part = .ok f) ↔ v.Accepted p)
    (hb : (∃ low high, v.bounds? p part = some (.ok (low, high))) ↔ v.BothAccepted p) :
    (∃ f, comparison lhs op v (v.fragment p part) (v.bounds? p part) = .ok f) ↔
      (op.isRange = true → v.BothAccepted p) ∧ (op.isRange = false → v.Accepted p) := by
  constructor
  · rintro ⟨f, h⟩
    rcases comparison_eq_ok.1 h with ⟨hr, low, high, hbounds, -⟩ | ⟨hr, rfl, -⟩ | ⟨hr, -, -, rhs, hrhs, -⟩
    · exact ⟨fun _ => hb.1 ⟨low, high, hbounds⟩, fun h => absurd (hr.symm.trans h) (by decide)⟩
    · exact ⟨fun h => absurd (hr.symm.trans h) (by decide), fun _ => trivial⟩
    · exact ⟨fun h => absurd (hr.symm.trans h) (by decide), fun _ => hv.1 ⟨rhs, hrhs⟩⟩
  · rintro ⟨hrange, hother⟩
    cases hr : op.isRange with
    | true =>
      obtain ⟨low, high, hbounds⟩ := hb.2 (hrange hr)
      exact ⟨_, comparison_eq_ok.2 (Or.inl ⟨hr, low, high, hbounds, rfl⟩)⟩
    | false =>
      have hone := hother hr
      cases v with
      | null => exact ⟨_, comparison_eq_ok.2 (Or.inr (Or.inl ⟨hr, rfl, rfl⟩))⟩
      | list vs => exact hone.elim
      | _ =>
        obtain ⟨rhs, hrhs⟩ := hv.2 hone
        exact ⟨_, comparison_eq_ok.2 (Or.inr (Or.inr ⟨hr, nofun, nofun, rhs, hrhs, rfl⟩))⟩

/-! ### The recursion -/

mutual

theorem Filter.accepted_of_isEmpty : ∀ c : Filter, c.isEmpty = true → c.Accepted p
  | .and cs, h | .or cs, h => Filter.allAccepted_of_allEmpty cs h
  | .not c, h => Filter.accepted_of_isEmpty c h
  | .predicate _, h | .raw _ _, h => nomatch h

theorem Filter.allAccepted_of_allEmpty : ∀ cs : List Filter, Filter.allEmpty cs = true →
    Filter.AllAccepted p cs
  | [], _ => trivial
  | c :: cs, h => by
    rw [Filter.allEmpty, Bool.and_eq_true] at h
    exact ⟨Filter.accepted_of_isEmpty c h.1, Filter.allAccepted_of_allEmpty cs h.2⟩

end

mutual

theorem Value.fragment_ok_iff (part : Option DatePart) : ∀ v : Value,
    (∃ f, v.fragment p part = .ok f) ↔ v.Accepted p
  | .list _ => ⟨fun ⟨_, h⟩ => (nomatch h), False.elim⟩
  | .subquery q => by
    rw [Value.Accepted, ← Query.select_ok_iff q]
    constructor
    · rintro ⟨f, hf⟩
      obtain ⟨inner, hi, -⟩ := Value.fragment_subquery_eq_ok.1 hf
      exact ⟨inner, hi⟩
    · rintro ⟨inner, hi⟩
      exact ⟨_, Value.fragment_subquery_eq_ok.2 ⟨inner, hi, rfl⟩⟩
  | .null | .bool _ | .int _ | .float _ | .string _ | .date _ | .time _ | .timestamp _ | .raw _ | .column _ =>
    ⟨fun _ => trivial, fun _ => ⟨_, rfl⟩⟩

theorem Value.bounds_ok_iff (part : Option DatePart) : ∀ v : Value,
    (∃ low high, v.bounds? p part = some (.ok (low, high))) ↔ v.BothAccepted p
  | .list [l, h] => by
    rw [Value.BothAccepted, ← Value.fragment_ok_iff part l, ← Value.fragment_ok_iff part h]
    constructor
    · rintro ⟨low, high, hb⟩
      obtain ⟨l', h', heq, hl, hh⟩ := Value.bounds?_eq_some_ok.1 hb
      cases heq
      exact ⟨⟨low, hl⟩, ⟨high, hh⟩⟩
    · rintro ⟨⟨low, hl⟩, ⟨high, hh⟩⟩
      exact ⟨low, high, Value.bounds?_eq_some_ok.2 ⟨l, h, rfl, hl, hh⟩⟩
  | .list [] | .list [_] | .list (_ :: _ :: _ :: _) | .null | .bool _ | .int _ | .float _ | .string _
  | .date _ | .time _ | .timestamp _ | .raw _ | .column _ | .subquery _ =>
    ⟨fun ⟨_, _, h⟩ => (nomatch h), False.elim⟩

theorem Value.fragments_ok_iff : ∀ vs : List Value,
    (∃ fs, Value.fragments p vs = .ok fs) ↔ Value.AllAccepted p vs
  | [] => ⟨fun _ => trivial, fun _ => ⟨_, rfl⟩⟩
  | v :: vs => by
    rw [Value.AllAccepted, ← Value.fragment_ok_iff none v, ← Value.fragments_ok_iff vs]
    constructor
    · rintro ⟨fs, hf⟩
      obtain ⟨g, gs, hg, hgs, -⟩ := Value.fragments_cons_eq_ok.1 hf
      exact ⟨⟨g, hg⟩, ⟨gs, hgs⟩⟩
    · rintro ⟨⟨g, hg⟩, ⟨gs, hgs⟩⟩
      exact ⟨_, Value.fragments_cons_eq_ok.2 ⟨g, gs, hg, hgs, rfl⟩⟩

theorem TableRef.fragment_ok_iff : ∀ t : TableRef, (∃ f, t.fragment p = .ok f) ↔ t.Accepted p
  | .named n => by
    rw [TableRef.Accepted]
    constructor
    · rintro ⟨f, hf⟩
      exact (TableRef.fragment_named_eq_ok.1 hf).1
    · exact fun h => ⟨_, TableRef.fragment_named_eq_ok.2 ⟨h, rfl⟩⟩
  | .raw _ _ => ⟨fun _ => trivial, fun _ => ⟨_, rfl⟩⟩
  | .subquery q label => by
    rw [TableRef.Accepted, ← Query.select_ok_iff q]
    constructor
    · rintro ⟨f, hf⟩
      obtain ⟨inner, hi, -⟩ := TableRef.fragment_subquery_eq_ok.1 hf
      exact ⟨inner, hi⟩
    · rintro ⟨inner, hi⟩
      exact ⟨_, TableRef.fragment_subquery_eq_ok.2 ⟨inner, hi, rfl⟩⟩
  | .procedure n args => by
    rw [TableRef.Accepted, ← Value.fragments_ok_iff args]
    constructor
    · rintro ⟨f, hf⟩
      obtain ⟨hn, gs, hgs, -⟩ := TableRef.fragment_procedure_eq_ok.1 hf
      exact ⟨hn, gs, hgs⟩
    · rintro ⟨hn, gs, hgs⟩
      exact ⟨_, TableRef.fragment_procedure_eq_ok.2 ⟨hn, gs, hgs, rfl⟩⟩

theorem TableRef.optional_ok_iff : ∀ t : Option TableRef,
    (t.isSome = true ∧ ∃ f, TableRef.optional p t = .ok f) ↔ TableRef.OptAccepted p t
  | none => ⟨fun h => (nomatch h.1), False.elim⟩
  | some t => by
    rw [TableRef.OptAccepted, ← TableRef.fragment_ok_iff t]
    exact ⟨And.right, fun h => ⟨rfl, h⟩⟩

theorem Join.fragments_ok_iff : ∀ js : List Join, (∃ f, Join.fragments p js = .ok f) ↔ Join.AllAccepted p js
  | [] => ⟨fun _ => trivial, fun _ => ⟨_, rfl⟩⟩
  | ⟨kind, t, on⟩ :: js => by
    rw [Join.AllAccepted, ← TableRef.fragment_ok_iff t, ← Filter.optional_ok_iff on, ← Join.fragments_ok_iff js]
    constructor
    · rintro ⟨f, hf⟩
      obtain ⟨g, gs, hg, hgs, -⟩ := Join.fragments_cons_eq_ok.1 hf
      obtain ⟨table, ht, ⟨hk, -⟩ | ⟨hk, condition, hc, hblank, -⟩⟩ := Join.fragment_eq_ok.1 hg
      · exact ⟨⟨table, ht⟩, fun h => absurd (hk.symm.trans h) (by decide), gs, hgs⟩
      · refine ⟨⟨table, ht⟩, fun _ => ⟨⟨condition, hc⟩, ?_⟩, gs, hgs⟩
        rw [← Filter.optional_isBlank_iff hc, hblank]
        decide
    · rintro ⟨⟨table, ht⟩, hcondition, gs, hgs⟩
      cases hk : kind.takesCondition with
      | false =>
        exact ⟨_, Join.fragments_cons_eq_ok.2
          ⟨_, gs, Join.fragment_eq_ok.2 ⟨table, ht, Or.inl ⟨hk, rfl⟩⟩, hgs, rfl⟩⟩
      | true =>
        obtain ⟨⟨condition, hc⟩, hsilent⟩ := hcondition hk
        rw [← Filter.optional_isBlank_iff hc, Bool.not_eq_true] at hsilent
        exact ⟨_, Join.fragments_cons_eq_ok.2 ⟨_, gs,
          Join.fragment_eq_ok.2 ⟨table, ht, Or.inr ⟨hk, condition, hc, hsilent, rfl⟩⟩, hgs, rfl⟩⟩

theorem Filter.fragment_ok_iff : ∀ c : Filter, (∃ f, c.fragment p = .ok f) ↔ c.Accepted p
  | .and cs => by
    rw [Filter.Accepted, ← Filter.group_ok_iff cs]
    constructor
    · rintro ⟨f, hf⟩
      obtain ⟨gs, hgs, -⟩ := Filter.fragment_and_eq_ok.1 hf
      exact ⟨gs, hgs⟩
    · rintro ⟨gs, hgs⟩
      exact ⟨_, Filter.fragment_and_eq_ok.2 ⟨gs, hgs, rfl⟩⟩
  | .or cs => by
    rw [Filter.Accepted, ← Filter.group_ok_iff cs]
    constructor
    · rintro ⟨f, hf⟩
      obtain ⟨gs, hgs, -⟩ := Filter.fragment_or_eq_ok.1 hf
      exact ⟨gs, hgs⟩
    · rintro ⟨gs, hgs⟩
      exact ⟨_, Filter.fragment_or_eq_ok.2 ⟨gs, hgs, rfl⟩⟩
  | .not c => by
    rw [Filter.Accepted, ← Filter.fragment_ok_iff c]
    constructor
    · rintro ⟨f, hf⟩
      obtain ⟨g, hg, -⟩ := Filter.fragment_not_eq_ok.1 hf
      exact ⟨g, hg⟩
    · rintro ⟨g, hg⟩
      exact ⟨_, Filter.fragment_not_eq_ok.2 ⟨g, hg, rfl⟩⟩
  | .predicate c => Predicate.fragment_ok_iff c
  | .raw _ _ => ⟨fun _ => trivial, fun _ => ⟨_, rfl⟩⟩

theorem Filter.group_ok_iff : ∀ cs : List Filter,
    (∃ fs, Filter.group p cs = .ok fs) ↔ Filter.AllAccepted p cs
  | [] => ⟨fun _ => trivial, fun _ => ⟨_, rfl⟩⟩
  | c :: cs => by
    rw [Filter.AllAccepted, ← Filter.group_ok_iff cs]
    cases he : c.isEmpty with
    | true =>
      rw [Filter.group_cons_of_isEmpty he]
      exact ⟨fun h => ⟨Filter.accepted_of_isEmpty c he, h⟩, And.right⟩
    | false =>
      rw [← Filter.fragment_ok_iff c]
      constructor
      · rintro ⟨fs, hf⟩
        obtain ⟨g, gs, hg, hgs, -⟩ := (Filter.group_cons_eq_ok he).1 hf
        exact ⟨⟨g, hg⟩, ⟨gs, hgs⟩⟩
      · rintro ⟨⟨g, hg⟩, ⟨gs, hgs⟩⟩
        exact ⟨_, (Filter.group_cons_eq_ok he).2 ⟨g, gs, hg, hgs, rfl⟩⟩

theorem Filter.optional_ok_iff : ∀ c : Option Filter,
    (∃ f, Filter.optional p c = .ok f) ↔ Filter.OptAccepted p c
  | none => ⟨fun _ => trivial, fun _ => ⟨_, rfl⟩⟩
  | some c => Filter.fragment_ok_iff c

theorem Predicate.fragment_ok_iff : ∀ c : Predicate, (∃ f, c.fragment p = .ok f) ↔ c.Accepted p
  | .compare c op v negated => by
    have hcompare := fun o : Operator => comparison_ok_iff (name c) (o.oriented negated).1
      (Value.fragment_ok_iff none v) (Value.bounds_ok_iff none v)
    rw [Predicate.Accepted]
    constructor
    · rintro ⟨f, hf⟩
      obtain ⟨o, ho, g, hg, -⟩ := Predicate.fragment_compare_eq_ok.1 hf
      have h := (hcompare o).1 ⟨g, hg⟩
      rw [o.isRange_oriented] at h
      exact ⟨o, ho, h⟩
    · rintro ⟨o, ho, h⟩
      rw [← o.isRange_oriented negated] at h
      obtain ⟨g, hg⟩ := (hcompare o).2 h
      exact ⟨_, Predicate.fragment_compare_eq_ok.2 ⟨o, ho, g, hg, rfl⟩⟩
  | .isIn c vs negated => by
    rw [Predicate.Accepted, ← Value.fragments_ok_iff vs]
    constructor
    · rintro ⟨f, hf⟩
      obtain ⟨gs, hgs, -⟩ := Predicate.fragment_isIn_eq_ok.1 hf
      exact ⟨gs, hgs⟩
    · rintro ⟨gs, hgs⟩
      exact ⟨_, Predicate.fragment_isIn_eq_ok.2 ⟨gs, hgs, rfl⟩⟩
  | .inSelect c q negated => by
    rw [Predicate.Accepted, ← Query.select_ok_iff q]
    constructor
    · rintro ⟨f, hf⟩
      obtain ⟨inner, hi, -⟩ := Predicate.fragment_inSelect_eq_ok.1 hf
      exact ⟨inner, hi⟩
    · rintro ⟨inner, hi⟩
      exact ⟨_, Predicate.fragment_inSelect_eq_ok.2 ⟨inner, hi, rfl⟩⟩
  | .isNull _ _ => ⟨fun _ => trivial, fun _ => ⟨_, rfl⟩⟩
  | .datePart c part op v => by
    have hcompare := fun o : Operator => comparison_ok_iff (part.ofColumn c) o
      (Value.fragment_ok_iff (some part) v) (Value.bounds_ok_iff (some part) v)
    rw [Predicate.Accepted]
    constructor
    · rintro ⟨f, hf⟩
      obtain ⟨o, ho, hg⟩ := Predicate.fragment_datePart_eq_ok.1 hf
      exact ⟨o, ho, (hcompare o).1 ⟨f, hg⟩⟩
    · rintro ⟨o, ho, h⟩
      obtain ⟨g, hg⟩ := (hcompare o).2 h
      exact ⟨g, Predicate.fragment_datePart_eq_ok.2 ⟨o, ho, hg⟩⟩
  | .rowExists q negated => by
    rw [Predicate.Accepted, ← Query.select_ok_iff q]
    constructor
    · rintro ⟨f, hf⟩
      obtain ⟨inner, hi, -⟩ := Predicate.fragment_rowExists_eq_ok.1 hf
      exact ⟨inner, hi⟩
    · rintro ⟨inner, hi⟩
      exact ⟨_, Predicate.fragment_rowExists_eq_ok.2 ⟨inner, hi, rfl⟩⟩

theorem Branch.fragments_ok_iff : ∀ bs : List Branch,
    (∃ f, Branch.fragments p bs = .ok f) ↔ Branch.AllAccepted p bs
  | [] => ⟨fun _ => trivial, fun _ => ⟨_, rfl⟩⟩
  | ⟨op, q⟩ :: bs => by
    have hopen : q.branchDefect? = none ↔ q.orders = [] ∧ q.limit = none ∧ q.offset = none ∧ q.lock = none := by
      rw [Query.branchDefect?_eq_none, Query.isPaged_eq_false, List.isEmpty_iff, Option.isSome_eq_false_iff,
        Option.isNone_iff_eq_none, and_assoc]
    rw [Branch.AllAccepted, ← Query.select_ok_iff q, ← Branch.fragments_ok_iff bs, ← hopen]
    constructor
    · rintro ⟨f, hf⟩
      obtain ⟨hd, g, gs, hg, hgs, -⟩ := Branch.fragments_cons_eq_ok.1 hf
      exact ⟨hd, ⟨g, hg⟩, ⟨gs, hgs⟩⟩
    · rintro ⟨hd, ⟨g, hg⟩, ⟨gs, hgs⟩⟩
      exact ⟨_, Branch.fragments_cons_eq_ok.2 ⟨hd, g, gs, hg, hgs, rfl⟩⟩

theorem Query.select_ok_iff : ∀ q : Query, (∃ f, q.select p = .ok f) ↔ q.Selectable p
  | ⟨action, table, distinct, columns, joins, filter, groups, having, orders, limit, offset, aggregate,
      branches, lock, assignments, returning⟩ => by
    rw [Query.Selectable, ← TableRef.optional_ok_iff table, ← Join.fragments_ok_iff joins,
      ← Filter.optional_ok_iff filter, ← Filter.optional_ok_iff having, ← Branch.fragments_ok_iff branches]
    constructor
    · rintro ⟨f, hf⟩
      obtain ⟨hd, t, ht, j, hj, w, hw, g, hg, b, hb, -⟩ := Query.select_eq_ok.1 hf
      obtain ⟨ha, hsome, hl, ho, hagg, hunion, hset, hret⟩ := Query.selectDefect?_eq_none_iff.1 hd
      exact ⟨ha, ⟨hsome, t, ht⟩, hl, ho, hagg, hunion, hset, hret, ⟨j, hj⟩, ⟨w, hw⟩, ⟨g, hg⟩, ⟨b, hb⟩⟩
    · rintro ⟨ha, ⟨hsome, t, ht⟩, hl, ho, hagg, hunion, hset, hret, ⟨j, hj⟩, ⟨w, hw⟩, ⟨g, hg⟩, ⟨b, hb⟩⟩
      refine ⟨_, Query.select_eq_ok.2 ⟨?_, t, ht, j, hj, w, hw, g, hg, b, hb, rfl⟩⟩
      exact Query.selectDefect?_eq_none_iff.2 ⟨ha, hsome, hl, ho, hagg, hunion, hset, hret⟩

end

/-! ### Writes -/

section Writes

variable {q : Query}

theorem Query.writable_iff : q.Writable ↔
    (∃ n, q.table = some (.named n) ∧ isBlankText n = false) ∧ q.readClause? = none := by
  rw [Query.readClause?_eq_none]
  constructor
  · rintro ⟨ht, h1, h2, h3, h4, h5, h6, h7, h8, h9, h10, h11⟩
    exact ⟨ht, h1, h2, h3, h4, h5, h6, h7, h8, ⟨h9, h10⟩, h11⟩
  · rintro ⟨ht, h1, h2, h3, h4, h5, h6, h7, h8, ⟨h9, h10⟩, h11⟩
    exact ⟨ht, h1, h2, h3, h4, h5, h6, h7, h8, h9, h10, h11⟩

theorem Query.assigned_ok_iff : (∃ fs, q.assigned p = .ok fs) ↔
    Value.AllAccepted p (q.assignments.map Assignment.value) := by
  rw [Query.assigned_eq]
  exact Value.fragments_ok_iff _

theorem Query.insertDefect?_eq_none {n : String} :
    q.insertDefect? n = none ↔ q.filter = none ∧ q.assignments ≠ [] := by
  unfold Query.insertDefect?
  cases q.filter <;> cases q.assignments <;> simp

theorem Query.insertFragment_ok_iff : (∃ f, q.insertFragment p = .ok f) ↔
    q.Writable ∧ q.filter = none ∧ q.assignments ≠ [] ∧
      Value.AllAccepted p (q.assignments.map Assignment.value) := by
  rw [Query.writable_iff, ← Query.assigned_ok_iff]
  constructor
  · rintro ⟨f, hf⟩
    obtain ⟨n, ht, hn, hread, hd, values, hv, -⟩ := Query.insertFragment_eq_ok.1 hf
    obtain ⟨hfilter, hset⟩ := Query.insertDefect?_eq_none.1 hd
    exact ⟨⟨⟨n, ht, hn⟩, hread⟩, hfilter, hset, values, hv⟩
  · rintro ⟨⟨⟨n, ht, hn⟩, hread⟩, hfilter, hset, values, hv⟩
    exact ⟨_, Query.insertFragment_eq_ok.2
      ⟨n, ht, hn, hread, Query.insertDefect?_eq_none.2 ⟨hfilter, hset⟩, values, hv, rfl⟩⟩

theorem Query.updateFragment_ok_iff : (∃ f, q.updateFragment p = .ok f) ↔
    q.Writable ∧ q.assignments ≠ [] ∧ Value.AllAccepted p (q.assignments.map Assignment.value) ∧
      Filter.OptAccepted p q.filter := by
  have hset : q.assignments.isEmpty = false ↔ q.assignments ≠ [] := by
    cases q.assignments <;> simp
  rw [Query.writable_iff, ← Query.assigned_ok_iff, ← Filter.optional_ok_iff, ← hset]
  constructor
  · rintro ⟨f, hf⟩
    obtain ⟨n, ht, hn, hread, hd, values, hv, condition, hc, -⟩ := Query.updateFragment_eq_ok.1 hf
    exact ⟨⟨⟨n, ht, hn⟩, hread⟩, hd, ⟨values, hv⟩, ⟨condition, hc⟩⟩
  · rintro ⟨⟨⟨n, ht, hn⟩, hread⟩, hd, ⟨values, hv⟩, ⟨condition, hc⟩⟩
    exact ⟨_, Query.updateFragment_eq_ok.2 ⟨n, ht, hn, hread, hd, values, hv, condition, hc, rfl⟩⟩

theorem Query.deleteFragment_ok_iff : (∃ f, q.deleteFragment p = .ok f) ↔
    q.Writable ∧ q.assignments = [] ∧ Filter.OptAccepted p q.filter := by
  rw [Query.writable_iff, ← Filter.optional_ok_iff, ← List.isEmpty_iff]
  constructor
  · rintro ⟨f, hf⟩
    obtain ⟨n, ht, hn, hread, hd, condition, hc, -⟩ := Query.deleteFragment_eq_ok.1 hf
    exact ⟨⟨⟨n, ht, hn⟩, hread⟩, hd, ⟨condition, hc⟩⟩
  · rintro ⟨⟨⟨n, ht, hn⟩, hread⟩, hd, ⟨condition, hc⟩⟩
    exact ⟨_, Query.deleteFragment_eq_ok.2 ⟨n, ht, hn, hread, hd, condition, hc, rfl⟩⟩

end Writes

/-- **Acceptance.**  A description compiles exactly when it is accepted; and the conditions that an accepted join
may not have are those that compile to no text. -/
theorem Query.compile_ok_iff (p : Paging) (q : Query) :
    ((∃ s, q.compile p = .ok s) ↔ q.Accepted p) ∧
      ∀ (c : Filter) (f : Fragment), c.fragment p = .ok f → (c.Silent ↔ Fragment.text f = "") := by
  constructor
  · have hfragment : (∃ s, q.compile p = .ok s) ↔ ∃ f, q.fragment p = .ok f := by
      constructor
      · rintro ⟨s, hs⟩
        obtain ⟨f, hf, -⟩ := Query.compile_eq_ok.1 hs
        exact ⟨f, hf⟩
      · rintro ⟨f, hf⟩
        exact ⟨_, Query.compile_eq_ok.2 ⟨f, hf, rfl⟩⟩
    rw [hfragment, Query.Accepted, Query.fragment]
    cases q.action with
    | select => exact Query.select_ok_iff q
    | insert => exact Query.insertFragment_ok_iff
    | update => exact Query.updateFragment_ok_iff
    | delete => exact Query.deleteFragment_ok_iff
  · intro c f hf
    rw [← Filter.isBlank_iff_silent c hf, Fragment.isBlank_iff, Fragment.chars, String.toList_eq_nil_iff]

end SqlQuery
