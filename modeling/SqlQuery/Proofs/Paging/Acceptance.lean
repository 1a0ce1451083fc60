import SqlQuery.Proofs.Acceptance.Statement

/-!
# Which paging accepts what

The two syntaxes accept the same descriptions, but for one check: legacy clauses would limit the first select of a
union only, so that legacy paging refuses a union with a limit or an offset.

* `Query.UnionsUnpaged` — no union has either, in any place that the compiler looks at;
* `Query.accepted_legacy_iff` — **legacy paging accepts what modern paging accepts, if no union is paged**.
-/

namespace SqlQuery

open SqlQuery.Text

mutual

def Value.UnionsUnpaged : Value → Prop
  | .list items => Value.AllUnionsUnpaged items
  | .subquery q => q.UnionsUnpaged
  | _ => True

def Value.AllUnionsUnpaged : List Value → Prop
  | [] => True
  | v :: vs => v.UnionsUnpaged ∧ Value.AllUnionsUnpaged vs

def TableRef.UnionsUnpaged : TableRef → Prop
  | .named _ | .raw _ _ => True
  | .subquery q _ => q.UnionsUnpaged
  | .procedure _ args => Value.AllUnionsUnpaged args

def TableRef.OptUnionsUnpaged : Option TableRef → Prop
  | none => True
  | some t => t.UnionsUnpaged

/-- Nothing is asked of a condition that the join does not take. -/
def Join.AllUnionsUnpaged : List Join → Prop
  | [] => True
  | ⟨kind, table, on⟩ :: js =>
    table.UnionsUnpaged ∧ (kind.takesCondition = true → Filter.OptUnionsUnpaged on) ∧ Join.AllUnionsUnpaged js

def Filter.UnionsUnpaged : Filter → Prop
  | .and children => Filter.AllUnionsUnpaged children
  | .or children => Filter.AllUnionsUnpaged children
  | .not inner => inner.UnionsUnpaged
  | .predicate c => c.UnionsUnpaged
  | .raw _ _ => True

def Filter.AllUnionsUnpaged : List Filter → Prop
  | [] => True
  | f :: fs => f.UnionsUnpaged ∧ Filter.AllUnionsUnpaged fs

def Filter.OptUnionsUnpaged : Option Filter → Prop
  | none => True
  | some f => f.UnionsUnpaged

def Predicate.UnionsUnpaged : Predicate → Prop
  | .compare _ _ v _ => v.UnionsUnpaged
  | .isIn _ vs _ => Value.AllUnionsUnpaged vs
  | .inSelect _ q _ => q.UnionsUnpaged
  | .isNull _ _ => True
  | .datePart _ _ _ v => v.UnionsUnpaged
  | .rowExists q _ => q.UnionsUnpaged

def Branch.AllUnionsUnpaged : List Branch → Prop
  | [] => True
  | ⟨_, q⟩ :: bs => q.UnionsUnpaged ∧ Branch.AllUnionsUnpaged bs

/-- A select without a limit and an offset if it has branches, and the same for all selects inside. -/
def Query.UnionsUnpaged : Query → Prop
  | ⟨_, table, _, _, joins, filter, _, having, _, limit, offset, _, branches, _, _, _⟩ =>
    (branches ≠ [] → limit = none ∧ offset = none) ∧ TableRef.OptUnionsUnpaged table ∧
      Join.AllUnionsUnpaged joins ∧ Filter.OptUnionsUnpaged filter ∧ Filter.OptUnionsUnpaged having ∧
      Branch.AllUnionsUnpaged branches

end

/-- The same for a statement: of a write, the compiler looks at the new values and at the condition. -/
def Query.ReachedUnionsUnpaged (q : Query) : Prop :=
  match q.action with
  | .select => q.UnionsUnpaged
  | .insert | .update | .delete =>
    Value.AllUnionsUnpaged (q.assignments.map Assignment.value) ∧ Filter.OptUnionsUnpaged q.filter

/-! ### The recursion -/

/-- An operator takes the same values, whatever is asked of the values besides. -/
theorem takes_iff {op : String} {a a' b b' u : Prop} (ha : a ↔ a' ∧ u) (hb : b ↔ b' ∧ u) :
    (∃ o, Operator.ofText? op = some o ∧ (o.isRange = true → b) ∧ (o.isRange = false → a)) ↔
      (∃ o, Operator.ofText? op = some o ∧ (o.isRange = true → b') ∧ (o.isRange = false → a')) ∧ u := by
  constructor
  · rintro ⟨o, ho, hrange, hone⟩
    cases hr : o.isRange with
    | true =>
      obtain ⟨hb', hu⟩ := hb.1 (hrange hr)
      exact ⟨⟨o, ho, fun _ => hb', fun h => absurd (hr.symm.trans h) (by decide)⟩, hu⟩
    | false =>
      obtain ⟨ha', hu⟩ := ha.1 (hone hr)
      exact ⟨⟨o, ho, fun h => absurd (hr.symm.trans h) (by decide), fun _ => ha'⟩, hu⟩
  · rintro ⟨⟨o, ho, hrange, hone⟩, hu⟩
    exact ⟨o, ho, fun hr => hb.2 ⟨hrange hr, hu⟩, fun hr => ha.2 ⟨hone hr, hu⟩⟩

mutual

theorem Value.accepted_legacy_iff : ∀ v : Value, v.Accepted .legacy ↔ v.Accepted .modern ∧ v.UnionsUnpaged
  | .list _ => ⟨False.elim, fun h => h.1⟩
  | .subquery q => Query.selectable_legacy_iff q
  | .null | .bool _ | .int _ | .float _ | .string _ | .date _ | .time _ | .timestamp _ | .raw _ | .column _ =>
    ⟨fun _ => ⟨trivial, trivial⟩, fun _ => trivial⟩

theorem Value.bothAccepted_legacy_iff : ∀ v : Value,
    v.BothAccepted .legacy ↔ v.BothAccepted .modern ∧ v.UnionsUnpaged
  | .list [l, h] => by
    rw [Value.BothAccepted, Value.BothAccepted, Value.accepted_legacy_iff l, Value.accepted_legacy_iff h,
      Value.UnionsUnpaged, Value.AllUnionsUnpaged, Value.AllUnionsUnpaged, Value.AllUnionsUnpaged, and_true,
      and_and_and_comm]
  | .list [] | .list [_] | .list (_ :: _ :: _ :: _) | .null | .bool _ | .int _ | .float _ | .string _
  | .date _ | .time _ | .timestamp _ | .raw _ | .column _ | .subquery _ => ⟨False.elim, fun h => h.1⟩

theorem Value.allAccepted_legacy_iff : ∀ vs : List Value,
    Value.AllAccepted .legacy vs ↔ Value.AllAccepted .modern vs ∧ Value.AllUnionsUnpaged vs
  | [] => ⟨fun _ => ⟨trivial, trivial⟩, fun _ => trivial⟩
  | v :: vs => by
    rw [Value.AllAccepted, Value.AllAccepted, Value.AllUnionsUnpaged, Value.accepted_legacy_iff v,
      Value.allAccepted_legacy_iff vs, and_and_and_comm]

theorem TableRef.accepted_legacy_iff : ∀ t : TableRef,
    t.Accepted .legacy ↔ t.Accepted .modern ∧ t.UnionsUnpaged
  | .named _ | .raw _ _ => (and_iff_left trivial).symm
  | .subquery q _ => Query.selectable_legacy_iff q
  | .procedure n args => by
    rw [TableRef.Accepted, TableRef.Accepted, TableRef.UnionsUnpaged, Value.allAccepted_legacy_iff args, and_assoc]

theorem TableRef.optAccepted_legacy_iff : ∀ t : Option TableRef,
    TableRef.OptAccepted .legacy t ↔ TableRef.OptAccepted .modern t ∧ TableRef.OptUnionsUnpaged t
  | none => ⟨False.elim, fun h => h.1⟩
  | some t => TableRef.accepted_legacy_iff t

theorem Join.allAccepted_legacy_iff : ∀ js : List Join,
    Join.AllAccepted .legacy js ↔ Join.AllAccepted .modern js ∧ Join.AllUnionsUnpaged js
  | [] => ⟨fun _ => ⟨trivial, trivial⟩, fun _ => trivial⟩
  | ⟨kind, table, on⟩ :: js => by
    rw [Join.AllAccepted, Join.AllAccepted, Join.AllUnionsUnpaged, TableRef.accepted_legacy_iff table,
      Filter.optAccepted_legacy_iff on, Join.allAccepted_legacy_iff js]
    constructor
    · rintro ⟨⟨ht, htu⟩, hon, hjs, hjsu⟩
      exact ⟨⟨ht, fun hk => ⟨(hon hk).1.1, (hon hk).2⟩, hjs⟩, htu, fun hk => (hon hk).1.2, hjsu⟩
    · rintro ⟨⟨ht, hon, hjs⟩, htu, honu, hjsu⟩
      exact ⟨⟨ht, htu⟩, fun hk => ⟨⟨(hon hk).1, honu hk⟩, (hon hk).2⟩, hjs, hjsu⟩

theorem Filter.accepted_legacy_iff : ∀ c : Filter, c.Accepted .legacy ↔ c.Accepted .modern ∧ c.UnionsUnpaged
  | .and cs => Filter.allAccepted_legacy_iff cs
  | .or cs => Filter.allAccepted_legacy_iff cs
  | .not c => Filter.accepted_legacy_iff c
  | .predicate c => Predicate.accepted_legacy_iff c
  | .raw _ _ => (and_iff_left trivial).symm

theorem Filter.allAccepted_legacy_iff : ∀ cs : List Filter,
    Filter.AllAccepted .legacy cs ↔ Filter.AllAccepted .modern cs ∧ Filter.AllUnionsUnpaged cs
  | [] => ⟨fun _ => ⟨trivial, trivial⟩, fun _ => trivial⟩
  | c :: cs => by
    rw [Filter.AllAccepted, Filter.AllAccepted, Filter.AllUnionsUnpaged, Filter.accepted_legacy_iff c,
      Filter.allAccepted_legacy_iff cs, and_and_and_comm]

theorem Filter.optAccepted_legacy_iff : ∀ c : Option Filter,
    Filter.OptAccepted .legacy c ↔ Filter.OptAccepted .modern c ∧ Filter.OptUnionsUnpaged c
  | none => ⟨fun _ => ⟨trivial, trivial⟩, fun _ => trivial⟩
  | some c => Filter.accepted_legacy_iff c

theorem Predicate.accepted_legacy_iff : ∀ c : Predicate,
    c.Accepted .legacy ↔ c.Accepted .modern ∧ c.UnionsUnpaged
  | .compare _ _ v _ => takes_iff (Value.accepted_legacy_iff v) (Value.bothAccepted_legacy_iff v)
  | .isIn _ vs _ => Value.allAccepted_legacy_iff vs
  | .inSelect _ q _ => Query.selectable_legacy_iff q
  | .isNull _ _ => (and_iff_left trivial).symm
  | .datePart _ _ _ v => takes_iff (Value.accepted_legacy_iff v) (Value.bothAccepted_legacy_iff v)
  | .rowExists q _ => Query.selectable_legacy_iff q

theorem Branch.allAccepted_legacy_iff : ∀ bs : List Branch,
    Branch.AllAccepted .legacy bs ↔ Branch.AllAccepted .modern bs ∧ Branch.AllUnionsUnpaged bs
  | [] => ⟨fun _ => ⟨trivial, trivial⟩, fun _ => trivial⟩
  | ⟨op, q⟩ :: bs => by
    rw [Branch.AllAccepted, Branch.AllAccepted, Branch.AllUnionsUnpaged, Query.selectable_legacy_iff q,
      Branch.allAccepted_legacy_iff bs]
    constructor
    · rintro ⟨hopen, ⟨hq, hqu⟩, hbs, hbsu⟩
      exact ⟨⟨hopen, hq, hbs⟩, hqu, hbsu⟩
    · rintro ⟨⟨hopen, hq, hbs⟩, hqu, hbsu⟩
      exact ⟨hopen, ⟨hq, hqu⟩, hbs, hbsu⟩

/-- The checks of a select differ in one place, which asks that a union is not paged. -/
theorem Query.selectable_legacy_iff : ∀ q : Query, q.Selectable .legacy ↔ q.Selectable .modern ∧ q.UnionsUnpaged
  | ⟨action, table, distinct, columns, joins, filter, groups, having, orders, limit, offset, aggregate,
      branches, lock, assignments, returning⟩ => by
    rw [Query.Selectable, Query.Selectable, Query.UnionsUnpaged, TableRef.optAccepted_legacy_iff table,
      Join.allAccepted_legacy_iff joins, Filter.optAccepted_legacy_iff filter,
      Filter.optAccepted_legacy_iff having, Branch.allAccepted_legacy_iff branches]
    constructor
    · rintro ⟨ha, ⟨ht, htu⟩, hl, ho, hagg, hunion, hset, hret, ⟨hj, hju⟩, ⟨hf, hfu⟩, ⟨hh, hhu⟩, hb, hbu⟩
      exact ⟨⟨ha, ht, hl, ho, hagg, fun hne => ⟨(hunion hne).1, nofun⟩, hset, hret, hj, hf, hh, hb⟩,
        fun hne => (hunion hne).2 rfl, htu, hju, hfu, hhu, hbu⟩
    · rintro ⟨⟨ha, ht, hl, ho, hagg, hunion, hset, hret, hj, hf, hh, hb⟩, hpaged, htu, hju, hfu, hhu, hbu⟩
      exact ⟨ha, ⟨ht, htu⟩, hl, ho, hagg, fun hne => ⟨(hunion hne).1, fun _ => hpaged hne⟩, hset, hret, ⟨hj, hju⟩,
        ⟨hf, hfu⟩, ⟨hh, hhu⟩, hb, hbu⟩

end

/-- **Acceptance under the two syntaxes.**  Legacy paging accepts a description exactly when modern paging accepts
it and no union that the compiler looks at is paged. -/
theorem Query.accepted_legacy_iff (q : Query) :
    q.Accepted .legacy ↔ q.Accepted .modern ∧ q.ReachedUnionsUnpaged := by
  unfold Query.Accepted Query.ReachedUnionsUnpaged
  cases q.action with
  | select => exact Query.selectable_legacy_iff q
  | insert =>
    dsimp only
    rw [Value.allAccepted_legacy_iff]
    constructor
    · rintro ⟨hw, hf, hset, hv, hvu⟩
      exact ⟨⟨hw, hf, hset, hv⟩, hvu, by rw [hf]; trivial⟩
    · rintro ⟨⟨hw, hf, hset, hv⟩, hvu, -⟩
      exact ⟨hw, hf, hset, hv, hvu⟩
  | update =>
    dsimp only
    rw [Value.allAccepted_legacy_iff, Filter.optAccepted_legacy_iff]
    constructor
    · rintro ⟨hw, hset, ⟨hv, hvu⟩, hc, hcu⟩
      exact ⟨⟨hw, hset, hv, hc⟩, hvu, hcu⟩
    · rintro ⟨⟨hw, hset, hv, hc⟩, hvu, hcu⟩
      exact ⟨hw, hset, ⟨hv, hvu⟩, hc, hcu⟩
  | delete =>
    dsimp only
    rw [Filter.optAccepted_legacy_iff]
    constructor
    · rintro ⟨hw, hset, hc, hcu⟩
      exact ⟨⟨hw, hset, hc⟩, by rw [hset]; trivial, hcu⟩
    · rintro ⟨⟨hw, hset, hc⟩, -, hcu⟩
      exact ⟨hw, hset, hc, hcu⟩

end SqlQuery
