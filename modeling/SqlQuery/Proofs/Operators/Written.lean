import SqlQuery.Proofs.Operators.Symbols

/-!
# The operators of a statement

Which operators a statement writes can be told from its description: those of its comparisons, turned round where they
are negated, in the order in which the compiler reads the parts.

* `Operator.written` — what a comparison with a value writes: none where it asks whether something is null;
* `Value.written` … `Query.written` — the operators of a description, each where it is written;
* `symbols_comparison` — a comparison has its own operator before those of its operands;
* `Query.symbols_select` — selects, at any depth;
* `Query.symbols_fragment` — **the operators of a statement are those of its description**.
-/

namespace SqlQuery

open SqlQuery.Fragment SqlQuery.Text

/-- The operator of a comparison with the value.  Equality with null is written as `is null`. -/
def Operator.written (op : Operator) (v : Value) : List Operator :=
  match op, v with
  | .eq, .null | .ne, .null | .bangEq, .null => []
  | op, _ => [op]

mutual

/-- The operators in a value, which are those of the queries in it. -/
def Value.written : Value → List Operator
  | .list vs => Value.allWritten vs
  | .subquery q => q.selectWritten
  | _ => []

def Value.allWritten : List Value → List Operator
  | [] => []
  | v :: vs => v.written ++ Value.allWritten vs

def TableRef.written : TableRef → List Operator
  | .subquery q _ => q.selectWritten
  | .procedure _ args => Value.allWritten args
  | _ => []

def TableRef.optWritten : Option TableRef → List Operator
  | none => []
  | some t => t.written

/-- A join that takes no condition writes none of its operators. -/
def Join.allWritten : List Join → List Operator
  | [] => []
  | ⟨kind, table, on⟩ :: js =>
    table.written ++ (if kind.takesCondition then Filter.optWritten on else []) ++ Join.allWritten js

def Filter.written : Filter → List Operator
  | .and children => Filter.allWritten children
  | .or children => Filter.allWritten children
  | .not inner => inner.written
  | .predicate c => c.written
  | .raw _ _ => []

def Filter.allWritten : List Filter → List Operator
  | [] => []
  | f :: fs => f.written ++ Filter.allWritten fs

def Filter.optWritten : Option Filter → List Operator
  | none => []
  | some f => f.written

/-- The operator of a condition, and then those in its operands.  Only a comparison of a whole column can be negated. -/
def Predicate.written : Predicate → List Operator
  | .compare _ op v negated =>
    (Operator.ofText? op).toList.flatMap (fun o => (o.oriented negated).1.written v) ++ v.written
  | .isIn _ vs _ => Value.allWritten vs
  | .inSelect _ q _ => q.selectWritten
  | .isNull _ _ => []
  | .datePart _ _ op v => (Operator.ofText? op).toList.flatMap (·.written v) ++ v.written
  | .rowExists q _ => q.selectWritten

def Branch.allWritten : List Branch → List Operator
  | [] => []
  | ⟨_, q⟩ :: bs => q.selectWritten ++ Branch.allWritten bs

/-- The operators of a select. -/
def Query.selectWritten : Query → List Operator
  | ⟨_, table, _, _, joins, filter, _, having, _, _, _, _, branches, _, _, _⟩ =>
    TableRef.optWritten table ++ Join.allWritten joins ++ Filter.optWritten filter ++ Filter.optWritten having ++
      Branch.allWritten branches

end

/-- The operators of a statement.  An update writes the sign of equality before each of its values. -/
def Query.written (q : Query) : List Operator :=
  match q.action with
  | .select => q.selectWritten
  | .insert => Value.allWritten (q.assignments.map Assignment.value)
  | .update => (q.assignments.flatMap fun a => .eq :: a.value.written) ++ Filter.optWritten q.filter
  | .delete => Filter.optWritten q.filter

/-! ### Comparisons -/

theorem Operator.written_of_isRange {op : Operator} (h : op.isRange = true) (v : Value) : op.written v = [op] := by
  cases op with
  | between | notBetween => cases v <;> rfl
  | _ => exact nomatch h

theorem Operator.written_of_ne_null (op : Operator) {v : Value} (h : v ≠ .null) : op.written v = [op] := by
  cases v with
  | null => exact absurd rfl h
  | _ => cases op <;> rfl

theorem symbols_compareNull {lhs : Fragment} (h : symbols lhs = []) (op : Operator) :
    symbols (compareNull lhs op) = op.written .null := by
  have hnull : symbols (word "null") = [] := symbols_word (by decide)
  cases op with
  | eq =>
    have hisNull : symbols (word " is null") = [] := symbols_word (by decide)
    simp [compareNull, Operator.written, h, hisNull]
  | ne | bangEq =>
    have hisNotNull : symbols (word " is not null") = [] := symbols_word (by decide)
    simp [compareNull, Operator.written, h, hisNotNull]
  | isDistinctFrom | isNotDistinctFrom =>
    simp [compareNull, Operator.written, Operator.isDistinctness, h, hnull]
  | _ => simp [compareNull, Operator.written, Operator.isDistinctness, h]

section Comparison

variable {lhs f : Fragment} {op : Operator} {v : Value} {operand : Except Error Fragment}
  {bounds : Option (Except Error (Fragment × Fragment))}

/-- **A comparison** writes its operator, and then its operands write theirs. -/
theorem symbols_comparison (hlhs : symbols lhs = [])
    (hoperand : ∀ rhs, operand = .ok rhs → symbols rhs = v.written)
    (hbounds : ∀ low high, bounds = some (.ok (low, high)) → symbols low ++ symbols high = v.written)
    (h : comparison lhs op v operand bounds = .ok f) : symbols f = op.written v ++ v.written := by
  have hand : symbols (word " and ") = [] := symbols_word (by decide)
  obtain ⟨hr, low, high, hb, rfl⟩ | ⟨-, rfl, rfl⟩ | ⟨-, hv, -, rhs, hrhs, rfl⟩ := comparison_eq_ok.1 h
  · rw [op.written_of_isRange hr, ← hbounds low high hb]
    simp [hlhs, hand]
  · rw [symbols_compareNull hlhs]
    simp [Value.written]
  · rw [op.written_of_ne_null hv, ← hoperand rhs hrhs]
    simp [hlhs]

end Comparison

/-! ### The recursion -/

mutual

theorem Filter.written_of_isEmpty : ∀ c : Filter, c.isEmpty = true → c.written = []
  | .and cs, h | .or cs, h => Filter.allWritten_of_allEmpty cs h
  | .not c, h => Filter.written_of_isEmpty c h
  | .predicate _, h => nomatch h
  | .raw _ _, _ => rfl

theorem Filter.allWritten_of_allEmpty : ∀ cs : List Filter, Filter.allEmpty cs = true → Filter.allWritten cs = []
  | [], _ => rfl
  | c :: cs, h => by
    rw [Filter.allEmpty, Bool.and_eq_true] at h
    rw [Filter.allWritten, Filter.written_of_isEmpty c h.1, Filter.allWritten_of_allEmpty cs h.2]
    rfl

end

section Recursion

variable {p : Paging}

mutual

theorem Value.symbols_fragment {part : Option DatePart} : ∀ (v : Value) {f : Fragment},
    v.fragment p part = .ok f → symbols f = v.written
  | .subquery q, f, h => by
    obtain ⟨inner, hq, rfl⟩ := Value.fragment_subquery_eq_ok.1 h
    rw [symbols_parenthesized]
    exact Query.symbols_select q hq
  | .list _, _, h => nomatch h
  | .null, _, h | .bool _, _, h | .int _, _, h | .float _, _, h | .string _, _, h | .date _, _, h | .time _, _, h
  | .timestamp _, _, h | .raw _, _, h | .column _, _, h => by
    cases h
    rfl

theorem Value.symbols_bounds {part : Option DatePart} : ∀ (v : Value) {low high : Fragment},
    v.bounds? p part = some (.ok (low, high)) → symbols low ++ symbols high = v.written
  | .list [l, r], low, high, h => by
    obtain ⟨_, _, hv, hl, hr⟩ := Value.bounds?_eq_some_ok.1 h
    cases hv
    rw [Value.written, Value.allWritten, Value.allWritten, Value.allWritten, Value.symbols_fragment l hl,
      Value.symbols_fragment r hr, List.append_nil]
  | .list [], _, _, h | .list [_], _, _, h | .list (_ :: _ :: _ :: _), _, _, h | .null, _, _, h | .bool _, _, _, h
  | .int _, _, _, h | .float _, _, _, h | .string _, _, _, h | .date _, _, _, h | .time _, _, _, h
  | .timestamp _, _, _, h | .raw _, _, _, h | .column _, _, _, h | .subquery _, _, _, h => nomatch h

theorem Value.symbols_fragments : ∀ (vs : List Value) {fs : List Fragment}, Value.fragments p vs = .ok fs →
    fs.flatMap symbols = Value.allWritten vs
  | [], _, h => by
    cases h
    rfl
  | v :: vs, fs, h => by
    obtain ⟨g, gs, hg, hgs, rfl⟩ := Value.fragments_cons_eq_ok.1 h
    rw [List.flatMap_cons, Value.symbols_fragment v hg, Value.symbols_fragments vs hgs, Value.allWritten]

theorem TableRef.symbols_fragment : ∀ (t : TableRef) {f : Fragment}, t.fragment p = .ok f → symbols f = t.written
  | .named n, _, h => by
    obtain ⟨-, rfl⟩ := TableRef.fragment_named_eq_ok.1 h
    rfl
  | .raw _ _, _, h => by
    cases h
    rfl
  | .subquery q label, _, h => by
    obtain ⟨inner, hq, rfl⟩ := TableRef.fragment_subquery_eq_ok.1 h
    rw [symbols_labelled, symbols_parenthesized]
    exact Query.symbols_select q hq
  | .procedure n args, _, h => by
    obtain ⟨-, gs, hgs, rfl⟩ := TableRef.fragment_procedure_eq_ok.1 h
    rw [symbols_procedureCall]
    exact Value.symbols_fragments args hgs

theorem TableRef.symbols_optional : ∀ (t : Option TableRef) {f : Fragment}, TableRef.optional p t = .ok f →
    symbols f = TableRef.optWritten t
  | none, _, h => by
    cases h
    rfl
  | some t, _, h => TableRef.symbols_fragment t h

theorem Join.symbols_fragments : ∀ (js : List Join) {f : Fragment}, Join.fragments p js = .ok f →
    symbols f = Join.allWritten js
  | [], _, h => by
    cases h
    rfl
  | ⟨kind, table, on⟩ :: js, _, h => by
    obtain ⟨g, gs, hg, hgs, rfl⟩ := Join.fragments_cons_eq_ok.1 h
    obtain ⟨t, ht, hkind⟩ := Join.fragment_eq_ok.1 hg
    rw [symbols_append, symbols_append, symbols_space, List.nil_append, Join.symbols_fragments js hgs, Join.allWritten,
      ← TableRef.symbols_fragment table ht]
    obtain ⟨hk, rfl⟩ | ⟨hk, c, hc, -, rfl⟩ := hkind
    · rw [symbols_join, hk]
      rfl
    · rw [symbols_join, hk, if_pos rfl, if_pos rfl, Filter.symbols_optional on hc]

theorem Filter.symbols_fragment : ∀ (c : Filter) {f : Fragment}, c.fragment p = .ok f → symbols f = c.written
  | .and cs, _, h => by
    obtain ⟨gs, hgs, rfl⟩ := Filter.fragment_and_eq_ok.1 h
    rw [symbols_joined (by decide)]
    exact Filter.symbols_group cs hgs
  | .or cs, _, h => by
    obtain ⟨gs, hgs, rfl⟩ := Filter.fragment_or_eq_ok.1 h
    rw [symbols_joined (by decide)]
    exact Filter.symbols_group cs hgs
  | .not c, _, h => by
    obtain ⟨g, hg, rfl⟩ := Filter.fragment_not_eq_ok.1 h
    rw [symbols_negation]
    exact Filter.symbols_fragment c hg
  | .predicate c, _, h => Predicate.symbols_fragment c h
  | .raw _ _, _, h => by
    cases h
    rfl

theorem Filter.symbols_group : ∀ (cs : List Filter) {fs : List Fragment}, Filter.group p cs = .ok fs →
    fs.flatMap symbols = Filter.allWritten cs
  | [], _, h => by
    cases h
    rfl
  | c :: cs, _, h => by
    cases hc : c.isEmpty with
    | true =>
      rw [Filter.group_cons_of_isEmpty hc] at h
      rw [Filter.allWritten, Filter.written_of_isEmpty c hc, Filter.symbols_group cs h, List.nil_append]
    | false =>
      obtain ⟨g, gs, hg, hgs, rfl⟩ := (Filter.group_cons_eq_ok hc).1 h
      have hgrouped : symbols (c.grouped g) = symbols g := by
        unfold Filter.grouped
        split
        · exact symbols_parenthesized g
        · rfl
      rw [List.flatMap_cons, hgrouped, Filter.symbols_fragment c hg, Filter.symbols_group cs hgs, Filter.allWritten]

theorem Filter.symbols_optional : ∀ (c : Option Filter) {f : Fragment}, Filter.optional p c = .ok f →
    symbols f = Filter.optWritten c
  | none, _, h => by
    cases h
    rfl
  | some c, _, h => Filter.symbols_fragment c h

theorem Predicate.symbols_fragment : ∀ (c : Predicate) {f : Fragment}, c.fragment p = .ok f →
    symbols f = c.written
  | .compare c op v negated, _, h => by
    obtain ⟨o, ho, g, hg, rfl⟩ := Predicate.fragment_compare_eq_ok.1 h
    rw [symbols_negatedComparison, Predicate.written, ho, symbols_comparison (symbols_name c)
      (fun _ => Value.symbols_fragment v) (fun _ _ => Value.symbols_bounds v) hg]
    simp
  | .isIn c vs negated, _, h => by
    obtain ⟨gs, hgs, rfl⟩ := Predicate.fragment_isIn_eq_ok.1 h
    rw [symbols_membership]
    exact Value.symbols_fragments vs hgs
  | .inSelect c q negated, _, h => by
    obtain ⟨inner, hq, rfl⟩ := Predicate.fragment_inSelect_eq_ok.1 h
    have hin : symbols (word "in ") = [] := symbols_word (by decide)
    simp only [symbols_append, symbols_name, symbols_space, symbols_notWord, hin, symbols_parenthesized,
      List.nil_append]
    exact Query.symbols_select q hq
  | .isNull c negated, _, h => by
    cases h
    have his : symbols (word " is ") = [] := symbols_word (by decide)
    have hnull : symbols (word "null") = [] := symbols_word (by decide)
    simp only [symbols_append, symbols_name, his, symbols_notWord, hnull, List.nil_append]
    rfl
  | .datePart c part op v, _, h => by
    obtain ⟨o, ho, hg⟩ := Predicate.fragment_datePart_eq_ok.1 h
    rw [Predicate.written, ho, symbols_comparison (part.symbols_ofColumn c)
      (fun _ => Value.symbols_fragment v) (fun _ _ => Value.symbols_bounds v) hg]
    simp
  | .rowExists q negated, _, h => by
    obtain ⟨inner, hq, rfl⟩ := Predicate.fragment_rowExists_eq_ok.1 h
    have hexists : symbols (word "exists ") = [] := symbols_word (by decide)
    simp only [symbols_append, symbols_notWord, hexists, symbols_parenthesized, List.nil_append]
    exact Query.symbols_select q hq

theorem Branch.symbols_fragments : ∀ (bs : List Branch) {f : Fragment}, Branch.fragments p bs = .ok f →
    symbols f = Branch.allWritten bs
  | [], _, h => by
    cases h
    rfl
  | ⟨op, q⟩ :: bs, _, h => by
    obtain ⟨-, g, gs, hg, hgs, rfl⟩ := Branch.fragments_cons_eq_ok.1 h
    have hop : symbols (word (" " ++ op.keyword ++ " ")) = [] := symbols_word (by cases op <;> decide)
    rw [symbols_append, symbols_append, hop, List.nil_append, Query.symbols_select q hg,
      Branch.symbols_fragments bs hgs, Branch.allWritten]

/-- **Selects**, at any depth. -/
theorem Query.symbols_select : ∀ (q : Query) {f : Fragment}, q.select p = .ok f → symbols f = q.selectWritten
  | ⟨_, table, _, _, joins, filter, _, having, _, _, _, _, branches, _, _, _⟩, _, h => by
    obtain ⟨hdefect, t, ht, j, hj, w, hw, v, hv, b, hb, rfl⟩ := Query.select_eq_ok.1 h
    rw [Query.symbols_assembled hdefect, TableRef.symbols_optional table ht, Join.symbols_fragments joins hj,
      Filter.symbols_optional filter hw, Filter.symbols_optional having hv, Branch.symbols_fragments branches hb]
    rfl

end

end Recursion

/-! ### Statements -/

section Writes

variable {p : Paging} {q : Query} {f : Fragment}

theorem symbols_sets (as : List Assignment) {vs : List Fragment}
    (h : Value.fragments p (as.map Assignment.value) = .ok vs) :
    ((as.zip vs).map fun (a, v) => name a.column ++ word " = " ++ v).flatMap symbols =
      as.flatMap fun a => .eq :: a.value.written := by
  have hset : symbols (word " = ") = [.eq] := symbols_spacedSymbol .eq
  induction as generalizing vs with
  | nil => rfl
  | cons a as ih =>
    obtain ⟨g, gs, hg, hgs, rfl⟩ := Value.fragments_cons_eq_ok.1 h
    rw [List.zip_cons_cons, List.map_cons, List.flatMap_cons, List.flatMap_cons, ih hgs]
    simp [hset, Value.symbols_fragment a.value hg]

theorem Query.symbols_insertFragment (h : q.insertFragment p = .ok f) :
    symbols f = Value.allWritten (q.assignments.map Assignment.value) := by
  obtain ⟨table, -, -, -, -, values, hvalues, rfl⟩ := Query.insertFragment_eq_ok.1 h
  rw [Query.assigned_eq] at hvalues
  have hinto : symbols (word "insert into ") = [] := symbols_word (by decide)
  have hbetween : symbols (word " values ") = [] := symbols_word (by decide)
  have hcolumns : symbols (joined ", " (q.assignments.map fun a => name a.column)) = [] :=
    symbols_listed_eq_nil _ fun a => symbols_name a.column
  rw [← Value.symbols_fragments _ hvalues, ← symbols_listed]
  simp [hinto, hbetween, hcolumns, q.symbols_givesBack]

theorem Query.symbols_updateFragment (h : q.updateFragment p = .ok f) : symbols f =
    (q.assignments.flatMap fun a => .eq :: a.value.written) ++ Filter.optWritten q.filter := by
  obtain ⟨table, -, -, -, -, values, hvalues, c, hc, rfl⟩ := Query.updateFragment_eq_ok.1 h
  rw [Query.assigned_eq] at hvalues
  have hupdate : symbols (word "update ") = [] := symbols_word (by decide)
  have hset : symbols (word " set ") = [] := symbols_word (by decide)
  rw [← symbols_sets q.assignments hvalues, ← symbols_listed, ← Filter.symbols_optional q.filter hc]
  simp [hupdate, hset, symbols_where, q.symbols_givesBack]

theorem Query.symbols_deleteFragment (h : q.deleteFragment p = .ok f) :
    symbols f = Filter.optWritten q.filter := by
  obtain ⟨table, -, -, -, -, c, hc, rfl⟩ := Query.deleteFragment_eq_ok.1 h
  have hdelete : symbols (word "delete from ") = [] := symbols_word (by decide)
  rw [← Filter.symbols_optional q.filter hc]
  simp [hdelete, symbols_where, q.symbols_givesBack]

/-- **The operators of a statement are those of its description**, in their order. -/
theorem Query.symbols_fragment (h : q.fragment p = .ok f) : symbols f = q.written := by
  unfold Query.fragment at h
  unfold Query.written
  cases haction : q.action with
  | select =>
    rw [haction] at h
    exact Query.symbols_select q h
  | insert =>
    rw [haction] at h
    exact Query.symbols_insertFragment h
  | update =>
    rw [haction] at h
    exact Query.symbols_updateFragment h
  | delete =>
    rw [haction] at h
    exact Query.symbols_deleteFragment h

end Writes

end SqlQuery
