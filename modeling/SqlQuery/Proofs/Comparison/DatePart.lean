import SqlQuery.Proofs.Binding.Clauses
import SqlQuery.Proofs.Comparison.Basic
import SqlQuery.Proofs.Subquery.Statement

/-!
# Parts of a date

A condition on a part of a timestamp column is the plain comparison with the values cut down to that part, with the
part of the column in the column's place.  Narrowing is done where a value is compiled, so it has to reach both bounds
and the one operand, and may not reach into a subquery.

* `Value.narrowed` — what a plain comparison takes instead, `DatePart.leftText` — the part of the column as text;
* `Value.fragment_narrow`, `comparison_narrowed` — narrowing before and while compiling;
* `Value.BindsPart` — what one operand binds;
* `Predicate.datePart_agrees` — **a condition on a part agrees with the plain comparison**.
-/

namespace SqlQuery

open SqlQuery.Fragment SqlQuery.Calendar

variable {p : Paging} {part : DatePart}

/-! ### Narrowed values -/

namespace Value

/-- The value that a plain comparison takes in place of a comparison of a part: the value cut down to it, or each
member of the bounds. -/
def narrowed (part : DatePart) (op : String) : Value → Value
  | list vs => if (Operator.ofText? op).any (·.isRange) then list (vs.map (narrow part)) else list vs
  | v => v.narrow part

/-- The values on the right of an operator. -/
def operands : Value → List Value
  | list vs => vs
  | v => [v]

theorem isList_narrow (part : DatePart) (v : Value) : (v.narrow part).isList = v.isList := by
  cases part <;> cases v <;> rfl

theorem narrow_eq_null_iff {v : Value} : v.narrow part = null ↔ v = null := by
  cases part <;> cases v <;> simp [narrow]

theorem narrow_of_not_isScalar {v : Value} (h : v.isScalar = false) : v.narrow part = v := by
  cases v with
  | raw | column | list | subquery => cases part <;> rfl
  | _ => exact nomatch h

theorem narrow_ne_timestamp (v : Value) (t : Timestamp) : v.narrow part ≠ timestamp t := by
  cases part <;> cases v <;> simp [narrow]

theorem narrowed_of_not_isRange {op : String} {o : Operator} (ho : Operator.ofText? op = some o)
    (hr : o.isRange = false) (v : Value) : v.narrowed part op = v.narrow part := by
  cases v with
  | list vs =>
    rw [narrowed, ho, Option.any_some, hr, narrow_of_not_isScalar rfl]
    rfl
  | _ => rfl

variable {k : Option DatePart}

/-- A value that is cut down already compiles to what it is cut down to while compiling. -/
theorem fragment_narrow (hk : k = none ∨ k = some part) (v : Value) :
    (v.narrow part).fragment p k = v.fragment p (some part) := by
  cases hs : v.isScalar with
  | true =>
    rw [fragment_of_isScalar hs, fragment_of_isScalar ((isScalar_narrow part v).trans hs)]
    obtain rfl | rfl := hk
    · rfl
    · exact congrArg (fun w => Except.ok [Piece.bound w]) (narrow_narrow part v)
  | false =>
    rw [narrow_of_not_isScalar hs]
    cases v with
    | raw | column | list | subquery => rfl
    | _ => exact nomatch hs

theorem bounds?_map_narrow (hk : k = none ∨ k = some part) (vs : List Value) :
    (list (vs.map (narrow part))).bounds? p k = (list vs).bounds? p (some part) := by
  match vs with
  | [low, high] => simp only [List.map_cons, List.map_nil, bounds?, fragment_narrow hk]
  | [] | [_] | _ :: _ :: _ :: _ => rfl

theorem bounds?_of_not_isList {v : Value} (h : v.isList = false) : v.bounds? p k = none := by
  cases v with
  | list => exact nomatch h
  | _ => rfl

end Value

/-- **Narrowing before and while compiling.**  Bounds are all that an operator that takes them looks at, and no other
operator takes a list. -/
theorem comparison_narrowed {k : Option DatePart} (hk : k = none ∨ k = some part) {op : String} {o : Operator}
    (ho : Operator.ofText? op = some o) (lhs : Fragment) (v : Value) :
    comparison lhs o (v.narrowed part op) ((v.narrowed part op).fragment p k) ((v.narrowed part op).bounds? p k) =
      comparison lhs o v (v.fragment p (some part)) (v.bounds? p (some part)) := by
  cases hr : o.isRange with
  | true =>
    have hbounds : (v.narrowed part op).bounds? p k = v.bounds? p (some part) := by
      cases v with
      | list vs =>
        rw [Value.narrowed, ho, Option.any_some, hr, if_pos rfl]
        exact Value.bounds?_map_narrow hk vs
      | _ => exact Value.bounds?_of_not_isList (Value.isList_narrow part _)
    unfold comparison
    rw [if_pos hr, if_pos hr, hbounds]
  | false =>
    rw [Value.narrowed_of_not_isRange ho hr]
    by_cases hnull : v = .null
    · rw [Value.narrow_eq_null_iff.2 hnull, hnull, comparison_null hr, comparison_null hr]
    · cases hl : v.isList with
      | true => rw [comparison_list hr hl, comparison_list hr ((Value.isList_narrow part v).trans hl)]
      | false =>
        rw [comparison_one hr hnull hl, comparison_one hr (mt Value.narrow_eq_null_iff.1 hnull)
          ((Value.isList_narrow part v).trans hl), Value.fragment_narrow hk]

/-! ### What is bound -/

/-- What an operand binds where a part is compared. -/
structure Value.BindsPart (p : Paging) (part : DatePart) (v : Value) (ps : List Value) : Prop where
  /-- A subquery has the values of its own statement, of which none is cut down. -/
  subquery : ∀ q, v = .subquery q → ∃ s, collected [] (q.select p) = .ok s ∧ ps = s.params
  /-- Anything else binds itself at most, cut down to the part. -/
  itself : (∀ q, v ≠ .subquery q) → ps = [] ∨ ps = [v.narrow part]
  noTimestamp : (∀ q, v ≠ .subquery q) → ∀ t, Value.timestamp t ∉ ps
  /-- A timestamp is cut down to its date or its time. -/
  whole : ∀ t : Timestamp, v = .timestamp t →
    (part = .date → ps = [.date t.date]) ∧ (part = .time → ps = [.time t.time])
  /-- The fields of a date, and of the date of a timestamp, are whole numbers. -/
  field : ∀ d : Date, (v = .date d ∨ ∃ t : Timestamp, v = .timestamp t ∧ t.date = d) →
    (part = .day → ps = [.int d.day]) ∧ (part = .month → ps = [.int d.month]) ∧ (part = .year → ps = [.int d.year])

namespace Value.BindsPart

variable {v : Value}

theorem scalar (h : v.isScalar = true) : v.BindsPart p part [v.narrow part] where
  subquery := by
    rintro q rfl
    exact nomatch h
  itself _ := .inr rfl
  noTimestamp _ t ht := v.narrow_ne_timestamp t (List.mem_singleton.1 ht).symm
  whole := by
    rintro t rfl
    constructor <;> rintro rfl <;> rfl
  field := by
    rintro d (rfl | ⟨t, rfl, rfl⟩) <;> refine ⟨?_, ?_, ?_⟩ <;> rintro rfl <;> rfl

/-- A value that is neither a query nor of the calendar may be written out. -/
theorem nothing (hquery : ∀ q, v ≠ .subquery q) (hdate : ∀ d, v ≠ .date d) (htimestamp : ∀ t, v ≠ .timestamp t) :
    v.BindsPart p part [] where
  subquery q h := absurd h (hquery q)
  itself _ := .inl rfl
  noTimestamp _ _ := List.not_mem_nil
  whole t h := absurd h (htimestamp t)
  field := by
    rintro d (h | ⟨t, h, -⟩)
    · exact absurd h (hdate d)
    · exact absurd h (htimestamp t)

theorem of_fragment {f : Fragment} (h : v.fragment p (some part) = .ok f) : v.BindsPart p part (params f) := by
  cases hs : v.isScalar with
  | true =>
    obtain rfl := Except.ok.inj ((fragment_of_isScalar hs).symm.trans h)
    exact scalar hs
  | false =>
    cases v with
    | raw | column =>
      cases h
      exact nothing (by simp) (by simp) (by simp)
    | list => exact nomatch h
    | subquery q =>
      obtain ⟨inner, hinner, rfl⟩ := fragment_subquery_eq_ok.1 h
      refine ⟨?_, fun hq => absurd rfl (hq q), fun hq => absurd rfl (hq q), by simp, by simp⟩
      rintro _ ⟨⟩
      refine ⟨collect ⟨"", []⟩ inner, ?_, ?_⟩
      · rw [hinner]
        rfl
      · rw [collect_eq, params_parenthesized, List.nil_append]
    | _ => exact nomatch hs

/-- Null is asked for in words, or bound like any other value. -/
theorem of_compareNull {lhs : Fragment} (hlhs : params lhs = []) (op : Operator) :
    Value.null.BindsPart p part (params (compareNull lhs op)) := by
  have hwritten : Value.null.BindsPart p part [] := nothing (by simp) (by simp) (by simp)
  have hbound : Value.null.BindsPart p part [.null] := by
    simpa only [narrow_eq_null_iff.2] using scalar (v := .null) rfl
  unfold compareNull
  split
  · simpa [hlhs] using hwritten
  · simpa [hlhs] using hwritten
  · simpa [hlhs] using hwritten
  · split
    · simpa [hlhs] using hwritten
    · rw [params_append, params_append, hlhs, op.params_spacedSymbol]
      exact hbound

end Value.BindsPart

/-- The values of a comparison are those of its operands, one after the other. -/
theorem comparison_bindsPart {lhs f : Fragment} (hlhs : params lhs = []) {op : Operator} {v : Value}
    (h : comparison lhs op v (v.fragment p (some part)) (v.bounds? p (some part)) = .ok f) :
    ∃ bound, params f = bound.flatten ∧ List.Forall₂ (Value.BindsPart p part) v.operands bound := by
  obtain ⟨-, low, high, hbounds, rfl⟩ | ⟨-, rfl, rfl⟩ | ⟨-, hnull, hlist, rhs, hrhs, rfl⟩ := comparison_eq_ok.1 h
  · obtain ⟨l, h, rfl, hl, hh⟩ := Value.bounds?_eq_some_ok.1 hbounds
    refine ⟨[params low, params high], ?_, .cons (.of_fragment hl) (.cons (.of_fragment hh) .nil)⟩
    simp [hlhs]
  · exact ⟨[params (compareNull lhs op)], by simp, .cons (.of_compareNull hlhs op) .nil⟩
  · have hone : v.operands = [v] := by
      cases v with
      | list vs => exact absurd rfl (hlist vs)
      | _ => rfl
    refine ⟨[params rhs], by simp [hlhs], ?_⟩
    rw [hone]
    exact .cons (.of_fragment hrhs) .nil

/-! ### The predicate -/

/-- The part of a column, as it is written. -/
def DatePart.leftText (part : DatePart) (column : String) : String :=
  match part with
  | .date | .time => "cast(" ++ quote column ++ " as " ++ part.keyword ++ ")"
  | .day | .month | .year => "extract(" ++ part.keyword ++ " from " ++ quote column ++ ")"

theorem DatePart.text_ofColumn (part : DatePart) (column : String) :
    text (part.ofColumn column) = part.leftText column := by
  cases part <;> simp only [ofColumn, isCast, if_true, Bool.false_eq_true, if_false, leftText, Fragment.name,
    text_append, text_word, text_singleton, Piece.text, String.append_assoc]

namespace Predicate

variable (p : Paging) (column : String) (part : DatePart) (op : String) (v : Value)

theorem datePart_agree : Agree SameKind (fun f f' => (∃ g, f = part.ofColumn column ++ g ∧ f' = name column ++ g) ∧
      ∃ bound, params f = bound.flatten ∧ List.Forall₂ (Value.BindsPart p part) v.operands bound)
    ((datePart column part op v).fragment p) ((compare column op (v.narrowed part op) false).fragment p) := by
  cases ho : Operator.ofText? op with
  | none =>
    rw [fragment_datePart_of_unknown ho, fragment_compare_of_unknown ho]
    exact rfl
  | some o =>
    have hcompare : (compare column op (v.narrowed part op) false).fragment p =
        comparison (name column) o v (v.fragment p (some part)) (v.bounds? p (some part)) := by
      rw [fragment_compare_of_known ho, ← comparison_narrowed (.inl rfl) ho]
      exact bind_pure _
    rw [fragment_datePart_of_known ho, hcompare]
    exact comparison_agree_left.imp fun f f' hf hleft => ⟨hleft, comparison_bindsPart (part.params_ofColumn column) hf⟩

/-- **A condition on a part agrees with the plain comparison** of the values cut down to the part.  Whatever has been
collected before, both fail in one kind, or both succeed with the same values, and their texts differ in what stands
on the left.  Values that are cut down before are compared alike.  A value of its own that the condition binds is never
a timestamp, and it is a whole number where a field of a date is compared. -/
theorem datePart_agrees (vs : List Value) :
    ((∃ e e', collected vs ((datePart column part op v).fragment p) = .error e ∧
        collected vs ((compare column op (v.narrowed part op) false).fragment p) = .error e' ∧ e.kind = e'.kind) ∨
      ∃ rest bound,
        collected vs ((datePart column part op v).fragment p) =
          .ok ⟨part.leftText column ++ rest, vs ++ bound.flatten⟩ ∧
        collected vs ((compare column op (v.narrowed part op) false).fragment p) =
          .ok ⟨quote column ++ rest, vs ++ bound.flatten⟩ ∧
        List.Forall₂ (Value.BindsPart p part) v.operands bound) ∧
    collected vs ((datePart column part op (v.narrowed part op)).fragment p) =
      collected vs ((datePart column part op v).fragment p) := by
  constructor
  · obtain ⟨e, e', he, he', hkind⟩ | ⟨_, _, hf, hf', ⟨g, rfl, rfl⟩, bound, hbound, hoperands⟩ :=
      (datePart_agree p column part op v).ofSameKind
    · rw [he, he']
      exact .inl ⟨e, e', rfl, rfl, hkind⟩
    · rw [hf, hf']
      have hparams : params g = bound.flatten := by rw [← hbound, params_append, part.params_ofColumn, List.nil_append]
      refine .inr ⟨text g, bound, ?_, ?_, hoperands⟩
      · refine congrArg Except.ok ?_
        rw [collect_eq, hbound, text_append, part.text_ofColumn, String.empty_append]
      · refine congrArg Except.ok ?_
        rw [collect_eq, params_append, hparams, text_append, String.empty_append]
        rfl
  · cases ho : Operator.ofText? op with
    | none => rw [fragment_datePart_of_unknown ho, fragment_datePart_of_unknown ho]
    | some o =>
      rw [fragment_datePart_of_known ho, fragment_datePart_of_known ho, comparison_narrowed (.inr rfl) ho]

example (d : Date) (t : Timestamp) :
    collected [] ((datePart "made" .year "Not BETWEEN" (.list [.date d, .timestamp t])).fragment p) =
      .ok ⟨"extract(year from \"made\") not between ? and ?", [.int d.year, .int t.date.year]⟩ := rfl

end Predicate

end SqlQuery
