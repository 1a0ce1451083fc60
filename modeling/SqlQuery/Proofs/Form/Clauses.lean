import SqlQuery.Proofs.Form.Phrases

/-!
# Clauses are formed

What the compiler puts around and between compiled parts is formed when the parts are: columns, orderings,
paging, comparisons, joins, and the layout of a whole select.
-/

namespace SqlQuery

open SqlQuery.Fragment SqlQuery.Text

variable {R : Verbatim → Prop}

/-! ### Clauses without values -/

theorem Column.fragment_formed {c : Column} (h : ∀ r ∈ c.verbatims, R r) : Formed R c.fragment := by
  cases c with
  | star => exact .flat (.of_mem (by simp [phrases]))
  | named n => exact .name n
  | aliased n label => exact (Formed.name n).glue (.of_mem (by simp [glues])) (.part label)
  | raw sql => exact .verbatim (h _ List.mem_cons_self)

theorem Column.list_formed {cs : List Column} (h : ∀ c ∈ cs, ∀ r ∈ c.verbatims, R r) :
    Formed R (Column.list cs) := by
  unfold Column.list
  split
  · exact .flat (.of_mem (by simp [phrases]))
  · refine Formed.joined (.of_mem (by simp [glues])) ?_
    rw [List.forall_mem_map]
    exact fun c hc => Column.fragment_formed (h c hc)

theorem OrderBy.fragment_formed {o : OrderBy} (h : ∀ r ∈ o.verbatims, R r) : Formed R o.fragment := by
  cases o with
  | column c order =>
    obtain ⟨hflat, hs⟩ := flat_sortOrder order
    exact (Formed.name c).follow (.flat hflat) (by rwa [chars_word])
  | raw sql => exact .verbatim (h _ List.mem_cons_self)
  | random => exact .word phrase_randomOrder.1 phrase_randomOrder.2

theorem OrderBy.list_formed {os : List OrderBy} (h : ∀ o ∈ os, ∀ r ∈ o.verbatims, R r) :
    Formed R (OrderBy.list os) := by
  refine Formed.joined (.of_mem (by simp [glues])) ?_
  rw [List.forall_mem_map]
  exact fun o ho => OrderBy.fragment_formed (h o ho)

theorem Lock.fragment_formed {l : Lock} (h : ∀ r ∈ l.verbatims, R r) : Formed R l.fragment := by
  cases l with
  | forUpdate => exact .flat (.of_mem (by simp [phrases]))
  | raw sql =>
    rw [Lock.fragment]
    split
    · exact .nil
    · exact .lead (.of_mem (by simp [phrases, glues])) (by decide) (.verbatim (h _ List.mem_cons_self))

theorem startsApart_lock (l : Lock) : startsApart l.fragment.chars = true := by
  cases l with
  | forUpdate => rfl
  | raw sql =>
    rw [Lock.fragment]
    split
    · rfl
    · rw [chars_word_append]
      rfl

theorem Aggregate.fragment_formed (a : Aggregate) (distinct : Bool) : Formed R (a.fragment distinct) := by
  have hargument : Formed R (a.argument distinct) := by
    unfold Aggregate.argument
    split
    · exact .flat (.of_mem (by simp [phrases]))
    · split
      · exact .lead (.of_mem (by simp [phrases])) (by decide) (.name _)
      · exact .name _
  refine (Formed.enclosed (encloses_aggregate a.func) hargument).append (.part _) (Or.inl ?_)
  rw [chars_append, chars_word]
  exact endsApart_append (by decide) (by decide)

/-! ### Paging -/

theorem spaced_formed {cs : List String} (h : ∀ c ∈ cs, FlatPhrase (" " ++ c)) :
    Formed R (spaced cs) ∧ startsApart (spaced cs).chars = true := by
  induction cs with
  | nil => exact ⟨.nil, rfl⟩
  | cons c cs ih =>
    obtain ⟨hrest, hs⟩ := ih fun d hd => h d (List.mem_cons_of_mem c hd)
    have hc : startsApart (" " ++ c).toList = true := by
      rw [String.toList_append]
      rfl
    refine ⟨?_, ?_⟩
    · exact (Formed.flat (h c List.mem_cons_self)).follow hrest hs
    · rw [spaced, List.flatMap_cons, chars_word_append]
      exact startsApart_append hc hs

theorem flat_leading {p : Paging} {limit offset : Option Int} (hl : ∀ n ∈ limit, 0 ≤ n)
    (ho : ∀ n ∈ offset, 0 ≤ n) : ∀ c ∈ p.leading limit offset, FlatPhrase (" " ++ c) := by
  have hempty : FlatPhrase "" := .of_mem (by simp [phrases])
  cases p with
  | modern =>
    intro c hc
    exact absurd hc List.not_mem_nil
  | legacy =>
    simp only [Paging.leading, List.mem_append, Option.mem_toList, Option.map_eq_some_iff]
    rintro c (⟨n, hn, rfl⟩ | ⟨n, hn, rfl⟩)
    · have h := FlatPhrase.number (l := " first ") (.of_mem (by simp [phrases])) hempty (by decide) rfl (hl n hn)
      rwa [String.append_empty] at h
    · have h := FlatPhrase.number (l := " skip ") (.of_mem (by simp [phrases])) hempty (by decide) rfl (ho n hn)
      rwa [String.append_empty] at h

theorem flat_trailing {p : Paging} {limit offset : Option Int} (hl : ∀ n ∈ limit, 0 ≤ n)
    (ho : ∀ n ∈ offset, 0 ≤ n) : ∀ c ∈ p.trailing limit offset, FlatPhrase (" " ++ c) := by
  cases p with
  | legacy =>
    intro c hc
    exact absurd hc List.not_mem_nil
  | modern =>
    simp only [Paging.trailing, List.mem_append, Option.mem_toList, Option.map_eq_some_iff]
    rintro c (⟨n, hn, rfl⟩ | ⟨n, hn, rfl⟩)
    · exact FlatPhrase.number (l := " offset ") (r := " rows") (.of_mem (by simp [phrases]))
        (.of_mem (by simp [phrases])) (by decide) (by decide) (ho n hn)
    · exact FlatPhrase.number (l := " fetch first ") (r := " rows only") (.of_mem (by simp [phrases]))
        (.of_mem (by simp [phrases])) (by decide) (by decide) (hl n hn)

/-! ### Conditions -/

theorem compareNull_formed {lhs : Fragment} (h : Formed R lhs) (op : Operator) :
    Formed R (compareNull lhs op) := by
  have hbound : Formed R (lhs ++ op.spacedSymbol ++ [.bound .null]) :=
    h.glue (glue_operator op) (.bound rfl)
  have hword : Formed R (lhs ++ op.spacedSymbol ++ word "null") :=
    h.glue (glue_operator op) (.flat (.of_mem (by simp [phrases])))
  unfold compareNull
  split
  · exact h.follow (.flat (.of_mem (by simp [phrases]))) (by rw [chars_word]; decide)
  · exact h.follow (.flat (.of_mem (by simp [phrases]))) (by rw [chars_word]; decide)
  · exact h.follow (.flat (.of_mem (by simp [phrases]))) (by rw [chars_word]; decide)
  · split
    · exact hword
    · exact hbound

/-- A comparison is formed when its sides are. -/
theorem comparison_formed {lhs f : Fragment} {op : Operator} {v : Value} {operand : Except Error Fragment}
    {bounds : Option (Except Error (Fragment × Fragment))} (hlhs : Formed R lhs)
    (hoperand : ∀ g, operand = .ok g → Formed R g)
    (hbounds : ∀ low high, bounds = some (.ok (low, high)) → Formed R low ∧ Formed R high)
    (h : comparison lhs op v operand bounds = .ok f) : Formed R f := by
  rcases comparison_eq_ok.1 h with ⟨-, low, high, hb, rfl⟩ | ⟨-, -, rfl⟩ | ⟨-, -, -, rhs, hr, rfl⟩
  · obtain ⟨hlow, hhigh⟩ := hbounds low high hb
    exact (hlhs.glue (glue_operator op) hlow).glue (.of_mem (by simp [glues])) hhigh
  · exact compareNull_formed hlhs op
  · exact hlhs.glue (glue_operator op) (hoperand rhs hr)

theorem ofColumn_formed (part : DatePart) (c : String) : Formed R (part.ofColumn c) := by
  unfold DatePart.ofColumn
  split
  · exact .enclosed (encloses_cast part) (.name c)
  · exact .enclosed (encloses_extract part) (.name c)

theorem notWord_formed (negated : Bool) {f : Fragment} (h : Formed R f) : Formed R (notWord negated ++ f) := by
  cases negated
  · exact h
  · exact .lead (.of_mem (by simp [phrases])) (by decide) h

theorem negation_formed {f : Fragment} (h : Formed R f) : Formed R (negation f) := by
  unfold negation
  split
  · exact h
  · exact .lead (.of_mem (by simp [phrases])) (by decide) h.parenthesized

theorem negatedComparison_formed (around : Bool) {f : Fragment} (h : Formed R f) :
    Formed R (negatedComparison around f) := by
  unfold negatedComparison
  split
  · exact .lead (.of_mem (by simp [phrases])) (by decide) h.parenthesized
  · exact h

theorem membership_formed (c : String) (negated : Bool) {items : List Fragment}
    (h : ∀ g ∈ items, Formed R g) : Formed R (membership c negated items) := by
  unfold membership
  split
  · cases negated <;> exact .flat (.of_mem (by simp [phrases]))
  · have hin : Formed R (word "in " ++ parenthesized (joined ", " items)) :=
      .lead (.of_mem (by simp [phrases])) (by decide) (Formed.joined (.of_mem (by simp [glues])) h).parenthesized
    rw [List.append_assoc, List.append_assoc]
    exact (Formed.name c).glue (.of_mem (by simp [glues])) (notWord_formed negated hin)

theorem procedureCall_formed (n : String) {args : List Fragment} (h : ∀ g ∈ args, Formed R g) :
    Formed R (procedureCall n args) :=
  (Formed.name n).glue (.of_mem (by simp [glues])) (Formed.joined (.of_mem (by simp [glues])) h).parenthesized

theorem labelled_formed {f : Fragment} (h : Formed R f) (label : Option String) :
    Formed R (labelled f label) := by
  cases label with
  | none => exact h
  | some label => exact h.glue (.of_mem (by simp [glues])) (.part label)

theorem join_formed (kind : JoinKind) {table on : Fragment} (ht : Formed R table) (ho : Formed R on) :
    Formed R (kind.fragment table on) := by
  unfold JoinKind.fragment
  split
  · obtain ⟨hflat, he⟩ := flat_lateral kind
    exact (Formed.lead hflat he ht).follow (.flat (.of_mem (by simp [phrases]))) (by rw [chars_word]; decide)
  · split
    · exact .lead (.of_mem (by simp [phrases])) (by decide) ht
    · obtain ⟨hflat, he⟩ := flat_join kind
      exact (Formed.lead hflat he ht).glue (.of_mem (by simp [glues])) ho

/-! ### The layout of a select -/

section Layout

variable {p : Paging} {q : Query}

theorem Query.head_formed (hq : q.AllVerbatims R) (hl : ∀ n ∈ q.limit, 0 ≤ n) (ho : ∀ n ∈ q.offset, 0 ≤ n)
    (aggregate : Option Aggregate) : Formed R (q.head p aggregate) := by
  have hselection : Formed R (q.selection aggregate) := by
    cases aggregate with
    | some a => exact a.fragment_formed q.distinct
    | none =>
      have hcolumns : Formed R (Column.list q.columns) := Column.list_formed hq.columns
      unfold Query.selection
      dsimp only
      split
      · exact .lead (.of_mem (by simp [phrases])) (by decide) hcolumns
      · exact hcolumns
  obtain ⟨hpaging, hs⟩ := spaced_formed (R := R) (flat_leading (p := p) hl ho)
  have hselect : Formed R (word "select") := .flat (.of_mem (by simp [phrases]))
  exact (hselect.follow hpaging hs).glue (.of_mem (by simp [glues])) hselection

theorem Query.grouping_formed (hq : q.AllVerbatims R) :
    Formed R q.grouping ∧ startsApart q.grouping.chars = true := by
  unfold Query.grouping
  split
  · exact ⟨.nil, rfl⟩
  · refine ⟨.lead (.of_mem (by simp [phrases])) (by decide) (Column.list_formed hq.groups), ?_⟩
    rw [chars_word_append]
    rfl

theorem Query.tail_formed (hq : q.AllVerbatims R) (hl : ∀ n ∈ q.limit, 0 ≤ n) (ho : ∀ n ∈ q.offset, 0 ≤ n) :
    Formed R (q.tail p) ∧ startsApart (q.tail p).chars = true := by
  have horders : Formed R (if q.orders.isEmpty then [] else word " order by " ++ OrderBy.list q.orders) ∧
      startsApart
        (chars (if q.orders.isEmpty then [] else word " order by " ++ OrderBy.list q.orders)) = true := by
    split
    · exact ⟨.nil, rfl⟩
    · refine ⟨.lead (.of_mem (by simp [phrases])) (by decide) (OrderBy.list_formed hq.orders), ?_⟩
      rw [chars_word_append]
      rfl
  obtain ⟨hpaging, hps⟩ := spaced_formed (R := R) (flat_trailing (p := p) hl ho)
  have hpage := horders.1.follow hpaging hps
  have hstart := startsApart_append horders.2 hps
  rw [← chars_append] at hstart
  unfold Query.tail
  cases hlock : q.lock with
  | none =>
    dsimp only
    rw [List.append_nil]
    exact ⟨hpage, hstart⟩
  | some l =>
    refine ⟨hpage.follow (Lock.fragment_formed (hq.lock l hlock)) (startsApart_lock l), ?_⟩
    rw [chars_append]
    exact startsApart_append hstart (startsApart_lock l)

/-- A select is formed when its parts are.  Joins and branches have to bring the space before them. -/
theorem Query.assembled_formed {table joins filter having branches : Fragment} (hq : q.AllVerbatims R)
    (hl : ∀ n ∈ q.limit, 0 ≤ n) (ho : ∀ n ∈ q.offset, 0 ≤ n) (ht : Formed R table)
    (hj : Formed R joins ∧ startsApart joins.chars = true) (hf : Formed R filter) (hh : Formed R having)
    (hb : Formed R branches ∧ startsApart branches.chars = true) :
    Formed R (q.assembled p table joins filter having branches) := by
  have hlayout : ∀ aggregate, Formed R (q.layout p aggregate table joins filter having branches) := by
    intro aggregate
    obtain ⟨hgroup, hgs⟩ := Query.grouping_formed hq
    obtain ⟨htail, hts⟩ := Query.tail_formed (p := p) hq hl ho
    have hhead := Query.head_formed (p := p) hq hl ho aggregate
    have hfrom := hhead.glue (w := " from ") (.of_mem (by simp [glues])) ht
    have hwhere := (hfrom.follow hj.1 hj.2).follow (hf.clause flat_where) (startsApart_clause _ _)
    have hhaving := (hwhere.follow hgroup hgs).follow (hh.clause flat_having) (startsApart_clause _ _)
    exact (hhaving.follow hb.1 hb.2).follow htail hts
  unfold Query.assembled
  split
  · exact hlayout none
  · next a _ =>
    split
    · have hselect : Formed R (word "select " ++ a.fragment q.distinct) :=
        .lead (.of_mem (by simp [phrases])) (by decide) (a.fragment_formed q.distinct)
      have hinner := hselect.glue (w := " from ") (.of_mem (by simp [glues])) (hlayout none).parenthesized
      exact hinner.glue (.of_mem (by simp [glues])) (.part _)
    · exact hlayout (some a)

end Layout

end SqlQuery
