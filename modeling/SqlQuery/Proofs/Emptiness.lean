import SqlQuery.Proofs.Acceptance.Statement
import SqlQuery.Proofs.Reading.Filter
import SqlQuery.Proofs.Subquery.Statement

/-!
# Two ways to ask for nothing

Whether a tree of conditions asks for anything is decided in two ways: by its shape, in groups and where an
aggregate is wrapped, and by its compiled text, everywhere else.  SQL of the caller's own that is empty has a shape
and no text, and it is the only thing that tells the two apart.

* `Filter.fragment_of_isEmpty`, `Filter.silent_iff_isEmpty` — a tree of empty shape has no text, and a worded tree has
  text otherwise;
* `Filter.operands_ne_empty_iff` — when all operands of a compiled group have text;
* `Query.emitsHaving_iff` — when a select has a condition on groups in its statement;
* `emptiness_agrees` — **the text of every tree, and where the shape tells it**.
-/

namespace SqlQuery

open SqlQuery.Fragment

variable {p : Paging}

/-! ### Shape and text -/

namespace Filter

/-- A tree of empty shape compiles, to nothing at all. -/
theorem fragment_of_isEmpty (c : Filter) (h : c.isEmpty = true) : c.fragment p = .ok [] := by
  cases c with
  | and cs | or cs =>
    rw [Filter.fragment, group_of_allEmpty h]
    rfl
  | not c =>
    rw [Filter.fragment, fragment_of_isEmpty c h]
    rfl
  | predicate | raw => cases h

theorem accepted_of_mem {cs : List Filter} (h : AllAccepted p cs) : ∀ c ∈ cs, c.Accepted p := by
  induction cs with
  | nil => exact fun _ hc => nomatch hc
  | cons c cs ih => exact List.forall_mem_cons.2 ⟨h.1, ih h.2⟩

/-- What stands inside of an accepted tree is accepted. -/
theorem Within.accepted {c d : Filter} (h : Within d c) (hc : c.Accepted p) : d.Accepted p := by
  induction h with
  | refl => exact hc
  | and hmem _ ih => exact ih (accepted_of_mem hc _ hmem)
  | or hmem _ ih => exact ih (accepted_of_mem hc _ hmem)
  | not _ ih => exact ih hc

/-- The operands of a group have text exactly when those of its trees that have none are of empty shape: only these
are left out. -/
theorem operands_ne_empty_iff {cs : List Filter} {fs : List Fragment} (h : group p cs = .ok fs) :
    (∀ f ∈ fs, text f ≠ "") ↔ ∀ c ∈ cs, c.Silent → c.isEmpty = true := by
  induction cs generalizing fs with
  | nil =>
    cases h
    simp
  | cons c cs ih =>
    rw [List.forall_mem_cons]
    cases he : c.isEmpty with
    | true =>
      rw [group_cons_of_isEmpty he] at h
      rw [ih h, and_iff_right fun _ => rfl]
    | false =>
      obtain ⟨g, gs, hg, hgs, rfl⟩ := (group_cons_eq_ok he).1 h
      rw [List.forall_mem_cons, ih hgs, ne_eq, text_eq_empty_iff, isBlank_grouped (isBlank_iff_silent c hg)]
      simp

/-- **The operands of a group.**  No connective of a worded tree stands next to an operand without text. -/
theorem operands_of_worded {c : Filter} {cs : List Filter} (hw : c.Worded) (hc : c.Accepted p)
    (h : Within (and cs) c ∨ Within (or cs) c) : ∃ fs, group p cs = .ok fs ∧ ∀ f ∈ fs, text f ≠ "" := by
  have haccepted : AllAccepted p cs := h.elim (·.accepted hc) (·.accepted hc)
  have hwords : ∀ d ∈ cs, d.Worded := h.elim (worded_and.1 <| hw.within ·) (worded_or.1 <| hw.within ·)
  obtain ⟨fs, hfs⟩ := (group_ok_iff cs).2 haccepted
  exact ⟨fs, hfs, (operands_ne_empty_iff hfs).2 fun d hd => (silent_iff_isEmpty (hwords d hd)).1⟩

end Filter

/-! ### The condition on groups -/

/-- The statement of a select without an aggregate has the keyword `having` and a condition after the grouping. -/
def Query.EmitsHaving (p : Paging) (q : Query) (s : Statement) : Prop :=
  ∃ table joins filter having branches, TableRef.optional p q.table = .ok table ∧
    Join.fragments p q.joins = .ok joins ∧ Filter.optional p q.filter = .ok filter ∧
    Filter.optional p q.having = .ok having ∧ Branch.fragments p q.branches = .ok branches ∧ text having ≠ "" ∧
    s.sql = text (q.head p none ++ word " from " ++ table ++ joins ++ clause "where" filter ++ q.grouping) ++
      " having " ++ text having ++ text (branches ++ q.tail p)

theorem Query.emitsHaving_iff {q : Query} {s : Statement} (hq : q.action = .select) (ha : q.aggregate = none)
    (h : q.compile p = .ok s) : q.EmitsHaving p s ↔ ¬ Filter.OptSilent q.having := by
  obtain ⟨f, hf, rfl⟩ := Query.compile_eq_ok.1 h
  rw [Query.fragment, hq] at hf
  obtain ⟨-, table, ht, joins, hj, filter, hw, having, hh, branches, hb, rfl⟩ := Query.select_eq_ok.1 hf
  have htext : text having ≠ "" ↔ ¬ Filter.OptSilent q.having := by
    rw [ne_eq, text_eq_empty_iff, Filter.optional_isBlank_iff hh]
  rw [← htext]
  constructor
  · rintro ⟨-, -, -, having', -, -, -, -, hh', -, hne, -⟩
    obtain rfl : having = having' := Except.ok.inj (hh.symm.trans hh')
    exact hne
  · intro hne
    refine ⟨table, joins, filter, having, branches, ht, hj, hw, hh, hb, hne, ?_⟩
    have hclause : clause "having" having = word " having " ++ having := by
      rw [clause, if_neg (text_eq_empty_iff.not.1 hne)]
      rfl
    have hword : text (word " having ") = " having " := text_word _
    rw [Query.assembled, ha]
    simp only [Fragment.statement, Query.layout, hclause, text_append, hword, String.append_assoc]

/-- **Two ways to ask for nothing.**  The text of a compiled tree is empty exactly when the tree is silent, whatever
has been collected before; and a tree of empty shape adds neither text nor values.  In a worded tree the text is
empty only if the shape is, and no connective in it stands next to an operand without text.  The statement of a
select has a condition on groups exactly when the one of the select is not silent; where that is worded, an aggregate
is wrapped because of it in the same cases. -/
theorem emptiness_agrees (p : Paging) :
    (∀ (c : Filter) (vs : List Value) (s : Statement), collected vs (c.fragment p) = .ok s →
      (s.sql = "" ↔ c.Silent) ∧ (c.isEmpty = true → s.sql = "" ∧ s.params = vs) ∧
      (c.Worded → (s.sql = "" ↔ c.isEmpty = true) ∧ ∀ cs, Filter.Within (.and cs) c ∨ Filter.Within (.or cs) c →
        ∃ fs, Filter.group p cs = .ok fs ∧ ∀ f ∈ fs, text f ≠ "")) ∧
    ∀ (q : Query) (s : Statement), q.action = .select → { q with aggregate := none }.compile p = .ok s →
      ({ q with aggregate := none }.EmitsHaving p s ↔ ¬ Filter.OptSilent q.having) ∧
      ((∀ c ∈ q.having, c.Worded) →
        ({ q with branches := [] }.wrapsAggregate = true ↔ { q with aggregate := none }.EmitsHaving p s)) := by
  constructor
  · intro c vs s hs
    obtain ⟨f, hf, hcollect⟩ := bind_eq_ok.1 hs
    obtain rfl := Except.ok.inj hcollect
    have hsilent : text f = "" ↔ c.Silent := text_eq_empty_iff.trans (Filter.isBlank_iff_silent c hf)
    rw [collect_eq, String.empty_append]
    refine ⟨hsilent, fun he => ?_, fun hw => ⟨hsilent.trans (Filter.silent_iff_isEmpty hw), fun cs hcs => ?_⟩⟩
    · obtain rfl : f = [] := Except.ok.inj (hf.symm.trans (Filter.fragment_of_isEmpty c he))
      exact ⟨rfl, List.append_nil vs⟩
    · exact Filter.operands_of_worded hw ((Filter.fragment_ok_iff c).1 ⟨f, hf⟩) hcs
  · intro q s hq hs
    have hemits := Query.emitsHaving_iff (q := { q with aggregate := none }) hq rfl hs
    refine ⟨hemits, fun hw => ?_⟩
    rw [hemits, Query.wrapsAggregate_iff]
    cases hh : q.having with
    | none => simp [Filter.OptSilent]
    | some c => simp [Filter.OptSilent, Filter.silent_iff_isEmpty (hw c hh)]

set_option maxRecDepth 4000

/-- Groups with empty trees in them, and SQL of the caller's own that has text. -/
def wordedGroups : Filter :=
  .and [.or [.raw "a > ?" [.int 1], .and []], .not (.or []),
    .not (.or [.raw " " [], .predicate (.isNull "b" false)])]

/-- A select over groups. -/
def wordedGrouping : Query where
  table := some (.named "t")
  groups := [.named "a"]
  having := some wordedGroups
  aggregate := some ⟨.max, "a"⟩

theorem emptiness_agrees_wordedGroups : wordedGroups.Worded ∧
    collected [.int 0] (wordedGroups.fragment .legacy) =
      .ok ⟨"a > ? and not (  or \"b\" is null)", [.int 0, .int 1]⟩ ∧
    wordedGroups.isEmpty = false ∧
    (∃ fs, Filter.group .legacy [.raw " " [], .predicate (.isNull "b" false)] = .ok fs ∧ ∀ f ∈ fs, text f ≠ "") ∧
    ∃ s, { wordedGrouping with aggregate := none }.compile .legacy = .ok s ∧
      s.sql = "select * from \"t\" group by \"a\" having a > ? and not (  or \"b\" is null)" ∧
      { wordedGrouping with aggregate := none }.EmitsHaving .legacy s := by
  have hw : wordedGroups.Worded := by
    simp [wordedGroups, Filter.worded_and, Filter.worded_or, Filter.worded_not, Filter.worded_raw,
      Filter.worded_predicate]
  have hs : collected [.int 0] (wordedGroups.fragment .legacy) =
      .ok ⟨"a > ? and not (  or \"b\" is null)", [.int 0, .int 1]⟩ := by rfl
  have hq : { wordedGrouping with aggregate := none }.compile .legacy =
      .ok ⟨"select * from \"t\" group by \"a\" having a > ? and not (  or \"b\" is null)", [.int 1]⟩ := by rfl
  have hplace : Filter.Within (.or [.raw " " [], .predicate (.isNull "b" false)]) wordedGroups :=
    .and (by simp) (.not .refl)
  obtain ⟨-, -, hworded⟩ := (emptiness_agrees .legacy).1 wordedGroups [.int 0] _ hs
  obtain ⟨hiff, hoperands⟩ := hworded hw
  obtain ⟨-, hhaving⟩ := (emptiness_agrees .legacy).2 wordedGrouping _ rfl hq
  refine ⟨hw, hs, ?_, hoperands _ (.inr hplace), _, hq, rfl, (hhaving ?_).1 rfl⟩
  · rw [← Bool.not_eq_true, ← hiff]
    decide
  · rintro c ⟨⟩
    exact hw

/-- A condition without text, beside another one. -/
def wordlessCondition : Query where
  table := some (.named "t")
  filter := some (.and [.raw "" [], .predicate (.isNull "a" false)])

/-- An aggregate over groups with a condition without text. -/
def wordlessHaving : Query where
  table := some (.named "t")
  having := some (.raw "" [])
  aggregate := some ⟨.max, "a"⟩

/-- SQL of the caller's own that is empty is no empty tree, and it has no text: a connective stands next to nothing,
and an aggregate is wrapped because of a condition on groups that the statement without it does not have. -/
theorem wordlessRaw_disagrees :
    (collected [] ((Filter.raw "" []).fragment .modern) = .ok ⟨"", []⟩ ∧ (Filter.raw "" []).isEmpty = false) ∧
    wordlessCondition.compile .modern = .ok ⟨"select * from \"t\" where  and \"a\" is null", []⟩ ∧
    wordlessHaving.wrapsAggregate = true ∧
    wordlessHaving.compile .modern =
      .ok ⟨"select max(\"a\") as \"aggregate\" from (select * from \"t\") as \"temp_table\"", []⟩ ∧
    { wordlessHaving with aggregate := none }.compile .modern = .ok ⟨"select * from \"t\"", []⟩ := by
  refine ⟨⟨rfl, rfl⟩, ?_, rfl, ?_, ?_⟩ <;> rfl

end SqlQuery
