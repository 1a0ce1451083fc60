import SqlQuery.Proofs.Form.Basic
import SqlQuery.Proofs.Reading.Union

/-!
# Unions as they are written

A union is written as the chain of its individual selects, each with the text that it has as a statement of its
own, and then what closes the whole.

* `Query.Chained` — a text that is such a chain, with the operators in it;
* `Query.chained_of_select` — every compiled query is the chain of its selects, by induction on its branches;
* `Query.Chained.unique` — a text is the chain of given selects in one way only;
* `Query.compile_union_reading` — **the text of a query means what the query means exactly when
  `Query.keepsUnions` holds of it**.
-/

namespace SqlQuery

open SqlQuery.Fragment SqlQuery.Text

variable {p : Paging}

/-! ### Chains -/

/-- The text of selects with an operator before each. -/
inductive Links (p : Paging) : List Query → List SetOp → List Char → Prop
  | nil : Links p [] [] []
  | cons {q : Query} {qs : List Query} {op : SetOp} {ops : List SetOp} {f : Fragment} {s : List Char} :
      q.select p = .ok f → Links p qs ops s →
      Links p (q :: qs) (op :: ops) ((" " ++ op.keyword ++ " ").toList ++ f.chars ++ s)

/-- What stands after the last select of a union: the ordering and the paging of the whole. -/
def Query.closing (p : Paging) (q : Query) : Fragment :=
  if q.isSingle then [] else q.tail p

/-- The text is that of the individual selects of a query with the operators between them, and is closed. -/
def Query.Chained (p : Paging) (q : Query) (ops : List SetOp) (s : List Char) : Prop :=
  ∃ first rest f t, q.selects = first :: rest ∧ first.select p = .ok f ∧ Links p rest ops t ∧
    s = f.chars ++ t ++ (q.closing p).chars

theorem Links.append {qs qs' : List Query} {ops ops' : List SetOp} {s s' : List Char} (h : Links p qs ops s)
    (h' : Links p qs' ops' s') : Links p (qs ++ qs') (ops ++ ops') (s ++ s') := by
  induction h with
  | nil => exact h'
  | cons hf _ ih =>
    rw [List.append_assoc]
    exact .cons hf ih

/-! ### The parts of a compiled union -/

/-- A compiled union is its first select, its branches, and what closes it. -/
theorem Query.select_parts {q : Query} {f : Fragment} (h : q.select p = .ok f) (hs : q.isSingle = false) :
    ∃ g b, q.alone.select p = .ok g ∧ Branch.fragments p q.branches = .ok b ∧ g ++ b ++ q.tail p = f := by
  obtain ⟨hd, t, ht, j, hj, w, hw, g, hg, b, hb, rfl⟩ := Query.select_eq_ok.1 h
  obtain ⟨ha, htable, -, -, -, hunion, hset, hret⟩ := Query.selectDefect?_eq_none.1 hd
  obtain ⟨hbranches, hagg⟩ : q.branches.isEmpty = false ∧ q.aggregate = none := by
    rw [Query.isSingle, Bool.or_eq_false_iff] at hs
    exact ⟨hs.1, Option.isNone_iff_eq_none.1 (by simpa using hs.2)⟩
  -- legacy paging stands in the first select, but not in that of a union
  have hleading : p.leading q.limit q.offset = [] := by
    cases p with
    | modern => rfl
    | legacy =>
      obtain ⟨hl, ho⟩ := Query.isPaged_eq_false.1 ((hunion hbranches).2 rfl)
      rw [hl, ho, Paging.leading_none]
  have halone : q.alone.selectDefect? p = none := by
    rw [Query.selectDefect?_eq_none]
    exact ⟨ha, htable, nofun, nofun, fun h => by simp [Query.alone, hagg] at h, nofun, hset, hret⟩
  refine ⟨_, b, Query.select_eq_ok.2 ⟨halone, t, ht, j, hj, w, hw, g, hg, [], rfl, rfl⟩, hb, ?_⟩
  have hhead : q.alone.head p none = q.head p none := by
    have hnone : p.leading q.alone.limit q.alone.offset = [] := p.leading_none
    rw [Query.head, Query.head, hleading, hnone]
    rfl
  have htail : q.alone.tail p = [] := by
    simp [Query.tail, Query.alone, spaced]
  have hgroup : q.alone.grouping = q.grouping := rfl
  have hagg' : q.alone.aggregate = none := hagg
  rw [Query.assembled, Query.assembled, hagg, hagg']
  simp only [Query.layout, hhead, htail, hgroup, List.append_nil, List.append_assoc]

theorem Query.closing_of_branch {q : Query} (h : q.branchDefect? = none) : q.closing p = [] := by
  obtain ⟨horders, hpaged, hlock⟩ := Query.branchDefect?_eq_none.1 h
  obtain ⟨hl, ho⟩ := Query.isPaged_eq_false.1 hpaged
  rw [Option.isSome_eq_false_iff, Option.isNone_iff_eq_none] at hlock
  rw [Query.closing, Query.tail, horders, hl, ho, hlock, Paging.trailing_none]
  simp [spaced]

mutual

/-- A compiled query is the chain of its selects. -/
theorem Query.chained_of_select : ∀ (q : Query) {f : Fragment}, q.select p = .ok f →
    q.Chained p q.setOps f.chars
  | q@⟨_, _, _, _, _, _, _, _, _, _, _, _, branches, _, _, _⟩, f, h => by
    cases hs : q.isSingle with
    | true =>
      rw [‹q = _›] at hs
      refine ⟨_, [], f, [], ?_, h, ?_, ?_⟩
      · rw [Query.selects_eq, hs]
        rfl
      · rw [Query.setOps_eq, hs]
        exact .nil
      · rw [Query.closing, hs]
        simp
    | false =>
      rw [‹q = _›] at hs
      obtain ⟨g, b, hg, hb, rfl⟩ := Query.select_parts h hs
      refine ⟨_, Branch.selects branches, g, b.chars, ?_, hg, ?_, ?_⟩
      · rw [Query.selects_eq, hs]
        rfl
      · rw [Query.setOps_eq, hs]
        exact Branch.links_of_fragments branches hb
      · rw [Query.closing, hs, chars_append, chars_append]
        rfl

theorem Branch.links_of_fragments : ∀ (bs : List Branch) {f : Fragment}, Branch.fragments p bs = .ok f →
    Links p (Branch.selects bs) (Branch.setOps bs) f.chars
  | [], f, h => by
    cases h
    exact .nil
  | ⟨op, q⟩ :: bs, f, h => by
    obtain ⟨hd, g, gs, hg, hgs, rfl⟩ := Branch.fragments_cons_eq_ok.1 h
    obtain ⟨first, rest, f, t, hselects, hf, hlinks, hg⟩ := Query.chained_of_select q hg
    rw [Query.closing_of_branch hd, chars_nil, List.append_nil] at hg
    rw [Branch.selects, Branch.setOps, hselects, chars_append, chars_append, chars_word, hg, ← List.append_assoc]
    exact (Links.cons hf hlinks).append (Branch.links_of_fragments bs hgs)

end

/-! ### One way to read a chain -/

theorem Query.select_prefix {q : Query} {f : Fragment} (h : q.select p = .ok f) : "select ".toList <+: f.chars := by
  obtain ⟨-, t, -, j, -, w, -, g, -, b, -, rfl⟩ := Query.select_eq_ok.1 h
  have hword : "select ".toList = "select".toList ++ [' '] := by decide
  have hlayout : ∀ a, "select ".toList <+: (q.layout p a t j w g b).chars := by
    intro a
    -- with or without paging, a space follows the word
    rw [hword]
    simp only [Query.layout, Query.head, List.append_assoc, chars_word_append]
    refine (List.prefix_append_right_inj _).2 ?_
    cases p.leading q.limit q.offset with
    | nil =>
      simp only [spaced, List.flatMap_nil, List.nil_append, chars_word_append]
      exact List.prefix_append [' '] _
    | cons c cs =>
      simp only [spaced, List.flatMap_cons, List.append_assoc, chars_word_append, String.toList_append]
      exact List.prefix_append [' '] _
  unfold Query.assembled
  split
  · exact hlayout none
  · next a _ =>
    split
    · simp only [Query.wrapped, List.append_assoc, chars_word_append]
      exact List.prefix_append _ _
    · exact hlayout (some a)

/-- The operators in a text of given selects are read off the text. -/
theorem Links.unique {qs : List Query} {ops ops' : List SetOp} {s : List Char} (h : Links p qs ops s)
    (h' : Links p qs ops' s) : ops = ops' := by
  induction h generalizing ops' with
  | nil =>
    cases h'
    rfl
  | @cons q qs op ops f s hf _ ih =>
    generalize hst : (" " ++ op.keyword ++ " ").toList ++ f.chars ++ s = t at h'
    cases h' with
    | @cons _ _ op' ops' f' s' hf' hs' =>
      obtain rfl : f = f' := Except.ok.inj (hf.symm.trans hf')
      obtain ⟨u, hu⟩ := Query.select_prefix hf
      have hop : op = op' := by
        rw [← hu] at hst
        cases op with
        | union =>
          cases op' with
          | union => rfl
          | unionAll => simp [SetOp.keyword] at hst
        | unionAll =>
          cases op' with
          | union => simp [SetOp.keyword] at hst
          | unionAll => rfl
      subst hop
      have hs : s = s' := by simpa using hst
      rw [ih (hs ▸ hs')]

theorem Query.Chained.unique {q : Query} {ops ops' : List SetOp} {s : List Char} (h : q.Chained p ops s)
    (h' : q.Chained p ops' s) : ops = ops' := by
  obtain ⟨first, rest, f, t, hselects, hf, hlinks, rfl⟩ := h
  obtain ⟨first', rest', f', t', hselects', hf', hlinks', hs⟩ := h'
  obtain ⟨rfl, rfl⟩ := List.cons.inj (hselects.symm.trans hselects')
  obtain rfl : f = f' := Except.ok.inj (hf.symm.trans hf')
  obtain rfl : t = t' := by simpa using hs
  exact hlinks.unique hlinks'

/-! ### The meaning of a union -/

/-- **The meaning of a compiled union.**  The text of a select is the chain of its individual selects, with the
operators in one way; and read from the left, the chain has the rows of the query for all rows of the individual
selects exactly when the query keeps its unions. -/
theorem Query.compile_union_reading {q : Query} {s : Statement} (ha : q.action = .select)
    (h : q.compile p = .ok s) (Row : Type) [DecidableEq Row] [Inhabited Row] :
    (∃ ops, q.Chained p ops s.sql.toList) ∧ ∀ ops, q.Chained p ops s.sql.toList →
      ((∀ ν : Nat → Multiset Row, readRows ν 1 (ν 0) ops = q.rows ν 0) ↔ q.keepsUnions = true) := by
  obtain ⟨f, hf, rfl⟩ := Query.compile_eq_ok.1 h
  rw [Query.fragment, ha] at hf
  have hchain : q.Chained p q.setOps f.chars := Query.chained_of_select q hf
  refine ⟨⟨_, hchain⟩, fun ops hops => ?_⟩
  obtain rfl := hchain.unique hops
  exact q.readRows_eq_rows_iff

/-- Unions inside of branches that do no harm: `union` stands last in the one that `union` adds. -/
def keptUnion : Query where
  table := some (.named "a")
  branches := [⟨.unionAll, { table := some (.named "b"), branches := [⟨.unionAll, { table := some (.named "c") }⟩] }⟩,
    ⟨.union, { table := some (.named "d"), branches := [⟨.union, { table := some (.named "e") }⟩] }⟩,
    ⟨.unionAll, { table := some (.named "f") }⟩]
  orders := [.column "id" .asc]

set_option maxRecDepth 4000 in
theorem compile_union_reading_kept : keptUnion.action = .select ∧ ∃ s, keptUnion.compile .legacy = .ok s ∧
    s.sql = "select * from \"a\" union all select * from \"b\" union all select * from \"c\" union " ++
      "select * from \"d\" union select * from \"e\" union all select * from \"f\" order by \"id\" asc" ∧
    keptUnion.Chained .legacy [.unionAll, .unionAll, .union, .union, .unionAll] s.sql.toList ∧
    ∀ ν : Nat → Multiset Nat, readRows ν 1 (ν 0) [.unionAll, .unionAll, .union, .union, .unionAll] =
      keptUnion.rows ν 0 := by
  obtain ⟨f, hf⟩ : ∃ f, keptUnion.select .legacy = .ok f := ⟨_, rfl⟩
  have hs : keptUnion.compile .legacy = .ok f.statement := Query.compile_eq_ok.2 ⟨f, hf, rfl⟩
  have hchain := Query.chained_of_select keptUnion hf
  refine ⟨rfl, _, hs, ?_, hchain, ?_⟩
  · cases hf
    rfl
  · exact ((Query.compile_union_reading rfl hs Nat).2 _ hchain).2 rfl

/-- A branch that is added by `union all` and has a `union` of its own. -/
def nestedUnion : Query where
  table := some (.named "a")
  branches := [⟨.unionAll, { table := some (.named "b"), branches := [⟨.union, { table := some (.named "c") }⟩] }⟩]

/-- Two equal rows of the first select are both rows of the query.  In its text, the `union` of the branch has the
first select to its left as well, and keeps one of them. -/
theorem nestedUnion_loses_rows : ∃ s, nestedUnion.compile .modern = .ok s ∧
    s.sql = "select * from \"a\" union all select * from \"b\" union select * from \"c\"" ∧
    nestedUnion.Chained .modern [.unionAll, .union] s.sql.toList ∧
    ∃ ν : Nat → Multiset Nat, readRows ν 1 (ν 0) [.unionAll, .union] = {7} ∧ nestedUnion.rows ν 0 = {7, 7} := by
  obtain ⟨f, hf⟩ : ∃ f, nestedUnion.select .modern = .ok f := ⟨_, rfl⟩
  have hs : nestedUnion.compile .modern = .ok f.statement := Query.compile_eq_ok.2 ⟨f, hf, rfl⟩
  refine ⟨_, hs, ?_, Query.chained_of_select nestedUnion hf, fun i => if i = 0 then {7, 7} else 0, ?_, ?_⟩
  · cases hf
    rfl
  · decide
  · decide

end SqlQuery
