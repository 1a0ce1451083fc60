import Mathlib.Data.List.Induction
import Mathlib.Data.Multiset.Dedup
import SqlQuery.Compile.Clause

/-!
# The rows of a union

A query with branches says how the rows of its selects are put together; the text that it is written as is one
chain of selects without parentheses, which SQL reads from the left.  Both give a bag of rows for every choice of
rows for the individual selects, which are numbered from the left in both.

* `Query.rows` — the rows of a query: each branch is evaluated whole and then put to what stands before it;
* `readRows` — the rows of a chain of selects, from the left;
* `Query.keepsUnions` — a check of the operators of a query;
* `Query.readRows_eq_rows_iff` — **the check holds exactly when the chain of a query has its rows**, whatever the
  rows of the individual selects are.
-/

namespace SqlQuery

/-! ### The selects of a query -/

/-- A query that is written as one select: it has no branches, or an aggregate is taken over all of it. -/
def Query.isSingle (q : Query) : Bool := q.branches.isEmpty || q.aggregate.isSome

/-- The first select of a union, without the branches and without what closes the whole. -/
def Query.alone (q : Query) : Query :=
  { q with branches := [], orders := [], limit := none, offset := none, lock := none }

mutual

/-- The individual selects of a query, from the left. -/
def Query.selects : Query → List Query
  | q@⟨_, _, _, _, _, _, _, _, _, _, _, _, branches, _, _, _⟩ =>
    if q.isSingle then [q] else q.alone :: Branch.selects branches

def Branch.selects : List Branch → List Query
  | [] => []
  | ⟨_, q⟩ :: bs => q.selects ++ Branch.selects bs

end

mutual

/-- The operators between the individual selects of a query, from the left. -/
def Query.setOps : Query → List SetOp
  | q@⟨_, _, _, _, _, _, _, _, _, _, _, _, branches, _, _, _⟩ =>
    if q.isSingle then [] else Branch.setOps branches

/-- The operators before the individual selects of branches. -/
def Branch.setOps : List Branch → List SetOp
  | [] => []
  | ⟨op, q⟩ :: bs => op :: q.setOps ++ Branch.setOps bs

end

theorem Query.selects_eq (q : Query) :
    q.selects = if q.isSingle then [q] else q.alone :: Branch.selects q.branches := by
  cases q
  rw [Query.selects]

theorem Query.setOps_eq (q : Query) : q.setOps = if q.isSingle then [] else Branch.setOps q.branches := by
  cases q
  rw [Query.setOps]

theorem Branch.setOps_append (bs cs : List Branch) :
    Branch.setOps (bs ++ cs) = Branch.setOps bs ++ Branch.setOps cs := by
  induction bs with
  | nil => rfl
  | cons b bs ih =>
    obtain ⟨op, q⟩ := b
    rw [List.cons_append, Branch.setOps, Branch.setOps, ih, List.append_assoc]

mutual

/-- Every select but the first has an operator before it. -/
theorem Query.length_selects : ∀ q : Query, q.selects.length = q.setOps.length + 1
  | q@⟨_, _, _, _, _, _, _, _, _, _, _, _, branches, _, _, _⟩ => by
    rw [Query.selects, Query.setOps]
    split
    · rfl
    · rw [List.length_cons, Branch.length_selects branches]

theorem Branch.length_selects : ∀ bs : List Branch, (Branch.selects bs).length = (Branch.setOps bs).length
  | [] => rfl
  | ⟨op, q⟩ :: bs => by
    rw [Branch.selects, Branch.setOps, List.length_append, List.length_append, List.length_cons,
      Query.length_selects q, Branch.length_selects bs]

end

/-! ### Rows -/

section Supply

variable {Row : Type} {ν : Nat → Multiset Row} {r : Row}

/-- Some of the `n` selects from number `i` on has the row. -/
def Supplied (ν : Nat → Multiset Row) (r : Row) (i n : Nat) : Prop := ∃ j, i ≤ j ∧ j < i + n ∧ r ∈ ν j

theorem supplied_zero {i : Nat} : ¬ Supplied ν r i 0 := by
  rintro ⟨j, hle, hlt, -⟩
  omega

theorem supplied_one {i : Nat} : Supplied ν r i 1 ↔ r ∈ ν i := by
  constructor
  · rintro ⟨j, hle, hlt, hr⟩
    obtain rfl : j = i := by omega
    exact hr
  · exact fun hr => ⟨i, Nat.le_refl i, Nat.lt_succ_self i, hr⟩

theorem supplied_add {i m n : Nat} : Supplied ν r i (m + n) ↔ Supplied ν r i m ∨ Supplied ν r (i + m) n := by
  constructor
  · rintro ⟨j, hle, hlt, hr⟩
    by_cases hj : j < i + m
    · exact Or.inl ⟨j, hle, hj, hr⟩
    · exact Or.inr ⟨j, by omega, by omega, hr⟩
  · rintro (⟨j, hle, hlt, hr⟩ | ⟨j, hle, hlt, hr⟩)
    · exact ⟨j, hle, by omega, hr⟩
    · exact ⟨j, by omega, by omega, hr⟩

end Supply

section Rows

variable {Row : Type} [DecidableEq Row]

/-- Two bags of rows put together: `union` keeps one of equal rows, `union all` keeps all of them. -/
def SetOp.combine (op : SetOp) (s t : Multiset Row) : Multiset Row :=
  match op with
  | .union => (s + t).dedup
  | .unionAll => s + t

mutual

/-- The rows of a query, when the individual selects have those of `ν`, numbered from `i`. -/
def Query.rows (ν : Nat → Multiset Row) (i : Nat) : Query → Multiset Row
  | q@⟨_, _, _, _, _, _, _, _, _, _, _, _, branches, _, _, _⟩ =>
    if q.isSingle then ν i else Branch.rows ν (i + 1) (ν i) branches

/-- The rows of branches put to those before them. -/
def Branch.rows (ν : Nat → Multiset Row) (i : Nat) (before : Multiset Row) : List Branch → Multiset Row
  | [] => before
  | ⟨op, q⟩ :: bs => Branch.rows ν (i + q.selects.length) (op.combine before (q.rows ν i)) bs

end

/-- The rows of a chain of selects after those before it, one operator after the other. -/
def readRows (ν : Nat → Multiset Row) (i : Nat) (before : Multiset Row) : List SetOp → Multiset Row
  | [] => before
  | op :: ops => readRows ν (i + 1) (op.combine before (ν i)) ops

variable (ν : Nat → Multiset Row)

theorem Query.rows_eq (i : Nat) (q : Query) :
    q.rows ν i = if q.isSingle then ν i else Branch.rows ν (i + 1) (ν i) q.branches := by
  cases q
  rw [Query.rows]

theorem Branch.rows_append (i : Nat) (s : Multiset Row) (bs cs : List Branch) :
    Branch.rows ν i s (bs ++ cs) =
      Branch.rows ν (i + (Branch.selects bs).length) (Branch.rows ν i s bs) cs := by
  induction bs generalizing i s with
  | nil => rfl
  | cons b bs ih =>
    obtain ⟨op, q⟩ := b
    rw [List.cons_append, Branch.rows, Branch.rows, ih, Branch.selects, List.length_append, Nat.add_assoc]

theorem Branch.rows_append_singleton (i : Nat) (s : Multiset Row) (bs : List Branch) (op : SetOp) (q : Query) :
    Branch.rows ν i s (bs ++ [⟨op, q⟩]) =
      op.combine (Branch.rows ν i s bs) (q.rows ν (i + (Branch.selects bs).length)) := by
  rw [Branch.rows_append, Branch.rows, Branch.rows]

theorem readRows_append (i : Nat) (s : Multiset Row) (ops ops' : List SetOp) :
    readRows ν i s (ops ++ ops') = readRows ν (i + ops.length) (readRows ν i s ops) ops' := by
  induction ops generalizing i s with
  | nil => rfl
  | cons op ops ih => rw [List.cons_append, readRows, readRows, ih, List.length_cons, Nat.add_right_comm,
      Nat.add_assoc]

theorem readRows_append_singleton (i : Nat) (s : Multiset Row) (ops : List SetOp) (op : SetOp) :
    readRows ν i s (ops ++ [op]) = op.combine (readRows ν i s ops) (ν (i + ops.length)) := by
  rw [readRows_append, readRows, readRows]

/-! ### Which rows there are -/

theorem SetOp.mem_combine {op : SetOp} {s t : Multiset Row} {r : Row} :
    r ∈ op.combine s t ↔ r ∈ s ∨ r ∈ t := by
  cases op with
  | union => rw [SetOp.combine, Multiset.mem_dedup, Multiset.mem_add]
  | unionAll => rw [SetOp.combine, Multiset.mem_add]

variable {ν} {r : Row}

theorem mem_readRows {i : Nat} {s : Multiset Row} {ops : List SetOp} :
    r ∈ readRows ν i s ops ↔ r ∈ s ∨ Supplied ν r i ops.length := by
  induction ops generalizing i s with
  | nil =>
    rw [readRows, List.length_nil]
    exact ⟨Or.inl, fun h => h.resolve_right supplied_zero⟩
  | cons op ops ih =>
    rw [readRows, ih, SetOp.mem_combine, List.length_cons, Nat.add_comm ops.length, supplied_add, supplied_one,
      or_assoc]

mutual

/-- A query has the rows of its selects. -/
theorem Query.mem_rows : ∀ (q : Query) {i : Nat}, r ∈ q.rows ν i ↔ Supplied ν r i q.selects.length
  | q@⟨_, _, _, _, _, _, _, _, _, _, _, _, branches, _, _, _⟩, i => by
    rw [Query.rows, Query.selects]
    split
    · rw [List.length_singleton, supplied_one]
    · rw [Branch.mem_rows branches, List.length_cons, Nat.add_comm (Branch.selects branches).length,
        supplied_add, supplied_one]

theorem Branch.mem_rows : ∀ (bs : List Branch) {i : Nat} {s : Multiset Row},
    r ∈ Branch.rows ν i s bs ↔ r ∈ s ∨ Supplied ν r i (Branch.selects bs).length
  | [], i, s => by
    rw [Branch.rows, Branch.selects, List.length_nil]
    exact ⟨Or.inl, fun h => h.resolve_right supplied_zero⟩
  | ⟨op, q⟩ :: bs, i, s => by
    rw [Branch.rows, Branch.mem_rows bs, SetOp.mem_combine, Query.mem_rows q, Branch.selects, List.length_append,
      supplied_add, or_assoc]

end

/-! ### Selects without rows -/

theorem SetOp.combine_zero {op : SetOp} {s : Multiset Row} (hs : s.Nodup) : op.combine s 0 = s := by
  cases op with
  | union => rw [SetOp.combine, Multiset.add_zero, Multiset.dedup_eq_self.2 hs]
  | unionAll => rw [SetOp.combine, Multiset.add_zero]

theorem readRows_of_empty {i : Nat} {s : Multiset Row} {ops : List SetOp} (hs : s.Nodup)
    (h : ∀ j, i ≤ j → j < i + ops.length → ν j = 0) : readRows ν i s ops = s := by
  induction ops generalizing i with
  | nil => rfl
  | cons op ops ih =>
    rw [List.length_cons] at h
    rw [readRows, h i (Nat.le_refl i) (by omega), SetOp.combine_zero hs]
    exact ih fun j hle hlt => h j (by omega) (by omega)

theorem Branch.rows_of_empty {i : Nat} {s : Multiset Row} {bs : List Branch} (hs : s.Nodup)
    (h : ∀ j, i ≤ j → j < i + (Branch.selects bs).length → ν j = 0) : Branch.rows ν i s bs = s := by
  induction bs generalizing i with
  | nil => rfl
  | cons b bs ih =>
    obtain ⟨op, q⟩ := b
    rw [Branch.selects, List.length_append] at h
    have hzero : q.rows ν i = 0 := by
      refine Multiset.eq_zero_of_forall_notMem fun r hr => ?_
      obtain ⟨j, hle, hlt, hj⟩ := (Query.mem_rows q).1 hr
      rw [h j hle (by omega)] at hj
      exact Multiset.notMem_zero r hj
    rw [Branch.rows, hzero, SetOp.combine_zero hs]
    exact ih fun j hle hlt => h j (by omega) (by omega)

/-! ### Operators without `union` -/

theorem SetOp.eq_unionAll_of_ne {op : SetOp} (h : .union ≠ op) : op = .unionAll := by
  cases op with
  | union => exact absurd rfl h
  | unionAll => rfl

/-- What stands before a chain without `union` is kept as it is. -/
theorem readRows_add {i : Nat} {s t : Multiset Row} {ops : List SetOp} (h : .union ∉ ops) :
    readRows ν i (s + t) ops = s + readRows ν i t ops := by
  induction ops generalizing i t with
  | nil => rfl
  | cons op ops ih =>
    obtain ⟨hop, hops⟩ := not_or.1 (mt List.mem_cons.2 h)
    obtain rfl := SetOp.eq_unionAll_of_ne hop
    rw [readRows, readRows, SetOp.combine, SetOp.combine, Multiset.add_assoc, ih hops]

mutual

/-- A query without `union` has the rows of its chain. -/
theorem Query.rows_of_no_union : ∀ (q : Query) {i : Nat}, .union ∉ q.setOps →
    q.rows ν i = readRows ν (i + 1) (ν i) q.setOps
  | q@⟨_, _, _, _, _, _, _, _, _, _, _, _, branches, _, _, _⟩, i, h => by
    rw [Query.setOps] at h ⊢
    rw [Query.rows]
    split
    · rfl
    · next hs =>
      rw [if_neg hs] at h
      exact Branch.rows_of_no_union branches h

theorem Branch.rows_of_no_union : ∀ (bs : List Branch) {i : Nat} {s : Multiset Row}, .union ∉ Branch.setOps bs →
    Branch.rows ν i s bs = readRows ν i s (Branch.setOps bs)
  | [], _, _, _ => rfl
  | ⟨op, q⟩ :: bs, i, s, h => by
    rw [Branch.setOps, List.mem_append, List.mem_cons, not_or, not_or] at h
    obtain ⟨⟨hop, hq⟩, hbs⟩ := h
    obtain rfl := SetOp.eq_unionAll_of_ne hop
    rw [Branch.rows, Branch.rows_of_no_union bs hbs, Branch.setOps, readRows_append, readRows, SetOp.combine,
      SetOp.combine, readRows_add hq, ← Query.rows_of_no_union q hq, Query.length_selects, List.length_cons]

end

/-! ### Chains that end with `union` -/

/-- After `union` no two rows are equal. -/
theorem nodup_readRows {i : Nat} {s : Multiset Row} {ops : List SetOp} (h : ops.getLast? = some .union) :
    (readRows ν i s ops).Nodup := by
  obtain ⟨ops', rfl⟩ := List.getLast?_eq_some_iff.1 h
  rw [readRows_append_singleton]
  exact Multiset.nodup_dedup _

theorem getLast?_cons_eq_union {ops : List SetOp} (h : ops.getLast? ≠ some .unionAll) :
    (SetOp.union :: ops).getLast? = some .union := by
  rw [List.getLast?_cons]
  cases hl : ops.getLast? with
  | none => rfl
  | some op =>
    have hne : SetOp.unionAll ≠ op := fun e => h (e ▸ hl)
    cases op with
    | union => rfl
    | unionAll => exact absurd rfl hne

end Rows

/-! ### Branches whose chain has their rows -/

/-- Whether the chain still has the rows of the query when a branch is put to it.  After `union` only the last
operator of the branch matters, which must not add rows that `union` had to compare; after `union all` the branch
must not have a `union` that reaches out of it. -/
def Branch.keeps (kept : Bool) (b : Branch) : Bool :=
  match b.op with
  | .union => b.query.setOps.getLast? ≠ some .unionAll
  | .unionAll => kept && !b.query.setOps.contains .union

/-- Whether the chain of a query has its rows: all of its branches are looked at, from the left. -/
def Query.keepsUnions (q : Query) : Bool := q.isSingle || q.branches.foldl Branch.keeps true

section Keeps

variable {Row : Type} [DecidableEq Row]

/-- The branches of a kept union have the rows of their chain. -/
theorem Branch.readRows_eq_rows {bs : List Branch} (h : bs.foldl Branch.keeps true = true)
    (ν : Nat → Multiset Row) (i : Nat) (s : Multiset Row) :
    readRows ν i s (Branch.setOps bs) = Branch.rows ν i s bs := by
  induction bs using List.reverseRecOn with
  | nil => rfl
  | append_singleton bs b ih =>
    obtain ⟨op, q⟩ := b
    rw [List.foldl_append, List.foldl_cons, List.foldl_nil] at h
    rw [Branch.rows_append_singleton, Branch.setOps_append, readRows_append, ← Branch.length_selects]
    have hlast : Branch.setOps [⟨op, q⟩] = op :: q.setOps := by
      rw [Branch.setOps, Branch.setOps, List.append_nil]
    rw [hlast]
    cases op with
    | union =>
      -- both sides have no equal rows, so it is enough that they have the same ones
      have hops : q.setOps.getLast? ≠ some .unionAll := of_decide_eq_true h
      refine (Multiset.Nodup.ext (nodup_readRows (getLast?_cons_eq_union hops)) (Multiset.nodup_dedup _)).2 fun r => ?_
      have hbefore : r ∈ readRows ν i s (Branch.setOps bs) ↔ r ∈ Branch.rows ν i s bs := by
        rw [mem_readRows, Branch.mem_rows, Branch.length_selects]
      rw [mem_readRows, hbefore, Multiset.mem_dedup, Multiset.mem_add, Query.mem_rows, Query.length_selects,
        List.length_cons]
    | unionAll =>
      obtain ⟨hbs, hq⟩ := Bool.and_eq_true_iff.1 h
      have hno : .union ∉ q.setOps := by simpa using hq
      rw [readRows, ih hbs, SetOp.combine, readRows_add hno, ← Query.rows_of_no_union q hno]
      rfl

/-- The rows of a union that is not kept come out differently for some rows of its selects. -/
theorem Branch.keeps_of_readRows_eq_rows [Inhabited Row] {bs : List Branch}
    (h : ∀ ν : Nat → Multiset Row, readRows ν 1 (ν 0) (Branch.setOps bs) = Branch.rows ν 1 (ν 0) bs) :
    bs.foldl Branch.keeps true = true := by
  induction bs using List.reverseRecOn with
  | nil => rfl
  | append_singleton bs b ih =>
    obtain ⟨op, q⟩ := b
    rw [List.foldl_append, List.foldl_cons, List.foldl_nil]
    simp only [Branch.rows_append_singleton, Branch.setOps_append, readRows_append, ← Branch.length_selects,
      Branch.setOps, List.append_nil] at h
    have r : Row := default
    cases op with
    | union =>
      -- the last select has a row twice, and the chain keeps both
      refine decide_eq_true fun hlast => ?_
      obtain ⟨ops, hops⟩ := List.getLast?_eq_some_iff.1 hlast
      let m := 1 + (Branch.selects bs).length + (ops.length + 1)
      have hν := h fun j => if j = m then {r, r} else 0
      rw [hops, ← List.cons_append, readRows_append_singleton, List.length_cons, SetOp.combine, if_pos rfl] at hν
      have hle : ({r, r} : Multiset Row) ≤ _ := (Multiset.le_add_left _ _).trans_eq hν
      have hnodup := Multiset.nodup_of_le hle (Multiset.nodup_dedup _)
      simp at hnodup
    | unionAll =>
      have hno : .union ∉ q.setOps := by
        -- one row in the first select and at a `union` inside the branch: the chain keeps only one of the two
        intro hmem
        obtain ⟨ops, ops', hops⟩ := List.append_of_mem hmem
        let k := 1 + (Branch.selects bs).length
        let m := k + 1 + ops.length
        let ν : Nat → Multiset Row := fun j => if j = 0 ∨ j = m then {r} else 0
        have hfirst : ν 0 = {r} := if_pos (Or.inl rfl)
        have hm : ν m = {r} := if_pos (Or.inr rfl)
        have hzero : ∀ j, 1 ≤ j → j ≠ m → ν j = 0 := fun j h1 hne => if_neg (by omega)
        have hone : ({r} : Multiset Row).Nodup := Multiset.nodup_singleton r
        have htwo : ({r} + {r} : Multiset Row).dedup = {r} :=
          (Multiset.Nodup.ext (Multiset.nodup_dedup _) hone).2 (by simp)
        have hlength := Branch.length_selects bs
        have hchain : readRows ν k (readRows ν 1 (ν 0) (Branch.setOps bs)) (.unionAll :: q.setOps) = {r} := by
          rw [hfirst, readRows_of_empty hone fun j hle hlt => hzero j hle (by omega), readRows, SetOp.combine,
            hzero k (by omega) (by omega), Multiset.add_zero, hops, readRows_append,
            readRows_of_empty hone fun j hle hlt => hzero j (by omega) (by omega), readRows, hm, SetOp.combine,
            htwo, readRows_of_empty hone fun j hle hlt => hzero j (by omega) (by omega)]
        have htree : Branch.rows ν 1 (ν 0) bs = {r} := by
          rw [hfirst, Branch.rows_of_empty hone fun j hle hlt => hzero j hle (by omega)]
        have hq : r ∈ q.rows ν k := by
          rw [Query.mem_rows, Query.length_selects, hops, List.length_append, List.length_cons]
          exact ⟨m, by omega, by omega, hm ▸ Multiset.mem_singleton_self r⟩
        have hν : {r} = {r} + q.rows ν k := by
          have hν := h ν
          rwa [hchain, htree] at hν
        have hempty : 0 = q.rows ν k := Multiset.add_right_inj.1 ((Multiset.add_zero {r}).trans hν)
        exact Multiset.notMem_zero r (hempty ▸ hq)
      refine Bool.and_eq_true_iff.2 ⟨ih fun ν => ?_, by simpa using hno⟩
      have hν := h ν
      rw [readRows, SetOp.combine, readRows_add hno, ← Query.rows_of_no_union q hno] at hν
      exact Multiset.add_left_inj.1 hν

/-- **A chain has the rows of its query exactly when the check holds**, for all rows of the individual selects. -/
theorem Query.readRows_eq_rows_iff [Inhabited Row] (q : Query) :
    (∀ ν : Nat → Multiset Row, readRows ν 1 (ν 0) q.setOps = q.rows ν 0) ↔ q.keepsUnions = true := by
  simp only [Query.setOps_eq, Query.rows_eq, Query.keepsUnions]
  cases q.isSingle with
  | true => exact ⟨fun _ => rfl, fun _ _ => rfl⟩
  | false => exact ⟨Branch.keeps_of_readRows_eq_rows, fun h ν => Branch.readRows_eq_rows h ν 1 (ν 0)⟩

end Keeps

end SqlQuery
