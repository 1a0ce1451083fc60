import SqlQuery.Proofs.Binding.Fragment

/-!
# Clauses with their values written out

The compiler's ways to put fragments together go with `Fragment.inlined`: those that only put pieces next to each
other always do, and those that look at whether a fragment has text (`clause`, `negation`) do for fragments whose
values have one.  Clauses without values stay as they are.
-/

namespace SqlQuery

open SqlQuery.Fragment SqlQuery.Text

/-! ### Ways to put fragments together -/

section Combinators

variable {f g : Fragment}

theorem inlined_append (f g : Fragment) : Fragment.inlined (f ++ g) = f.inlined ++ g.inlined :=
  List.map_append

theorem inlined_word (w : String) : (word w).inlined = word w := rfl

theorem inlined_name (n : String) : (name n).inlined = name n := rfl

theorem inlined_part (n : String) : (part n).inlined = part n := rfl

theorem inlined_parenthesized (f : Fragment) : (parenthesized f).inlined = parenthesized f.inlined := by
  simp only [parenthesized, inlined_append, inlined_word]

theorem inlined_joined (w : String) (fs : List Fragment) :
    (joined w fs).inlined = joined w (fs.map Fragment.inlined) := by
  induction fs with
  | nil => rfl
  | cons f fs ih =>
    cases fs with
    | nil => simp [joined, List.intercalate]
    | cons g fs =>
      simp only [joined, List.map_cons] at ih ⊢
      rw [intercalate_cons_cons, intercalate_cons_cons, inlined_append, inlined_append, ih, inlined_word]

theorem inlined_clause (w : String) (h : PiecesBound f) : (clause w f).inlined = clause w f.inlined := by
  unfold clause
  rw [isBlank_inlined h]
  split
  · rfl
  · rw [inlined_append, inlined_word]

theorem inlined_negation (h : PiecesBound f) : (negation f).inlined = negation f.inlined := by
  unfold negation
  rw [isBlank_inlined h]
  split
  · rfl
  · rw [inlined_append, inlined_word, inlined_parenthesized]

theorem inlined_notWord (negated : Bool) : (notWord negated).inlined = notWord negated := by
  cases negated <;> rfl

theorem inlined_negatedComparison (around : Bool) (f : Fragment) :
    (negatedComparison around f).inlined = negatedComparison around f.inlined := by
  unfold negatedComparison
  split
  · rw [inlined_append, inlined_word, inlined_parenthesized]
  · rfl

theorem inlined_membership (c : String) (negated : Bool) (fs : List Fragment) :
    (membership c negated fs).inlined = membership c negated (fs.map Fragment.inlined) := by
  unfold membership
  rw [List.isEmpty_map]
  split
  · rfl
  · simp only [inlined_append, inlined_name, inlined_word, inlined_notWord, inlined_parenthesized, inlined_joined]

theorem inlined_procedureCall (n : String) (fs : List Fragment) :
    (procedureCall n fs).inlined = procedureCall n (fs.map Fragment.inlined) := by
  simp only [procedureCall, inlined_append, inlined_name, inlined_word, inlined_parenthesized, inlined_joined]

theorem inlined_labelled (f : Fragment) (label : Option String) :
    (labelled f label).inlined = labelled f.inlined label := by
  cases label with
  | none => rfl
  | some label => simp only [labelled, inlined_append, inlined_word, inlined_part]

theorem inlined_joinFragment (kind : JoinKind) (table on : Fragment) :
    (kind.fragment table on).inlined = kind.fragment table.inlined on.inlined := by
  unfold JoinKind.fragment
  split
  · simp only [inlined_append, inlined_word]
  · split <;> simp only [inlined_append, inlined_word]

end Combinators

/-! ### Fragments without values -/

/-- A fragment without values has nothing to write out. -/
theorem inlined_of_params_eq_nil {f : Fragment} (h : params f = []) : f.inlined = f := by
  rw [params, List.flatMap_eq_nil_iff] at h
  refine (List.map_congr_left fun x hx => ?_).trans (List.map_id f)
  cases x with
  | word | name | part => rfl
  | bound v => exact absurd (h _ hx) (List.cons_ne_nil v [])
  | verbatim sql bindings =>
    obtain rfl : bindings = [] := h _ hx
    rw [Piece.inlined, filled_nil]
    rfl

theorem params_joined_eq_nil {w : String} {fs : List Fragment} (h : ∀ f ∈ fs, params f = []) :
    params (joined w fs) = [] := by
  rw [params_joined, List.flatMap_eq_nil_iff]
  exact h

theorem Column.params_list (cs : List Column) : params (Column.list cs) = [] := by
  unfold Column.list
  split
  · rfl
  · refine params_joined_eq_nil ?_
    rw [List.forall_mem_map]
    intro c _
    cases c <;> rfl

theorem OrderBy.params_list (os : List OrderBy) : params (OrderBy.list os) = [] := by
  refine params_joined_eq_nil ?_
  rw [List.forall_mem_map]
  intro o _
  cases o <;> rfl

theorem Aggregate.params_fragment (a : Aggregate) (distinct : Bool) : params (a.fragment distinct) = [] := by
  have hargument : params (a.argument distinct) = [] := by
    unfold Aggregate.argument
    split
    · rfl
    · split <;> rfl
  simp [Aggregate.fragment, hargument]

theorem Lock.params_fragment (l : Lock) : params l.fragment = [] := by
  cases l with
  | forUpdate => rfl
  | raw sql =>
    rw [Lock.fragment]
    split <;> rfl

theorem params_spaced (cs : List String) : params (spaced cs) = [] := by
  induction cs with
  | nil => rfl
  | cons c cs ih =>
    rw [spaced, List.flatMap_cons, params_append, ← spaced, ih]
    rfl

theorem DatePart.params_ofColumn (part : DatePart) (c : String) : params (part.ofColumn c) = [] := by
  unfold DatePart.ofColumn
  split <;> rfl

section Clauses

variable (p : Paging) (q : Query)

theorem Query.params_head (a : Option Aggregate) : params (q.head p a) = [] := by
  have hselection : params (q.selection a) = [] := by
    cases a with
    | some a => exact a.params_fragment q.distinct
    | none =>
      rw [Query.selection]
      split <;> simp [Column.params_list]
  simp [Query.head, hselection, params_spaced]

theorem Query.params_grouping : params q.grouping = [] := by
  unfold Query.grouping
  split
  · rfl
  · simp [Column.params_list]

theorem Query.params_tail : params (q.tail p) = [] := by
  have horders : params (if q.orders.isEmpty then [] else word " order by " ++ OrderBy.list q.orders) = [] := by
    split
    · rfl
    · simp [OrderBy.params_list]
  unfold Query.tail
  rw [params_append, params_append, horders, params_spaced]
  cases q.lock with
  | none => rfl
  | some l => exact l.params_fragment

theorem Query.params_givesBack : params q.givesBack = [] := by
  have hnames : params (joined ", " (q.returning.map name)) = [] := by
    refine params_joined_eq_nil ?_
    rw [List.forall_mem_map]
    exact fun n _ => rfl
  unfold Query.givesBack
  split
  · rfl
  · simp [hnames]

end Clauses

/-! ### Layout -/

section Layout

variable {p : Paging} {q : Query} {table joins filter having branches : Fragment}

/-- The layout of a select goes with values written out in its parts. -/
theorem Query.inlined_assembled (hf : PiecesBound filter) (hh : PiecesBound having) :
    (q.assembled p table joins filter having branches).inlined =
      q.assembled p table.inlined joins.inlined filter.inlined having.inlined branches.inlined := by
  have hlayout : ∀ a, (q.layout p a table joins filter having branches).inlined =
      q.layout p a table.inlined joins.inlined filter.inlined having.inlined branches.inlined := by
    intro a
    simp only [Query.layout, inlined_append, inlined_word, inlined_clause _ hf, inlined_clause _ hh,
      inlined_of_params_eq_nil (q.params_head p a), inlined_of_params_eq_nil q.params_grouping,
      inlined_of_params_eq_nil (q.params_tail p)]
  unfold Query.assembled
  split
  · exact hlayout none
  · next a _ =>
    split
    · simp only [Query.wrapped, inlined_append, inlined_word, inlined_part, inlined_parenthesized, hlayout,
        inlined_of_params_eq_nil (a.params_fragment q.distinct)]
    · exact hlayout (some a)

end Layout

end SqlQuery
