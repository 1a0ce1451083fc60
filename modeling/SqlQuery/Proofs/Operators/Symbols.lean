import SqlQuery.Proofs.Lexical.Case
import SqlQuery.Proofs.Lexical.Digits
import SqlQuery.Proofs.Paging.Text

/-!
# Operators in a fragment

A fragment writes an operator as a word of its own, so that its operators can be read off its words.

* `Operator.ofText?_spaced` — a symbol between spaces spells its operator;
* `ofText?_plainWording`, `Paging.IsClause.ofText?_eq_none` — the other words of the compiler spell none;
* `Fragment.symbols` — the operators that the words of a fragment spell;
* `symbols_joined` … `Query.symbols_tail` — the compiler's ways to put fragments together keep them, and clauses
  without comparisons have none.
-/

namespace SqlQuery

open SqlQuery.Fragment SqlQuery.Text

/-! ### Spellings -/

namespace Operator

variable {text : String}

theorem normalized_eq (text : String) :
    normalized text = [' '].intercalate ((words text.toList).map lowerAll) :=
  lowerAll_intercalate _

/-- Spellings without capitals need no lower case. -/
theorem normalized_of_isPlain (h : text.toList.all isPlain = true) :
    normalized text = [' '].intercalate (words text.toList) := by
  have hwords : ∀ w ∈ words text.toList, lowerAll w = w := by
    intro w hw
    exact lowerAll_of_isPlain fun c hc => List.all_eq_true.1 h c (mem_of_mem_words hw c hc)
  rw [normalized_eq, List.map_congr_left hwords, List.map_id']

/-- **A symbol between spaces spells its operator.** -/
theorem ofText?_spaced (op : Operator) : ofText? (" " ++ op.symbol ++ " ") = some op := by
  have hplain : (" " ++ op.symbol ++ " ").toList.all isPlain = true := by cases op <;> decide
  have hwords : [' '].intercalate (words (" " ++ op.symbol ++ " ").toList) = op.symbol.toList := by
    cases op <;> decide
  have hfirst : (all.find? fun o => o.symbol.toList == op.symbol.toList) = some op := by cases op <;> decide
  rw [ofText?, normalized_of_isPlain hplain, hwords]
  exact hfirst

/-- A text with a character that no symbol has spells no operator. -/
theorem ofText?_eq_none_of_mem {c : Char} (hc : c ∈ text.toList) (hblank : Text.isBlank c = false)
    (hlower : lower c = [c]) (hsymbol : ∀ op : Operator, c ∉ op.symbol.toList) : ofText? text = none := by
  have hfilter : c ∈ text.toList.filter (!Text.isBlank ·) := List.mem_filter.2 ⟨hc, by simp [hblank]⟩
  have hnormal : c ∈ normalized text := by
    rw [← filter_intercalate_words] at hfilter
    exact List.mem_flatMap.2 ⟨c, (List.mem_filter.1 hfilter).1, by simp [hlower]⟩
  refine List.find?_eq_none.2 fun op _ h => hsymbol op ?_
  rw [beq_iff_eq] at h
  rwa [h]

end Operator

/-! ### The words of the compiler -/

/-- All that the compiler writes by itself but for operators.  The sign between a column and its new value is that of
equality. -/
def plainWording : List String :=
  phrases.erase " = " ++ enclosures.flatMap (fun e => [e.1, e.2]) ++ [randomOrder]

theorem mem_wording_cases {w : String} (h : w ∈ wording) :
    w ∈ plainWording ∨ ∃ op : Operator, w = " " ++ op.symbol ++ " " := by
  by_cases heq : w = " = "
  · exact Or.inr ⟨.eq, heq⟩
  · rw [wording, List.mem_append, List.mem_append, List.mem_append] at h
    obtain ((h | h) | h) | h := h
    · have hphrase := (List.mem_erase_of_ne heq).2 (List.mem_of_mem_filter h)
      exact Or.inl (List.mem_append_left _ (List.mem_append_left _ hphrase))
    · exact Or.inl (List.mem_append_left _ (List.mem_append_right _ h))
    · exact Or.inl (List.mem_append_right _ h)
    · obtain ⟨op, -, rfl⟩ := List.mem_map.1 h
      exact Or.inr ⟨op, rfl⟩

/-- Such a word has a parenthesis, or its words are not those of a symbol. -/
theorem ofText?_plainWording : ∀ w ∈ plainWording, Operator.ofText? w = none := by
  have hcases : ∀ w ∈ plainWording, '(' ∈ w.toList ∨ w.toList.all isPlain = true ∧
      ∀ op ∈ Operator.all, (op.symbol.toList == [' '].intercalate (words w.toList)) = false := by
    decide +kernel
  intro w hw
  obtain hopen | ⟨hplain, hsymbol⟩ := hcases w hw
  · exact Operator.ofText?_eq_none_of_mem hopen (by decide) (lower_of_isPlain (by decide))
      fun op => by cases op <;> decide
  · rw [Operator.ofText?, Operator.normalized_of_isPlain hplain, List.find?_eq_none]
    exact fun op hop => by simp [hsymbol op hop]

/-- A paging clause has a digit in it, and symbols have none. -/
theorem Paging.IsClause.ofText?_eq_none {p : Paging} {w : String} (h : p.IsClause w.toList) :
    Operator.ofText? w = none := by
  obtain ⟨e, -, n, hw⟩ := h
  obtain ⟨c, hc⟩ := List.exists_mem_of_ne_nil _ (Nat.toDigits_ne_nil (b := 10) (n := n))
  have hdigit : c.isDigit = true := Nat.isDigit_of_mem_toDigits (by decide) (by decide) hc
  have hnumber : 0x30 ≤ c.toNat ∧ c.toNat ≤ 0x39 := by
    simpa [Char.isDigit, UInt32.le_iff_toNat_le] using hdigit
  have hplain : isPlain c = true := by
    simp only [isPlain, Bool.or_eq_true, Nat.blt_eq]
    omega
  refine Operator.ofText?_eq_none_of_mem ?_ (isBlank_of_isDigit hdigit) (lower_of_isPlain hplain) fun op hop => ?_
  · rw [hw]
    exact List.mem_append_left _ (List.mem_append_right _ hc)
  · have hnone : op.symbol.toList.any Char.isDigit = false := by cases op <;> decide
    exact List.any_eq_false.1 hnone c hop hdigit

/-- The paging clauses of a select without defects. -/
theorem Query.isClause_paging {p : Paging} {q : Query} (h : q.selectDefect? p = none) :
    (∀ c ∈ p.leading q.limit q.offset, p.IsClause (" " ++ c).toList) ∧
      ∀ c ∈ p.trailing q.limit q.offset, p.IsClause (" " ++ c).toList := by
  obtain ⟨-, -, hl, ho, -⟩ := Query.selectDefect?_eq_none.1 h
  cases p with
  | legacy => exact ⟨isClause_leading hl ho, nofun⟩
  | modern => exact ⟨nofun, isClause_trailing hl ho⟩

/-! ### Fragments -/

/-- The operator that a word spells. -/
def Piece.operator? : Piece → Option Operator
  | .word w => Operator.ofText? w
  | _ => none

/-- The operators that the words of a fragment spell, in their order. -/
def Fragment.symbols (f : Fragment) : List Operator :=
  f.filterMap Piece.operator?

section Combinators

variable {f g : Fragment} {w : String}

@[simp] theorem symbols_append (f g : Fragment) : symbols (f ++ g) = symbols f ++ symbols g :=
  List.filterMap_append

@[simp] theorem symbols_nil : symbols [] = [] := rfl

@[simp] theorem symbols_name (s : String) : symbols (name s) = [] := rfl

@[simp] theorem symbols_part (s : String) : symbols (part s) = [] := rfl

@[simp] theorem symbols_bound (v : Value) : symbols [.bound v] = [] := rfl

@[simp] theorem symbols_verbatim (sql : String) (bindings : List Value) : symbols [.verbatim sql bindings] = [] := rfl

theorem symbols_word_of_none (h : Operator.ofText? w = none) : symbols (word w) = [] := by
  rw [word, symbols, List.filterMap_cons, Piece.operator?, h, List.filterMap_nil]

theorem symbols_word (h : w ∈ plainWording) : symbols (word w) = [] :=
  symbols_word_of_none (ofText?_plainWording w h)

@[simp] theorem symbols_spacedSymbol (op : Operator) : symbols op.spacedSymbol = [op] := by
  rw [Operator.spacedSymbol, word, symbols, List.filterMap_cons, Piece.operator?, op.ofText?_spaced,
    List.filterMap_nil]

@[simp] theorem symbols_parenthesized (f : Fragment) : symbols (parenthesized f) = symbols f := by
  simp [parenthesized, symbols_word (w := "(") (by decide), symbols_word (w := ")") (by decide)]

theorem symbols_joined (h : w ∈ plainWording) (fs : List Fragment) :
    symbols (joined w fs) = fs.flatMap symbols := by
  induction fs with
  | nil => rfl
  | cons f fs ih =>
    cases fs with
    | nil => simp [joined, List.intercalate]
    | cons g fs =>
      unfold joined at ih ⊢
      rw [intercalate_cons_cons, symbols_append, symbols_append, symbols_word h, List.append_nil, ih]
      rfl

@[simp] theorem symbols_space : symbols (word " ") = [] := symbols_word (by decide)

/-- A list with commas has the operators of its members. -/
theorem symbols_listed (fs : List Fragment) : symbols (joined ", " fs) = fs.flatMap symbols :=
  symbols_joined (by decide) fs

theorem symbols_clause (h : " " ++ w ++ " " ∈ plainWording) (f : Fragment) :
    symbols (clause w f) = symbols f := by
  unfold clause
  split
  · rfl
  · rw [symbols_append, symbols_word h, List.nil_append]

theorem symbols_where (f : Fragment) : symbols (clause "where" f) = symbols f :=
  symbols_clause (by decide) f

theorem symbols_negation (f : Fragment) : symbols (negation f) = symbols f := by
  unfold negation
  split
  · rfl
  · rw [symbols_append, symbols_word (by decide), List.nil_append, symbols_parenthesized]

theorem symbols_negatedComparison (around : Bool) (f : Fragment) :
    symbols (negatedComparison around f) = symbols f := by
  unfold negatedComparison
  split
  · rw [symbols_append, symbols_word (by decide), List.nil_append, symbols_parenthesized]
  · rfl

theorem symbols_notWord (negated : Bool) : symbols (notWord negated) = [] := by
  cases negated with
  | false => rfl
  | true => exact symbols_word (by decide)

theorem symbols_membership (c : String) (negated : Bool) (fs : List Fragment) :
    symbols (membership c negated fs) = fs.flatMap symbols := by
  unfold membership
  cases fs with
  | nil => cases negated <;> exact symbols_word (by decide)
  | cons f fs =>
    simp [symbols_notWord, symbols_word (w := "in ") (by decide), symbols_listed]

theorem symbols_procedureCall (n : String) (fs : List Fragment) :
    symbols (procedureCall n fs) = fs.flatMap symbols := by
  simp [procedureCall, symbols_listed]

theorem symbols_labelled (f : Fragment) (label : Option String) : symbols (labelled f label) = symbols f := by
  cases label with
  | none => rfl
  | some label => simp [labelled, symbols_word (w := " as ") (by decide)]

/-- A join looks at its condition only if it takes one. -/
theorem symbols_join (kind : JoinKind) (table on : Fragment) : symbols (kind.fragment table on) =
    symbols table ++ if kind.takesCondition then symbols on else [] := by
  have hlateral : kind.keyword ++ " join lateral " ∈ plainWording := by cases kind <;> decide
  have hplain : kind.keyword ++ " join " ∈ plainWording := by cases kind <;> decide
  unfold JoinKind.fragment JoinKind.takesCondition
  cases kind.isLateral with
  | true => simp [symbols_word hlateral, symbols_word (w := " on true") (by decide)]
  | false =>
    by_cases hcross : kind = .cross
    · simp [hcross, symbols_word (w := "cross join ") (by decide)]
    · simp [hcross, symbols_word hplain, symbols_word (w := " on ") (by decide)]

end Combinators

/-! ### Clauses without comparisons -/

theorem symbols_listed_eq_nil {α : Type} {g : α → Fragment} (xs : List α) (h : ∀ x, symbols (g x) = []) :
    symbols (joined ", " (xs.map g)) = [] := by
  rw [symbols_listed, List.flatMap_eq_nil_iff, List.forall_mem_map]
  exact fun x _ => h x

theorem DatePart.symbols_ofColumn (part : DatePart) (c : String) : symbols (part.ofColumn c) = [] := by
  have hcast : " as " ++ part.keyword ++ ")" ∈ plainWording := by cases part <;> decide
  have hextract : "extract(" ++ part.keyword ++ " from " ∈ plainWording := by cases part <;> decide
  unfold DatePart.ofColumn
  split
  · simp [symbols_word hcast, symbols_word (w := "cast(") (by decide)]
  · simp [symbols_word hextract, symbols_word (w := ")") (by decide)]

theorem Column.symbols_list (cs : List Column) : symbols (Column.list cs) = [] := by
  unfold Column.list
  split
  · exact symbols_word (by decide)
  · refine symbols_listed_eq_nil cs fun c => ?_
    cases c with
    | star => exact symbols_word (by decide)
    | named n => rfl
    | aliased n label => simp [Column.fragment, symbols_word (w := " as ") (by decide)]
    | raw sql => rfl

theorem OrderBy.symbols_list (os : List OrderBy) : symbols (OrderBy.list os) = [] := by
  refine symbols_listed_eq_nil os fun o => ?_
  cases o with
  | column c order =>
    have horder : " " ++ order.keyword ∈ plainWording := by cases order <;> decide
    simp [OrderBy.fragment, symbols_word horder]
  | raw sql => rfl
  | random => exact symbols_word (by decide)

theorem Aggregate.symbols_fragment (a : Aggregate) (distinct : Bool) : symbols (a.fragment distinct) = [] := by
  have hfunc : a.func.keyword ++ "(" ∈ plainWording := by cases a.func <;> decide
  have hargument : symbols (a.argument distinct) = [] := by
    unfold Aggregate.argument
    split
    · exact symbols_word (by decide)
    · split
      · simp [symbols_word (w := "distinct ") (by decide)]
      · rfl
  simp [Aggregate.fragment, symbols_word hfunc, hargument, symbols_word (w := ") as ") (by decide)]

theorem Lock.symbols_fragment (l : Lock) : symbols l.fragment = [] := by
  cases l with
  | forUpdate => exact symbols_word (by decide)
  | raw sql =>
    unfold Lock.fragment
    dsimp only
    split
    · rfl
    · simp

theorem symbols_spaced {p : Paging} {cs : List String} (h : ∀ c ∈ cs, p.IsClause (" " ++ c).toList) :
    symbols (spaced cs) = [] := by
  induction cs with
  | nil => rfl
  | cons c cs ih =>
    rw [List.forall_mem_cons] at h
    rw [spaced, List.flatMap_cons, ← spaced, symbols_append, symbols_word_of_none h.1.ofText?_eq_none, ih h.2]
    rfl

section Selects

variable {p : Paging} {q : Query}

theorem Query.symbols_head (h : q.selectDefect? p = none) (a : Option Aggregate) : symbols (q.head p a) = [] := by
  have hselection : symbols (q.selection a) = [] := by
    cases a with
    | some a => exact a.symbols_fragment q.distinct
    | none =>
      unfold Query.selection
      dsimp only
      split
      · simp [symbols_word (w := "distinct ") (by decide), Column.symbols_list]
      · simp [Column.symbols_list]
  simp [Query.head, hselection, symbols_word (w := "select") (by decide), symbols_spaced (Query.isClause_paging h).1]

theorem Query.symbols_grouping (q : Query) : symbols q.grouping = [] := by
  unfold Query.grouping
  split
  · rfl
  · simp [symbols_word (w := " group by ") (by decide), Column.symbols_list]

theorem Query.symbols_tail (h : q.selectDefect? p = none) : symbols (q.tail p) = [] := by
  have horders : symbols (if q.orders.isEmpty then [] else word " order by " ++ OrderBy.list q.orders) = [] := by
    split
    · rfl
    · simp [symbols_word (w := " order by ") (by decide), OrderBy.symbols_list]
  unfold Query.tail
  rw [symbols_append, symbols_append, horders, symbols_spaced (Query.isClause_paging h).2]
  cases q.lock with
  | none => rfl
  | some l => exact l.symbols_fragment

/-- A select has the operators of its parts. -/
theorem Query.symbols_assembled (h : q.selectDefect? p = none) (table joins filter having branches : Fragment) :
    symbols (q.assembled p table joins filter having branches) =
      symbols table ++ symbols joins ++ symbols filter ++ symbols having ++ symbols branches := by
  have hlayout : ∀ a, symbols (q.layout p a table joins filter having branches) =
      symbols table ++ symbols joins ++ symbols filter ++ symbols having ++ symbols branches := by
    intro a
    have hhaving := symbols_clause (w := "having") (by decide) having
    simp [Query.layout, Query.symbols_head h, symbols_word (w := " from ") (by decide), symbols_where,
      q.symbols_grouping, hhaving, Query.symbols_tail h]
  unfold Query.assembled
  split
  · exact hlayout none
  · next a _ =>
    split
    · rw [← hlayout none]
      simp [Query.wrapped, symbols_word (w := "select ") (by decide), a.symbols_fragment,
        symbols_word (w := " from ") (by decide), symbols_word (w := " as ") (by decide)]
    · exact hlayout (some a)

theorem Query.symbols_givesBack (q : Query) : symbols q.givesBack = [] := by
  have hnames : symbols (joined ", " (q.returning.map name)) = [] := symbols_listed_eq_nil _ symbols_name
  unfold Query.givesBack
  split
  · rfl
  · simp [hnames, symbols_word (w := " returning ") (by decide)]

end Selects

end SqlQuery
