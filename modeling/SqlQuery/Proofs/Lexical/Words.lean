import SqlQuery.Keyword
import SqlQuery.Operator
import SqlQuery.Proofs.Lexical.Quotes

/-!
# Words and parentheses

What stands outside of the quotes of a statement, read as words.

* `lexemes` — the words of a text: what is left between spaces and punctuation;
* `Known` — a word of the dialect's `vocabulary`, or a decimal number;
* `Balanced` — every parenthesis that closes has one that opens before it, and none stays open.

Both are kept when texts are put one after the other, words only if a delimiter stands where the texts meet
(`lexemes_append`): without it the last word of the one and the first of the other would become one word.
-/

namespace SqlQuery.Text

/-! ### Words -/

/-- The space and the punctuation of the dialect. -/
def isDelimiter (c : Char) : Bool :=
  [' ', '(', ')', ',', '.', '*', '?'].contains c

/-- The words of a text: the pieces between spaces and punctuation. -/
def lexemes (s : List Char) : List (List Char) :=
  (split isDelimiter s).filter (!·.isEmpty)

/-- A text that starts with a delimiter, or is empty. -/
def startsApart (s : List Char) : Bool := s.head?.all isDelimiter

/-- A text that ends with a delimiter, or is empty. -/
def endsApart (s : List Char) : Bool := s.getLast?.all isDelimiter

theorem split_append_cons {p : Char → Bool} {d : Char} (hd : p d = true) (s t : List Char) :
    split p (s ++ d :: t) = split p s ++ split p t := by
  induction s with
  | nil => simp [split, hd]
  | cons c cs ih =>
    rw [List.cons_append, split, split, ih]
    cases hc : p c
    · -- the character joins the first piece, which is one of `cs`
      obtain ⟨w, ws, hw⟩ := List.exists_cons_of_ne_nil (split_ne_nil p cs)
      simp [hw]
    · simp

theorem split_of_forall_not {p : Char → Bool} {s : List Char} (h : ∀ c ∈ s, p c = false) : split p s = [s] := by
  induction s with
  | nil => rfl
  | cons c cs ih =>
    rw [split, h c List.mem_cons_self, ih fun d hd => h d (List.mem_cons_of_mem c hd)]
    rfl

theorem lexemes_append_cons {d : Char} (hd : isDelimiter d = true) (s t : List Char) :
    lexemes (s ++ d :: t) = lexemes s ++ lexemes t := by
  rw [lexemes, split_append_cons hd, List.filter_append]
  rfl

theorem lexemes_cons {d : Char} (hd : isDelimiter d = true) (t : List Char) :
    lexemes (d :: t) = lexemes t :=
  lexemes_append_cons hd [] t

theorem lexemes_append_singleton {d : Char} (hd : isDelimiter d = true) (s : List Char) :
    lexemes (s ++ [d]) = lexemes s := by
  rw [lexemes_append_cons hd]
  exact List.append_nil _

/-- Texts that meet at a delimiter share no word. -/
theorem lexemes_append {s t : List Char} (h : endsApart s = true ∨ startsApart t = true) :
    lexemes (s ++ t) = lexemes s ++ lexemes t := by
  rcases h with h | h
  · rcases List.eq_nil_or_concat s with rfl | ⟨s', d, rfl⟩
    · rfl
    · have hd : isDelimiter d = true := by simpa [endsApart] using h
      rw [List.concat_eq_append, List.append_assoc, lexemes_append_singleton hd]
      exact lexemes_append_cons hd s' t
  · cases t with
    | nil => rw [List.append_nil]; exact (List.append_nil _).symm
    | cons d t =>
      have hd : isDelimiter d = true := by simpa [startsApart] using h
      rw [lexemes_append_cons hd, lexemes_cons hd]

/-- A text of delimiters only has no words. -/
theorem lexemes_eq_nil {s : List Char} (h : ∀ c ∈ s, isDelimiter c = true) : lexemes s = [] := by
  induction s with
  | nil => rfl
  | cons c cs ih =>
    rw [lexemes_cons (h c List.mem_cons_self)]
    exact ih fun d hd => h d (List.mem_cons_of_mem c hd)

/-- A text without delimiters is one word. -/
theorem lexemes_of_forall_not {s : List Char} (hs : s ≠ []) (h : ∀ c ∈ s, isDelimiter c = false) :
    lexemes s = [s] := by
  simp [lexemes, split_of_forall_not h, hs]

theorem startsApart_append {s t : List Char} (hs : startsApart s = true) (ht : startsApart t = true) :
    startsApart (s ++ t) = true := by
  cases s with
  | nil => exact ht
  | cons c cs => exact hs

theorem startsApart_append_of_ne_nil {s t : List Char} (hne : s ≠ []) (hs : startsApart s = true) :
    startsApart (s ++ t) = true := by
  cases s with
  | nil => exact absurd rfl hne
  | cons c cs => exact hs

theorem endsApart_append {s t : List Char} (hne : t ≠ []) (ht : endsApart t = true) :
    endsApart (s ++ t) = true := by
  rcases List.eq_nil_or_concat t with rfl | ⟨t', d, rfl⟩
  · exact absurd rfl hne
  · rw [List.concat_eq_append, ← List.append_assoc]
    simpa [endsApart] using ht

/-! ### Outside of quotes -/

theorem startsApart_outside {s : List Char} (h : startsApart s = true) :
    startsApart (outside false s) = true := by
  cases s with
  | nil => rfl
  | cons c cs =>
    have hc : isDelimiter c = true := by simpa [startsApart] using h
    have hne : c ≠ '"' := by
      rintro rfl
      exact absurd hc (by decide)
    rw [outside, if_neg hne, if_neg Bool.false_ne_true]
    exact h

/-- A delimiter at the end of a text is outside when the quotes of the text are closed. -/
theorem endsApart_outside {s : List Char} (h : endsApart s = true) (he : EvenQuotes s) :
    endsApart (outside false s) = true := by
  rcases List.eq_nil_or_concat s with rfl | ⟨s', d, rfl⟩
  · rfl
  · rw [List.concat_eq_append] at h he ⊢
    have hd : isDelimiter d = true := by simpa [endsApart] using h
    have hne : '"' ≠ d := by
      rintro rfl
      exact absurd hd (by decide)
    have hs' : EvenQuotes s' := by
      unfold EvenQuotes at he ⊢
      rwa [List.count_append, List.count_singleton, if_neg (by simpa using Ne.symm hne), Nat.add_zero] at he
    have hlast : '"' ∉ [d] := by simpa using hne
    rw [hs'.outside_append, outside_of_notMem hlast]
    exact endsApart_append (List.cons_ne_nil d []) (by simpa [endsApart] using hd)

/-! ### The vocabulary -/

/-- The keywords of statements, clauses and conditions. -/
def keywords : List String :=
  ["select", "first", "skip", "distinct", "from", "inner", "left", "right", "cross", "join", "lateral",
    "on", "true", "where", "group", "by", "having", "union", "all", "order", "asc", "desc", "offset",
    "rows", "fetch", "only", "with", "lock", "insert", "into", "values", "update", "set", "delete",
    "returning", "as", "cast", "extract", "and", "or", "not", "in", "is", "null", "exists", "RAND"]

/-- The words of the dialect: keywords, the names of the aggregate functions and of the parts of a date, and
the words of the operators. -/
def vocabulary : List String :=
  keywords ++ AggregateFunc.all.map AggregateFunc.keyword ++ DatePart.all.map DatePart.keyword ++
    Operator.all.flatMap fun op => (lexemes op.symbol.toList).map String.ofList

/-- A decimal number. -/
def IsDecimal (w : List Char) : Prop := w ≠ [] ∧ ∀ c ∈ w, c.isDigit = true

/-- A word of the dialect, or a decimal number. -/
def Known (w : List Char) : Prop := String.ofList w ∈ vocabulary ∨ IsDecimal w

instance : DecidablePred IsDecimal := fun w =>
  decidable_of_iff (w ≠ [] ∧ w.all Char.isDigit = true) (by simp [IsDecimal])

instance : DecidablePred Known := fun w => by unfold Known; infer_instance

theorem known_of_mem_operator (op : Operator) {w : List Char} (h : w ∈ lexemes op.symbol.toList) :
    Known w := by
  refine Or.inl (List.mem_append_right _ ?_)
  exact List.mem_flatMap.2 ⟨op, Operator.mem_all op, List.mem_map_of_mem h⟩

/-! ### Parentheses -/

/-- No parenthesis closes that was not opened, and none stays open. -/
structure Balanced (s : List Char) : Prop where
  /-- Along the way, no more have closed than have opened. -/
  opened : ∀ t, t <+: s → t.count ')' ≤ t.count '('
  /-- At the end, all have closed. -/
  closed : s.count '(' = s.count ')'

theorem balanced_of_notMem {s : List Char} (ho : '(' ∉ s) (hc : ')' ∉ s) : Balanced s where
  opened := by
    intro t ht
    rw [List.count_eq_zero.2 fun h => hc (ht.subset h)]
    exact Nat.zero_le _
  closed := by rw [List.count_eq_zero.2 ho, List.count_eq_zero.2 hc]

theorem balanced_nil : Balanced [] := balanced_of_notMem (by simp) (by simp)

theorem prefix_append_cases {s t u : List Char} (h : u <+: s ++ t) :
    u <+: s ∨ ∃ v, u = s ++ v ∧ v <+: t := by
  rcases List.prefix_or_prefix_of_prefix h (List.prefix_append s t) with h' | ⟨v, rfl⟩
  · exact Or.inl h'
  · exact Or.inr ⟨v, rfl, (List.prefix_append_right_inj s).1 h⟩

theorem Balanced.append {s t : List Char} (hs : Balanced s) (ht : Balanced t) : Balanced (s ++ t) where
  opened := by
    intro u hu
    rcases prefix_append_cases hu with h | ⟨v, rfl, h⟩
    · exact hs.opened u h
    · have := hs.closed
      have := ht.opened v h
      rw [List.count_append, List.count_append]
      omega
  closed := by rw [List.count_append, List.count_append, hs.closed, ht.closed]

/-- A text between one that opens a parenthesis and one that closes it. -/
theorem Balanced.enclosed {l s r : List Char} (hs : Balanced s) (hlo : l.count '(' = 1)
    (hlc : l.count ')' = 0) (hro : r.count '(' = 0) (hrc : r.count ')' = 1) : Balanced (l ++ s ++ r) where
  opened := by
    intro u hu
    rw [List.append_assoc] at hu
    rcases prefix_append_cases hu with h | ⟨v, rfl, hv⟩
    · -- nothing has closed yet
      have : u.count ')' ≤ l.count ')' := h.sublist.count_le ')'
      omega
    · rcases prefix_append_cases hv with h | ⟨w, rfl, h⟩
      · have := hs.opened v h
        rw [List.count_append, List.count_append]
        omega
      · have := hs.closed
        have : w.count ')' ≤ r.count ')' := h.sublist.count_le ')'
        simp only [List.count_append]
        omega
  closed := by
    have := hs.closed
    simp only [List.count_append]
    omega

end SqlQuery.Text
