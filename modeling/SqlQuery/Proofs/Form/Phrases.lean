import SqlQuery.Proofs.Form.Basic

/-!
# The phrases of the dialect

Every phrase that the compiler writes, with the keyword in it where there is a choice of one, and the paging
clauses with their numbers.
-/

namespace SqlQuery

open SqlQuery.Fragment SqlQuery.Text

/-! ### The tables -/

/-- The phrases that stand between two others. -/
def glues : List String :=
  [" ", ", ", " as ", " and ", " or ", " is ", " in ", " on ", " = ", " from ", " set ", " values ",
    " union ", " union all "]

/-- All phrases without parentheses. -/
def phrases : List String :=
  glues ++ ["", "*", "1 = 1", "0 = 1", "null", " is null", " is not null", "not ", "in ", "exists ",
    "select", "select ", "distinct ", " first ", " skip ", " offset ", " rows", " fetch first ", " rows only",
    " where ", " having ", " group by ", " order by ", " asc", " desc", " " ++ lockClause, " on true",
    "insert into ", "update ", "delete from ", " returning ",
    "inner join ", "left join ", "right join ", "cross join ",
    "inner join lateral ", "left join lateral ", "right join lateral ", "cross join lateral "]

/-- The phrases around what they put in parentheses. -/
def enclosures : List (String × String) :=
  [("(", ")"), ("RAND(", ")")] ++ AggregateFunc.all.map (fun func => (func.keyword ++ "(", ") as ")) ++
    DatePart.all.map (fun part => ("cast(", " as " ++ part.keyword ++ ")")) ++
    DatePart.all.map fun part => ("extract(" ++ part.keyword ++ " from ", ")")

theorem flat_phrases : ∀ w ∈ phrases, FlatPhrase w := by decide +kernel

theorem encloses_enclosures : ∀ e ∈ enclosures, Encloses e.1 e.2 := by decide +kernel

theorem FlatPhrase.of_mem {w : String} (h : w ∈ phrases) : FlatPhrase w := flat_phrases w h

theorem Glue.of_mem {w : String} (h : w ∈ glues) : Glue w := by
  have hends : ∀ w ∈ glues, w.toList ≠ [] ∧ startsApart w.toList = true ∧ endsApart w.toList = true := by
    decide
  exact ⟨.of_mem (List.mem_append_left _ h), hends w h⟩

/-! ### Keywords -/

theorem glue_operator (op : Operator) : Glue (" " ++ op.symbol ++ " ") := by
  have hchars : '"' ∉ op.symbol.toList ∧ '?' ∉ op.symbol.toList ∧ '(' ∉ op.symbol.toList ∧
      ')' ∉ op.symbol.toList := by
    cases op <;> decide
  have hspaced : (" " ++ op.symbol ++ " ").toList = ' ' :: (op.symbol.toList ++ [' ']) := by
    rw [String.toList_append, String.toList_append]
    rfl
  have hwords : lexemes (' ' :: (op.symbol.toList ++ [' '])) = lexemes op.symbol.toList := by
    rw [lexemes_cons (by decide), lexemes_append_singleton (by decide)]
  unfold Glue FlatPhrase Phrase
  rw [hspaced, hwords]
  obtain ⟨hq, hm, ho, hc⟩ := hchars
  refine ⟨⟨⟨by simp [hq], by simp [hm], fun t ht => known_of_mem_operator op ht⟩, by simp [ho],
    by simp [hc]⟩, List.cons_ne_nil _ _, rfl, ?_⟩
  exact endsApart_append (s := ' ' :: op.symbol.toList) (by decide) (by decide)

theorem glue_setOp (op : SetOp) : Glue (" " ++ op.keyword ++ " ") := by
  cases op <;> exact .of_mem (by simp [glues, SetOp.keyword])

theorem flat_sortOrder (order : SortOrder) :
    FlatPhrase (" " ++ order.keyword) ∧ startsApart (" " ++ order.keyword).toList = true := by
  cases order <;> exact ⟨.of_mem (by simp [phrases, SortOrder.keyword]), by decide⟩

theorem encloses_aggregate (func : AggregateFunc) : Encloses (func.keyword ++ "(") ") as " :=
  encloses_enclosures (_, _) (by cases func <;> simp [enclosures, AggregateFunc.all])

theorem encloses_cast (part : DatePart) : Encloses "cast(" (" as " ++ part.keyword ++ ")") :=
  encloses_enclosures (_, _) (by cases part <;> simp [enclosures, DatePart.all])

theorem encloses_extract (part : DatePart) : Encloses ("extract(" ++ part.keyword ++ " from ") ")" :=
  encloses_enclosures (_, _) (by cases part <;> simp [enclosures, DatePart.all])

theorem flat_join (kind : JoinKind) :
    FlatPhrase (kind.keyword ++ " join ") ∧ endsApart (kind.keyword ++ " join ").toList = true := by
  cases kind <;> exact ⟨.of_mem (by simp [phrases, JoinKind.keyword]), by decide⟩

theorem flat_lateral (kind : JoinKind) : FlatPhrase (kind.keyword ++ " join lateral ") ∧
    endsApart (kind.keyword ++ " join lateral ").toList = true := by
  cases kind <;> exact ⟨.of_mem (by simp [phrases, JoinKind.keyword]), by decide⟩

theorem phrase_randomOrder : Phrase randomOrder ∧ Balanced randomOrder.toList := by
  obtain ⟨hopen, hclose, hs, hcount⟩ := encloses_enclosures ("RAND(", ")") (by simp [enclosures])
  obtain ⟨⟨hoq, hom, how⟩, he, ho⟩ := hopen
  have hsplit : randomOrder.toList = "RAND(".toList ++ ")".toList := rfl
  refine ⟨?_, ?_⟩
  · unfold Phrase
    rw [hsplit, lexemes_append (Or.inr hs)]
    simp only [List.mem_append, not_or]
    exact ⟨⟨hoq, hclose.1⟩, ⟨hom, hclose.2.1⟩, fun t ht => ht.elim (how t) (hclose.2.2 t)⟩
  · rw [hsplit, ← List.append_nil "RAND(".toList]
    exact balanced_nil.enclosed ho.1 ho.2 hcount.1 hcount.2

theorem flat_where : FlatPhrase (" " ++ "where" ++ " ") := .of_mem (by simp [phrases])

theorem flat_having : FlatPhrase (" " ++ "having" ++ " ") := .of_mem (by simp [phrases])

/-! ### Numbers -/

theorem isDelimiter_of_isDigit {c : Char} (h : c.isDigit = true) : isDelimiter c = false := by
  rw [Bool.eq_false_iff]
  intro hc
  have hmem : c = ' ' ∨ c = '(' ∨ c = ')' ∨ c = ',' ∨ c = '.' ∨ c = '*' ∨ c = '?' := by
    simpa [isDelimiter] using hc
  rcases hmem with rfl | rfl | rfl | rfl | rfl | rfl | rfl <;> exact absurd h (by decide)

/-- A number between two phrases. -/
theorem FlatPhrase.number {l r : String} (hl : FlatPhrase l) (hr : FlatPhrase r)
    (he : endsApart l.toList = true) (hs : startsApart r.toList = true) {n : Int} (hn : 0 ≤ n) :
    FlatPhrase (l ++ toString n ++ r) := by
  obtain ⟨m, rfl⟩ := Int.eq_ofNat_of_zero_le hn
  have htext : (toString (m : Int)).toList = Nat.toDigits 10 m := Nat.toList_repr
  have hdigit : ∀ c ∈ Nat.toDigits 10 m, c.isDigit = true := fun c hc =>
    Nat.isDigit_of_mem_toDigits (by decide) (by decide) hc
  have hno : ∀ c : Char, c.isDigit = false → c ∉ Nat.toDigits 10 m := by
    intro c hc hmem
    rw [hdigit c hmem] at hc
    exact nomatch hc
  have hword : lexemes (Nat.toDigits 10 m) = [Nat.toDigits 10 m] :=
    lexemes_of_forall_not Nat.toDigits_ne_nil fun c hc => isDelimiter_of_isDigit (hdigit c hc)
  obtain ⟨⟨hlq, hlm, hlw⟩, hlo, hlc⟩ := hl
  obtain ⟨⟨hrq, hrm, hrw⟩, hro, hrc⟩ := hr
  unfold FlatPhrase Phrase
  rw [String.toList_append, String.toList_append, htext, lexemes_append (Or.inr hs),
    lexemes_append (Or.inl he), hword]
  simp only [List.mem_append, not_or, List.mem_singleton]
  refine ⟨⟨⟨⟨hlq, hno _ rfl⟩, hrq⟩, ⟨⟨hlm, hno _ rfl⟩, hrm⟩, ?_⟩, ⟨⟨hlo, hno _ rfl⟩, hro⟩,
    ⟨hlc, hno _ rfl⟩, hrc⟩
  rintro t ((ht | rfl) | ht)
  · exact hlw t ht
  · exact Or.inr ⟨Nat.toDigits_ne_nil, hdigit⟩
  · exact hrw t ht

end SqlQuery
