import SqlQuery.Proofs.Form.Basic

/-!
# Conditions without text

A tree of conditions can compile to nothing: empty groups do, and so does SQL of the caller's own that is empty,
alone or under negations and in groups of one.

* `Filter.Silent` — such a tree, told from its shape;
* `Predicate.isBlank_fragment` — a single condition always has text;
* `Filter.Within`, `Filter.Worded` — the trees inside of a tree; a tree where all SQL of the caller's own has text, which
  is silent only when it is empty (`Filter.silent_iff_isEmpty`);
* `Filter.isBlank_iff_silent` — **a tree compiles to no text exactly when it is silent**.
-/

namespace SqlQuery

open SqlQuery.Fragment SqlQuery.Text

mutual

/-- A tree that adds no text: its conditions are SQL without text, and no connective stands between two of them. -/
def Filter.Silent : Filter → Prop
  | .and children => Filter.needsParens (.and children) = false ∧ Filter.AllSilent children
  | .or children => Filter.needsParens (.or children) = false ∧ Filter.AllSilent children
  | .not inner => inner.Silent
  | .predicate _ => False
  | .raw sql _ => sql = ""

def Filter.AllSilent : List Filter → Prop
  | [] => True
  | f :: fs => f.Silent ∧ Filter.AllSilent fs

end

/-- A condition that is missing or silent. -/
def Filter.OptSilent (f : Option Filter) : Prop := ∀ c ∈ f, c.Silent

/-! ### Text of conditions -/

section Text

variable {p : Paging}

theorem isBlank_spacedSymbol (op : Operator) : op.spacedSymbol.isBlank = false := by
  cases op <;> decide

theorem isBlank_comparison {lhs f : Fragment} {op : Operator} {v : Value} {operand : Except Error Fragment}
    {bounds : Option (Except Error (Fragment × Fragment))} (h : comparison lhs op v operand bounds = .ok f) :
    f.isBlank = false := by
  have hop := isBlank_spacedSymbol op
  rcases comparison_eq_ok.1 h with ⟨-, low, high, -, rfl⟩ | ⟨-, -, rfl⟩ | ⟨-, -, -, rhs, -, rfl⟩
  · simp [isBlank_append, hop]
  · have hnull : (word " is null").isBlank = false ∧ (word " is not null").isBlank = false := by decide
    unfold compareNull
    split
    · rw [isBlank_append, hnull.1, Bool.and_false]
    · rw [isBlank_append, hnull.2, Bool.and_false]
    · rw [isBlank_append, hnull.2, Bool.and_false]
    · split <;> simp [isBlank_append, hop]
  · simp [isBlank_append, hop]

/-- A single condition has text. -/
theorem Predicate.isBlank_fragment {c : Predicate} {f : Fragment} (h : c.fragment p = .ok f) :
    f.isBlank = false := by
  cases c with
  | compare c op v negated =>
    obtain ⟨o, -, g, hg, rfl⟩ := Predicate.fragment_compare_eq_ok.1 h
    unfold negatedComparison
    split
    · rw [isBlank_append, isBlank_parenthesized, Bool.and_false]
    · exact isBlank_comparison hg
  | isIn c vs negated =>
    obtain ⟨gs, -, rfl⟩ := Predicate.fragment_isIn_eq_ok.1 h
    unfold membership
    split
    · cases negated <;> decide
    · rw [isBlank_append, isBlank_parenthesized, Bool.and_false]
  | inSelect c q negated =>
    obtain ⟨inner, -, rfl⟩ := Predicate.fragment_inSelect_eq_ok.1 h
    rw [isBlank_append, isBlank_parenthesized, Bool.and_false]
  | isNull c negated =>
    cases h
    have hnull : (word "null").isBlank = false := by decide
    rw [isBlank_append, hnull, Bool.and_false]
  | datePart c part op v =>
    obtain ⟨o, -, hg⟩ := Predicate.fragment_datePart_eq_ok.1 h
    exact isBlank_comparison hg
  | rowExists q negated =>
    obtain ⟨inner, -, rfl⟩ := Predicate.fragment_rowExists_eq_ok.1 h
    rw [isBlank_append, isBlank_parenthesized, Bool.and_false]

theorem isBlank_negation (f : Fragment) : (negation f).isBlank = f.isBlank := by
  unfold negation
  cases h : f.isBlank
  · rw [if_neg Bool.false_ne_true, isBlank_append, isBlank_parenthesized, Bool.and_false]
  · rw [if_pos rfl, h]

/-- A group has a fragment for each of its trees that are not empty. -/
theorem Filter.length_group {cs : List Filter} {fs : List Fragment} (h : Filter.group p cs = .ok fs) :
    fs.length = (cs.filter (!·.isEmpty)).length := by
  induction cs generalizing fs with
  | nil =>
    cases h
    rfl
  | cons c cs ih =>
    cases he : c.isEmpty with
    | true =>
      rw [Filter.group_cons_of_isEmpty he] at h
      rw [ih h, List.filter_cons_of_neg (by simp [he])]
    | false =>
      obtain ⟨g, gs, -, hgs, rfl⟩ := (Filter.group_cons_eq_ok he).1 h
      rw [List.filter_cons_of_pos (by simp [he]), List.length_cons, List.length_cons, ih hgs]

theorem Filter.needsParens_eq_false {cs : List Filter} :
    (Filter.and cs).needsParens = false ↔ (cs.filter (!·.isEmpty)).length ≤ 1 := by
  rw [Filter.needsParens, decide_eq_false_iff_not, Nat.not_lt]

end Text

/-! ### Silent trees -/

mutual

theorem Filter.silent_of_isEmpty : ∀ c : Filter, c.isEmpty = true → c.Silent
  | .and cs, h => by
    rw [Filter.Silent, Filter.needsParens_eq_false]
    exact Filter.allSilent_of_allEmpty cs h
  | .or cs, h => by
    rw [Filter.Silent]
    exact (Filter.allSilent_of_allEmpty cs h).imp_left Filter.needsParens_eq_false.2
  | .not c, h => Filter.silent_of_isEmpty c h
  | .predicate _, h => nomatch h
  | .raw _ _, h => nomatch h

theorem Filter.allSilent_of_allEmpty : ∀ cs : List Filter, Filter.allEmpty cs = true →
    (cs.filter (!·.isEmpty)).length ≤ 1 ∧ Filter.AllSilent cs
  | [], _ => ⟨Nat.zero_le _, trivial⟩
  | c :: cs, h => by
    rw [Filter.allEmpty, Bool.and_eq_true] at h
    obtain ⟨hlength, hsilent⟩ := Filter.allSilent_of_allEmpty cs h.2
    rw [List.filter_cons_of_neg (by simp [h.1])]
    exact ⟨hlength, Filter.silent_of_isEmpty c h.1, hsilent⟩

end

/-! ### Worded trees -/

namespace Filter

/-- A tree stands inside of another, or is the same. -/
inductive Within (d : Filter) : Filter → Prop
  | refl : Within d d
  | and {c : Filter} {cs : List Filter} : c ∈ cs → Within d c → Within d (and cs)
  | or {c : Filter} {cs : List Filter} : c ∈ cs → Within d c → Within d (or cs)
  | not {c : Filter} : Within d c → Within d (not c)

/-- All SQL of the caller's own that stands as a condition has text. -/
def Worded (c : Filter) : Prop := ∀ sql bindings, Within (raw sql bindings) c → sql ≠ ""

theorem Within.trans {b c d : Filter} (h : Within c d) (h' : Within b c) : Within b d := by
  induction h with
  | refl => exact h'
  | and hc _ ih => exact .and hc ih
  | or hc _ ih => exact .or hc ih
  | not _ ih => exact .not ih

theorem Worded.within {c d : Filter} (hc : c.Worded) (h : Within d c) : d.Worded :=
  fun sql bindings hraw => hc sql bindings (h.trans hraw)

theorem worded_and {cs : List Filter} : (and cs).Worded ↔ ∀ c ∈ cs, c.Worded := by
  refine ⟨fun h c hc => h.within (.and hc .refl), fun h sql bindings hraw => ?_⟩
  cases hraw with
  | and hc hraw => exact h _ hc sql bindings hraw

theorem worded_or {cs : List Filter} : (or cs).Worded ↔ ∀ c ∈ cs, c.Worded := by
  refine ⟨fun h c hc => h.within (.or hc .refl), fun h sql bindings hraw => ?_⟩
  cases hraw with
  | or hc hraw => exact h _ hc sql bindings hraw

theorem worded_not {c : Filter} : (not c).Worded ↔ c.Worded := by
  refine ⟨fun h => h.within (.not .refl), fun h sql bindings hraw => ?_⟩
  cases hraw with
  | not hraw => exact h sql bindings hraw

theorem worded_predicate (c : Predicate) : (predicate c).Worded := fun _ _ hraw => nomatch hraw

theorem worded_raw {sql : String} {bindings : List Value} : (raw sql bindings).Worded ↔ sql ≠ "" := by
  refine ⟨fun h => h sql bindings .refl, fun h sql' bindings' hraw => ?_⟩
  cases hraw with
  | refl => exact h

mutual

theorem isEmpty_of_silent : ∀ c : Filter, c.Worded → c.Silent → c.isEmpty = true
  | and cs, hw, hs => allEmpty_of_allSilent cs (worded_and.1 hw) hs.2
  | or cs, hw, hs => allEmpty_of_allSilent cs (worded_or.1 hw) hs.2
  | not c, hw, hs => isEmpty_of_silent c (worded_not.1 hw) hs
  | predicate _, _, hs => hs.elim
  | raw _ _, hw, hs => absurd hs (worded_raw.1 hw)

theorem allEmpty_of_allSilent : ∀ cs : List Filter, (∀ c ∈ cs, c.Worded) → AllSilent cs →
    allEmpty cs = true
  | [], _, _ => rfl
  | c :: cs, hw, hs => by
    rw [List.forall_mem_cons] at hw
    rw [allEmpty, isEmpty_of_silent c hw.1 hs.1, allEmpty_of_allSilent cs hw.2 hs.2]
    rfl

end

/-- A worded tree has text unless its shape is empty. -/
theorem silent_iff_isEmpty {c : Filter} (hw : c.Worded) : c.Silent ↔ c.isEmpty = true :=
  ⟨isEmpty_of_silent c hw, silent_of_isEmpty c⟩

end Filter

/-! ### Compiled trees -/

section Silent

variable {p : Paging}

/-- A group in parentheses is not silent, and has text. -/
theorem Filter.isBlank_grouped {c : Filter} {f : Fragment} (h : f.isBlank = true ↔ c.Silent) :
    (c.grouped f).isBlank = true ↔ c.Silent := by
  unfold Filter.grouped
  split
  · next hp =>
    have hsilent : ¬ c.Silent := by
      cases c with
      | and cs | or cs =>
        rw [Filter.Silent, hp]
        exact fun h => nomatch h.1
      | not | predicate | raw => exact nomatch hp
    rw [isBlank_parenthesized]
    exact ⟨fun h => (nomatch h), fun h => absurd h hsilent⟩
  · exact h

mutual

/-- **A tree compiles to no text exactly when it is silent.** -/
theorem Filter.isBlank_iff_silent : ∀ (c : Filter) {f : Fragment}, c.fragment p = .ok f →
    (f.isBlank = true ↔ c.Silent)
  | .and cs, f, h => by
    obtain ⟨gs, hgs, rfl⟩ := Filter.fragment_and_eq_ok.1 h
    rw [isBlank_joined (by decide), Filter.length_group hgs, Filter.group_isBlank_iff cs hgs, Filter.Silent,
      Filter.needsParens_eq_false]
  | .or cs, f, h => by
    obtain ⟨gs, hgs, rfl⟩ := Filter.fragment_or_eq_ok.1 h
    rw [isBlank_joined (by decide), Filter.length_group hgs, Filter.group_isBlank_iff cs hgs, Filter.Silent,
      ← Filter.needsParens_eq_false]
    rfl
  | .not c, f, h => by
    obtain ⟨g, hg, rfl⟩ := Filter.fragment_not_eq_ok.1 h
    rw [isBlank_negation, Filter.Silent]
    exact Filter.isBlank_iff_silent c hg
  | .predicate c, f, h => by
    rw [Predicate.isBlank_fragment h, Filter.Silent]
    exact ⟨fun h => (nomatch h), False.elim⟩
  | .raw sql bindings, f, h => by
    cases h
    rw [Fragment.isBlank, List.all_cons, List.all_nil, Bool.and_true, Piece.text, String.isEmpty_iff,
      Filter.Silent]

theorem Filter.group_isBlank_iff : ∀ (cs : List Filter) {fs : List Fragment}, Filter.group p cs = .ok fs →
    ((∀ f ∈ fs, f.isBlank = true) ↔ Filter.AllSilent cs)
  | [], fs, h => by
    cases h
    exact ⟨fun _ => trivial, fun _ _ hf => nomatch hf⟩
  | c :: cs, fs, h => by
    rw [Filter.AllSilent]
    cases he : c.isEmpty with
    | true =>
      rw [Filter.group_cons_of_isEmpty he] at h
      rw [Filter.group_isBlank_iff cs h]
      exact ⟨fun hcs => ⟨Filter.silent_of_isEmpty c he, hcs⟩, And.right⟩
    | false =>
      obtain ⟨g, gs, hg, hgs, rfl⟩ := (Filter.group_cons_eq_ok he).1 h
      rw [List.forall_mem_cons, Filter.isBlank_grouped (Filter.isBlank_iff_silent c hg),
        Filter.group_isBlank_iff cs hgs]

end

theorem Filter.optional_isBlank_iff {c : Option Filter} {f : Fragment} (h : Filter.optional p c = .ok f) :
    f.isBlank = true ↔ Filter.OptSilent c := by
  cases c with
  | none =>
    cases h
    exact ⟨fun _ _ hc => (nomatch hc), fun _ => rfl⟩
  | some c =>
    rw [Filter.isBlank_iff_silent c h]
    exact ⟨fun hc _ hd => Option.some.inj hd ▸ hc, fun hc => hc c rfl⟩

end Silent

end SqlQuery
