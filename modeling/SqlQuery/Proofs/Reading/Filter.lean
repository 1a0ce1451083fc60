import SqlQuery.Proofs.Acceptance.Silent
import SqlQuery.Proofs.Reading.Spelling

/-!
# The meaning of a tree of conditions

A tree of conditions has a truth value for every choice of truth values for its single conditions, and so has its
compiled text, read as SQL reads it.  They are the same.

* `Filter.leaves`, `Filter.value` — the single conditions of a tree in their order, and its truth value;
* `Means` — a text that can be read as a condition with a given value, with the lemmas for the ways in which the
  compiler puts texts together;
* `Filter.means` — a compiled tree is such a text, by induction on the tree;
* `Filter.fragment_reading` — **the compiled text has one reading, and its value is that of the tree**.
-/

namespace SqlQuery

open SqlQuery.Fragment SqlQuery.Text

/-! ### Trees -/

mutual

/-- The single conditions of a tree, in their order. -/
def Filter.leaves : Filter → List Predicate
  | .and children => Filter.allLeaves children
  | .or children => Filter.allLeaves children
  | .not inner => inner.leaves
  | .predicate c => [c]
  | .raw _ _ => []

def Filter.allLeaves : List Filter → List Predicate
  | [] => []
  | f :: fs => f.leaves ++ Filter.allLeaves fs

end

mutual

/-- A tree without SQL of the caller's own in the place of a condition. -/
def Filter.Plain : Filter → Prop
  | .and children => Filter.AllPlain children
  | .or children => Filter.AllPlain children
  | .not inner => inner.Plain
  | .predicate _ => True
  | .raw _ _ => False

def Filter.AllPlain : List Filter → Prop
  | [] => True
  | f :: fs => f.Plain ∧ Filter.AllPlain fs

end

mutual

/-- The truth value of a tree whose single conditions are numbered from `i`.  Empty trees are left out, so they
have no say in a group. -/
def Filter.value (ν : Nat → Truth) (i : Nat) : Filter → Truth
  | .and children => Filter.allValue ν .and i children
  | .or children => Filter.allValue ν .or i children
  | .not inner => (inner.value ν i).not
  | .predicate _ => ν i
  | .raw _ _ => .unknown

def Filter.allValue (ν : Nat → Truth) (k : Connective) (i : Nat) : List Filter → Truth
  | [] => Truth.unit k
  | f :: fs =>
    if f.isEmpty then Filter.allValue ν k i fs
    else (f.value ν i).join k (Filter.allValue ν k (i + f.leaves.length) fs)

end

/-- How strongly the text of a group holds together: a group of one is as strong as its condition. -/
def Filter.groupLevel (k : Connective) (fs : List Filter) : Level :=
  if (Filter.and fs).needsParens then k.level else .negation

/-- How strongly the text of a tree holds together. -/
def Filter.level : Filter → Level
  | .and children => Filter.groupLevel .and children
  | .or children => Filter.groupLevel .or children
  | _ => .negation

/-! ### Empty trees -/

mutual

theorem Filter.leaves_of_isEmpty : ∀ c : Filter, c.isEmpty = true → c.leaves = []
  | .and cs, h | .or cs, h => Filter.allLeaves_of_allEmpty cs h
  | .not c, h => Filter.leaves_of_isEmpty c h
  | .predicate _, h | .raw _ _, h => nomatch h

theorem Filter.allLeaves_of_allEmpty : ∀ cs : List Filter, Filter.allEmpty cs = true → Filter.allLeaves cs = []
  | [], _ => rfl
  | c :: cs, h => by
    rw [Filter.allEmpty, Bool.and_eq_true] at h
    rw [Filter.allLeaves, Filter.leaves_of_isEmpty c h.1, Filter.allLeaves_of_allEmpty cs h.2]
    rfl

end

theorem Filter.allValue_of_allEmpty (ν : Nat → Truth) (k : Connective) (i : Nat) {cs : List Filter}
    (h : Filter.allEmpty cs = true) : Filter.allValue ν k i cs = Truth.unit k := by
  induction cs with
  | nil => rfl
  | cons c cs ih =>
    rw [Filter.allEmpty, Bool.and_eq_true] at h
    rw [Filter.allValue, if_pos h.1, ih h.2]

theorem Filter.length_filter_eq_zero {cs : List Filter} :
    (cs.filter (!·.isEmpty)).length = 0 ↔ Filter.allEmpty cs = true := by
  rw [Filter.allEmpty_eq_all, List.length_eq_zero_iff, List.filter_eq_nil_iff, List.all_eq_true]
  simp

section Groups

variable {c : Filter} (cs : List Filter) (k : Connective)

theorem Filter.groupLevel_cons_of_isEmpty (h : c.isEmpty = true) :
    Filter.groupLevel k (c :: cs) = Filter.groupLevel k cs := by
  rw [Filter.groupLevel, Filter.groupLevel, Filter.needsParens, Filter.needsParens,
    List.filter_cons_of_neg (by simp [h])]

/-- A group is of its connective's level when there are conditions besides the first. -/
theorem Filter.groupLevel_cons (h : c.isEmpty = false) :
    Filter.groupLevel k (c :: cs) = if Filter.allEmpty cs then .negation else k.level := by
  have hcount : _ ↔ Filter.allEmpty cs = true := Filter.length_filter_eq_zero
  rw [Filter.groupLevel, Filter.needsParens, List.filter_cons_of_pos (by simp [h]), List.length_cons]
  cases he : Filter.allEmpty cs with
  | true =>
    rw [hcount.2 he]
    rfl
  | false =>
    have hne : (cs.filter (!·.isEmpty)).length ≠ 0 := fun h0 => by
      rw [hcount.1 h0] at he
      cases he
    have hmany : 1 < (cs.filter (!·.isEmpty)).length + 1 := by omega
    rw [decide_eq_true hmany]
    rfl

theorem Filter.allValue_cons_of_isEmpty (i : Nat) (h : c.isEmpty = true) :
    (fun ν => Filter.allValue ν k i (c :: cs)) = fun ν => Filter.allValue ν k i cs := by
  funext ν
  rw [Filter.allValue, if_pos h]

theorem Filter.allValue_cons (i : Nat) (h : c.isEmpty = false) :
    (fun ν => Filter.allValue ν k i (c :: cs)) =
      fun ν => (c.value ν i).join k (Filter.allValue ν k (i + c.leaves.length) cs) := by
  funext ν
  rw [Filter.allValue, h, if_neg Bool.false_ne_true]

end Groups

theorem Filter.plain_of_mem {cs : List Filter} (h : Filter.AllPlain cs) : ∀ c ∈ cs, c.Plain := by
  induction cs with
  | nil => exact fun _ hc => nomatch hc
  | cons c cs ih => exact List.forall_mem_cons.2 ⟨h.1, ih h.2⟩

/-- A tree without SQL of the caller's own has none without text. -/
theorem Filter.Plain.worded {c : Filter} (h : c.Plain) : c.Worded := by
  intro sql bindings hraw
  induction hraw with
  | refl => exact h.elim
  | and hc _ ih => exact ih (Filter.plain_of_mem h _ hc)
  | or hc _ ih => exact ih (Filter.plain_of_mem h _ hc)
  | not _ ih => exact ih h

/-! ### Texts with a meaning -/

/-- The text can be read at a level as a condition with the value `v`, when the single conditions in it are
numbered from `i`. -/
def Means (p : Paging) (cs : List Predicate) (i : Nat) (s : List Char) (l : Level)
    (v : (Nat → Truth) → Truth) : Prop :=
  ∃ ts e, Spells p cs i ts s ∧ Reads l ts e ∧ ∀ ν, e.value ν = v ν

namespace Means

variable {p : Paging} {cs ds : List Predicate} {i : Nat} {s t : List Char} {l : Level}
  {v w : (Nat → Truth) → Truth}

theorem atom {c : Predicate} {f : Fragment} (h : c.fragment p = .ok f) (i : Nat) :
    Means p [c] i f.chars .negation (fun ν => ν i) := by
  have hs := Spells.atom (n := i) h .nil
  rw [List.append_nil] at hs
  exact ⟨_, _, hs, .primary (.atom i), fun _ => rfl⟩

theorem toLevel (k : Connective) (h : Means p cs i s .negation v) : Means p cs i s k.level v := by
  obtain ⟨ts, e, hs, hr, hv⟩ := h
  exact ⟨ts, e, hs, hr.toLevel k, hv⟩

theorem parens (h : Means p cs i s l v) :
    Means p cs i ("(".toList ++ s ++ ")".toList) .primary v := by
  obtain ⟨ts, e, hs, hr, hv⟩ := h
  have hclosed := (Spells.word (t := .lparen) rfl hs).append (Spells.singleton (t := .rparen) rfl)
  rw [List.append_nil] at hclosed
  exact ⟨_, e, hclosed, .parens hr.loosen, hv⟩

theorem not (h : Means p cs i s .negation v) :
    Means p cs i ("not ".toList ++ s) .negation (fun ν => (v ν).not) := by
  obtain ⟨ts, e, hs, hr, hv⟩ := h
  refine ⟨_, _, .word (t := .not) rfl hs, .not hr, fun ν => ?_⟩
  rw [Formula.value, hv]

theorem primary (h : Means p cs i s .primary v) : Means p cs i s .negation v := by
  obtain ⟨ts, e, hs, hr, hv⟩ := h
  exact ⟨ts, e, hs, .primary hr, hv⟩

/-- Two conditions of one level, connected. -/
theorem join {k : Connective} (hs : Means p cs i s k.level v) (ht : Means p ds (i + cs.length) t k.level w) :
    Means p (cs ++ ds) i (s ++ (" " ++ k.keyword ++ " ").toList ++ t) k.level
      (fun ν => (v ν).join k (w ν)) := by
  obtain ⟨ts, d, hts, hd, hv⟩ := hs
  obtain ⟨us, e, hus, he, hw⟩ := ht
  obtain ⟨f, hf, hvalue⟩ := he.append rfl hd
  have hspells := hts.append (Spells.word (t := .connective k) rfl hus)
  rw [← List.append_assoc] at hspells
  refine ⟨_, f, hspells, hf, fun ν => ?_⟩
  rw [hvalue, hv, hw]

end Means

/-! ### Compiled trees -/

theorem Filter.level_of_needsParens_eq_false {c : Filter} (h : c.needsParens = false) : c.level = .negation := by
  cases c with
  | and cs | or cs =>
    have hg : (Filter.and cs).needsParens = false := h
    rw [Filter.level, Filter.groupLevel, hg, if_neg Bool.false_ne_true]
  | not | predicate | raw => rfl

section Compiled

variable {p : Paging}

/-- In parentheses where it needs them, a tree can stand beside any connective. -/
theorem Means.grouped {c : Filter} {f : Fragment} {cs : List Predicate} {i : Nat} {v : (Nat → Truth) → Truth}
    (h : Means p cs i f.chars c.level v) : Means p cs i (c.grouped f).chars .negation v := by
  unfold Filter.grouped
  split
  · rw [parenthesized, chars_append, chars_append, chars_word, chars_word]
    exact h.parens.primary
  · next hp =>
    rw [Bool.not_eq_true] at hp
    rwa [← Filter.level_of_needsParens_eq_false hp]

theorem Filter.group_of_allEmpty {cs : List Filter} (h : Filter.allEmpty cs = true) :
    Filter.group p cs = .ok [] := by
  induction cs with
  | nil => rfl
  | cons c cs ih =>
    rw [Filter.allEmpty, Bool.and_eq_true] at h
    rw [Filter.group_cons_of_isEmpty h.1, ih h.2]

theorem joined_cons_of_ne_nil (w : String) (f : Fragment) {fs : List Fragment} (h : fs ≠ []) :
    joined w (f :: fs) = f ++ word w ++ joined w fs := by
  obtain ⟨g, gs, rfl⟩ := List.exists_cons_of_ne_nil h
  exact intercalate_cons_cons _ _ _ _

mutual

/-- A compiled tree can be read as a condition with the value of the tree. -/
theorem Filter.means : ∀ (c : Filter) (_ : c.Plain) (_ : c.isEmpty = false) {f : Fragment}
    (_ : c.fragment p = .ok f) (i : Nat), Means p c.leaves i f.chars c.level (fun ν => c.value ν i)
  | .and cs, hp, he, f, hf, i => by
    obtain ⟨gs, hgs, rfl⟩ := Filter.fragment_and_eq_ok.1 hf
    exact Filter.group_means .and cs hp he hgs i
  | .or cs, hp, he, f, hf, i => by
    obtain ⟨gs, hgs, rfl⟩ := Filter.fragment_or_eq_ok.1 hf
    exact Filter.group_means .or cs hp he hgs i
  | .not c, hp, he, f, hf, i => by
    obtain ⟨g, hg, rfl⟩ := Filter.fragment_not_eq_ok.1 hf
    have hplain : c.Plain := hp
    have hc := Filter.means c hplain he hg i
    have hblank : g.isBlank = false := by
      rw [Bool.eq_false_iff, ne_eq, Filter.isBlank_iff_silent c hg]
      intro hs
      exact absurd (Filter.isEmpty_of_silent c hplain.worded hs) (Bool.eq_false_iff.1 he)
    rw [negation, hblank, if_neg Bool.false_ne_true, chars_word_append, parenthesized, chars_append,
      chars_append, chars_word, chars_word]
    exact hc.parens.primary.not
  | .predicate c, _, _, f, hf, i => Means.atom hf i
  | .raw _ _, hp, _, _, _, _ => hp.elim

theorem Filter.group_means (k : Connective) : ∀ (cs : List Filter) (_ : Filter.AllPlain cs)
    (_ : Filter.allEmpty cs = false) {fs : List Fragment} (_ : Filter.group p cs = .ok fs) (i : Nat),
    Means p (Filter.allLeaves cs) i (joined (" " ++ k.keyword ++ " ") fs).chars (Filter.groupLevel k cs)
      (fun ν => Filter.allValue ν k i cs)
  | [], _, he, _, _, _ => nomatch he
  | c :: cs, hp, he, fs, hf, i => by
    cases hc : c.isEmpty with
    | true =>
      -- the group is the same without its first tree
      rw [Filter.allEmpty, hc, Bool.true_and] at he
      rw [Filter.group_cons_of_isEmpty hc] at hf
      rw [Filter.allLeaves, Filter.leaves_of_isEmpty c hc, List.nil_append,
        Filter.groupLevel_cons_of_isEmpty cs k hc, Filter.allValue_cons_of_isEmpty cs k i hc]
      exact Filter.group_means k cs hp.2 he hf i
    | false =>
      obtain ⟨g, gs, hg, hgs, rfl⟩ := (Filter.group_cons_eq_ok hc).1 hf
      have hfirst := (Filter.means c hp.1 hc hg i).grouped
      rw [Filter.allLeaves, Filter.groupLevel_cons cs k hc, Filter.allValue_cons cs k i hc]
      cases hcs : Filter.allEmpty cs with
      | true =>
        -- a group of one is written like its condition
        rw [Filter.group_of_allEmpty hcs] at hgs
        cases hgs
        have hone : joined (" " ++ k.keyword ++ " ") [c.grouped g] = c.grouped g := by
          simp [joined, List.intercalate]
        have hvalue : (fun ν => (c.value ν i).join k (Filter.allValue ν k (i + c.leaves.length) cs)) =
            fun ν => c.value ν i := by
          funext ν
          rw [Filter.allValue_of_allEmpty ν k _ hcs, Truth.join_unit]
        rw [Filter.allLeaves_of_allEmpty cs hcs, List.append_nil, hone, hvalue, if_pos rfl]
        exact hfirst
      | false =>
        have hne : gs ≠ [] := by
          rintro rfl
          have hcount := Filter.length_filter_eq_zero.1 (Filter.length_group hgs).symm
          rw [hcs] at hcount
          exact nomatch hcount
        have hrest : Means p (Filter.allLeaves cs) (i + c.leaves.length)
            (joined (" " ++ k.keyword ++ " ") gs).chars k.level
            (fun ν => Filter.allValue ν k (i + c.leaves.length) cs) := by
          have h := Filter.group_means k cs hp.2 hcs hgs (i + c.leaves.length)
          unfold Filter.groupLevel at h
          split at h
          · exact h
          · exact h.toLevel k
        rw [joined_cons_of_ne_nil _ _ hne, chars_append, chars_append, chars_word,
          if_neg Bool.false_ne_true]
        exact (hfirst.toLevel k).join hrest

end

end Compiled

/-- **The meaning of a compiled tree.**  Taken with the text of each single condition as one word, the text of a
tree is one list of words; these have one reading; and whatever the truth values of the single conditions are, its
value is that of the tree. -/
theorem Filter.fragment_reading {p : Paging} {c : Filter} {f : Fragment} (hp : c.Plain)
    (h : c.fragment p = .ok f) (ht : Fragment.text f ≠ "") :
    (∃ ts, Spells p c.leaves 0 ts f.chars) ∧ ∀ ts, Spells p c.leaves 0 ts f.chars →
      (∃ e, Reads .disjunction ts e) ∧ ∀ e, Reads .disjunction ts e → ∀ ν, e.value ν = c.value ν 0 := by
  have he : c.isEmpty = false := by
    rw [Bool.eq_false_iff]
    intro he
    have hblank := (Filter.isBlank_iff_silent c h).2 (Filter.silent_of_isEmpty c he)
    rw [isBlank_iff, Fragment.chars, String.toList_eq_nil_iff] at hblank
    exact ht hblank
  obtain ⟨ts, e, hs, hr, hv⟩ := Filter.means c hp he h 0
  refine ⟨⟨ts, hs⟩, fun us hus => ?_⟩
  obtain rfl := hs.unique hus
  refine ⟨⟨e, hr.loosen⟩, fun e' he' ν => ?_⟩
  rw [he'.unique hr, hv]

/-- Groups of one around groups of two, a negation, and empty trees between them. -/
def nestedGroups : Filter :=
  .and [.or [.or [.predicate (.isNull "a" false), .predicate (.isNull "b" false)]], .or [],
    .not (.and [.predicate (.isNull "c" true), .not (.and []), .predicate (.isNull "d" false)])]

theorem fragment_reading_nestedGroups : nestedGroups.Plain ∧ ∃ f, nestedGroups.fragment .modern = .ok f ∧
    Fragment.text f = "(\"a\" is null or \"b\" is null) and not (\"c\" is not null and \"d\" is null)" ∧
    (∃ ts, Spells .modern nestedGroups.leaves 0 ts f.chars) ∧
    ∀ ts, Spells .modern nestedGroups.leaves 0 ts f.chars → (∃ e, Reads .disjunction ts e) ∧
      ∀ e, Reads .disjunction ts e → ∀ ν,
        e.value ν = ((ν 0).join .or (ν 1)).join .and ((ν 2).join .and (ν 3)).not := by
  have hp : nestedGroups.Plain := by simp [nestedGroups, Filter.Plain, Filter.AllPlain]
  obtain ⟨f, hf⟩ : ∃ f, nestedGroups.fragment .modern = .ok f := ⟨_, rfl⟩
  have ht : Fragment.text f =
      "(\"a\" is null or \"b\" is null) and not (\"c\" is not null and \"d\" is null)" := by
    cases hf
    rfl
  have hne : Fragment.text f ≠ "" := by
    rw [ht]
    decide
  obtain ⟨hs, hread⟩ := Filter.fragment_reading hp hf hne
  refine ⟨hp, f, hf, ht, hs, fun ts hts => ⟨(hread ts hts).1, fun e he ν => ?_⟩⟩
  rw [(hread ts hts).2 e he ν]
  simp [nestedGroups, Filter.value, Filter.allValue, Filter.isEmpty, Filter.allEmpty, Filter.leaves,
    Filter.allLeaves, Truth.join_unit]

end SqlQuery
