import Mathlib.Data.List.Basic
import SqlQuery.Proofs.Lexical.Blanks
import SqlQuery.Proofs.Lexical.Words
import SqlQuery.Text.Case

/-!
# Words in lower case

Texts may differ in the case of their letters and in the blanks between their words.  What they then have in common
are their words in lower case, and these are a text of their own.

* `lower_of_mem_lower` — a letter in lower case is its own lower-case form;
* `lower_of_isPlain` — most characters below 0xC0 are their own;
* `folded` — a text in lower case, whichever of the two small sigmas stands in it;
* `words_intercalate` — words with a space between them are words again;
* `foldedWords`, `foldedWords_intercalate` — the words of a text in lower case, and **their words**, which they are.
-/

namespace SqlQuery.Text

/-! ### Lower-case forms -/

namespace CaseRange

/-- The lower-case form of a number of the range. -/
def lowered (r : CaseRange) (n : Nat) : Nat := (n + r.shift).toNat

/-- The lower-case forms of the range are all below some numbers or all above. -/
def avoids (r : CaseRange) (first last : Nat) : Bool :=
  Nat.blt (r.lowered r.last) first || Nat.blt last (r.lowered r.first)

/-- The lower-case forms of the range are no letters of the other one: they lie elsewhere, or in its gaps. -/
def apart (r q : CaseRange) : Bool :=
  r.avoids q.first q.last ||
    (q.step == 2 && (r.first == r.last || r.step == 2) && (r.lowered r.first - q.first) % 2 == 1)

variable {r q : CaseRange} {n m : Nat}

theorem lower?_eq_some (h : r.lower? n = some m) :
    r.first ≤ n ∧ n ≤ r.last ∧ (n - r.first) % r.step = 0 ∧ r.lowered n = m := by
  unfold lower? at h
  split at h
  · next hn => exact ⟨hn.1, hn.2.1, hn.2.2, Option.some.inj h⟩
  · exact nomatch h

theorem lowered_mono (h : n ≤ m) : r.lowered n ≤ r.lowered m := by
  unfold lowered
  omega

theorem notMem_of_avoids {first last : Nat} (h : r.avoids first last = true) (hn : r.lower? n = some m) :
    ¬ (first ≤ m ∧ m ≤ last) := by
  obtain ⟨hfirst, hlast, -, rfl⟩ := lower?_eq_some hn
  have hlow := lowered_mono (r := r) hfirst
  have hhigh := lowered_mono (r := r) hlast
  simp only [avoids, Bool.or_eq_true, Nat.blt_eq] at h
  omega

theorem lower?_of_apart (h : r.apart q = true) (hn : r.lower? n = some m) : q.lower? m = none := by
  rw [Option.eq_none_iff_forall_ne_some]
  intro k hk
  obtain ⟨hq, hq', hstep, -⟩ := lower?_eq_some hk
  simp only [apart, Bool.or_eq_true, Bool.and_eq_true, beq_iff_eq] at h
  obtain h | ⟨⟨hgap, hr⟩, hodd⟩ := h
  · exact notMem_of_avoids h hn ⟨hq, hq'⟩
  · -- the form is an odd number of places into the range, where there is a gap
    obtain ⟨hfirst, hlast, hrstep, rfl⟩ := lower?_eq_some hn
    have heven : (n - r.first) % 2 = 0 := by
      obtain hr | hr := hr
      · omega
      · rwa [hr] at hrstep
    rw [hgap] at hstep
    unfold lowered at *
    omega

end CaseRange

/-- The blank characters by their numbers. -/
def blankRanges : List (Nat × Nat) :=
  [(0x09, 0x0D), (0x20, 0x20), (0x85, 0x85), (0xA0, 0xA0), (0x1680, 0x1680), (0x2000, 0x200A), (0x2028, 0x2029),
    (0x202F, 0x202F), (0x205F, 0x205F), (0x3000, 0x3000)]

theorem isBlank_iff_ranges {c : Char} : isBlank c = true ↔ ∃ e ∈ blankRanges, e.1 ≤ c.toNat ∧ c.toNat ≤ e.2 := by
  simp [isBlank, blankRanges]
  omega

theorem apart_caseRanges : (caseRanges.all fun r => caseRanges.all r.apart) = true := by decide +kernel

/-- A lower-case form is a character, but not a blank and not the one letter that becomes two. -/
theorem avoids_caseRanges : (caseRanges.all fun r => Nat.blt (r.lowered r.last) 0x110000 && r.avoids 0xD800 0xDFFF &&
    r.avoids 0x130 0x130 && blankRanges.all fun e => r.avoids e.1 e.2) = true := by
  decide +kernel

section Letters

variable {c d : Char} {r : CaseRange}

theorem toNat_ofNat_of_lower? (hr : r ∈ caseRanges) {n m : Nat} (h : r.lower? n = some m) :
    (Char.ofNat m).toNat = m := by
  have hall := List.all_eq_true.1 avoids_caseRanges r hr
  simp only [Bool.and_eq_true, Nat.blt_eq] at hall
  have hsurrogate := CaseRange.notMem_of_avoids hall.1.1.2 h
  obtain ⟨-, hlast, -, rfl⟩ := CaseRange.lower?_eq_some h
  have hhigh := CaseRange.lowered_mono (r := r) hlast
  have hvalid : (r.lowered n).isValidChar := by
    unfold Nat.isValidChar
    omega
  rw [Char.ofNat, dif_pos hvalid]
  rfl

/-- A letter of the table has a lower-case form by its range, another character has itself. -/
theorem lower_cases (c : Char) : (c.toNat = 0x130 ∧ lower c = ['i', Char.ofNat 0x307]) ∨ lower c = [c] ∨
    ∃ r ∈ caseRanges, ∃ d : Char, r.lower? c.toNat = some d.toNat ∧ lower c = [d] := by
  unfold lower
  split
  · next h => exact Or.inl ⟨h, rfl⟩
  · split
    · next n h =>
      obtain ⟨r, hr, hn⟩ := List.exists_of_findSome?_eq_some h
      refine Or.inr (Or.inr ⟨r, hr, Char.ofNat n, ?_, rfl⟩)
      rw [toNat_ofNat_of_lower? hr hn, hn]
    · exact Or.inr (Or.inl rfl)

/-- What holds of the forms in the table, and of a character that has no other, holds of all lower-case forms. -/
theorem forall_mem_lower {P : Char → Prop} (hi : P 'i' ∧ P (Char.ofNat 0x307)) (hself : lower c = [c] → P c)
    (htable : ∀ r ∈ caseRanges, ∀ d : Char, r.lower? c.toNat = some d.toNat → P d) : ∀ d ∈ lower c, P d := by
  obtain ⟨-, hc⟩ | hc | ⟨r, hr, d, hd, hc⟩ := lower_cases c
  · rw [hc, List.forall_mem_cons, List.forall_mem_singleton]
    exact hi
  · rw [hc, List.forall_mem_singleton]
    exact hself hc
  · rw [hc, List.forall_mem_singleton]
    exact htable r hr d hd

/-- **Lower case is lower case.**  A lower-case form is its own lower-case form. -/
theorem lower_of_mem_lower : ∀ d ∈ lower c, lower d = [d] := by
  refine forall_mem_lower (by decide) id fun r hr d hd => ?_
  have hall := List.all_eq_true.1 avoids_caseRanges r hr
  simp only [Bool.and_eq_true] at hall
  have hdotted := CaseRange.notMem_of_avoids hall.1.2 hd
  have hapart := List.all_eq_true.1 (List.all_eq_true.1 apart_caseRanges r hr)
  obtain ⟨hd', -⟩ | hd' | ⟨q, hq, e, he, -⟩ := lower_cases d
  · exact absurd ⟨Nat.le_of_eq hd'.symm, Nat.le_of_eq hd'⟩ hdotted
  · exact hd'
  · rw [CaseRange.lower?_of_apart (hapart q hq) hd] at he
    exact nomatch he

theorem isBlank_of_mem_lower (h : isBlank c = false) : ∀ d ∈ lower c, isBlank d = false := by
  refine forall_mem_lower (by decide) (fun _ => h) fun r hr d hd => ?_
  have hall := List.all_eq_true.1 avoids_caseRanges r hr
  simp only [Bool.and_eq_true, List.all_eq_true] at hall
  rw [Bool.eq_false_iff, Ne, isBlank_iff_ranges]
  rintro ⟨e, he, hle⟩
  exact CaseRange.notMem_of_avoids (hall.2 e he) hd hle

theorem lower_ne_nil (c : Char) : lower c ≠ [] := by
  obtain ⟨-, hc⟩ | hc | ⟨r, -, d, -, hc⟩ := lower_cases c <;> rw [hc] <;> exact List.cons_ne_nil _ _

end Letters

/-- The characters below all letters of the table but the 26 Latin ones. -/
def isPlain (c : Char) : Bool :=
  Nat.blt c.toNat 0x41 || (Nat.blt 0x5A c.toNat && Nat.blt c.toNat 0xC0)

theorem lower_of_isPlain {c : Char} (h : isPlain c = true) : lower c = [c] := by
  have hranges : (caseRanges.all fun r =>
      Nat.ble 0xC0 r.first || Nat.ble 0x41 r.first && Nat.ble r.last 0x5A) = true := by
    decide +kernel
  simp only [isPlain, Bool.or_eq_true, Bool.and_eq_true, Nat.blt_eq] at h
  obtain ⟨hc, -⟩ | hc | ⟨r, hr, d, hd, -⟩ := lower_cases c
  · omega
  · exact hc
  · have hrange := List.all_eq_true.1 hranges r hr
    simp only [Bool.or_eq_true, Bool.and_eq_true, Nat.ble_eq] at hrange
    obtain ⟨hfirst, hlast, -, -⟩ := CaseRange.lower?_eq_some hd
    omega

theorem lowerAll_of_isPlain {s : List Char} (h : ∀ c ∈ s, isPlain c = true) : lowerAll s = s := by
  unfold lowerAll
  rw [List.flatMap_congr fun c hc => lower_of_isPlain (h c hc), List.flatMap_singleton']

/-! ### Folding -/

/-- The small sigma has another form at the end of a word; here it has one. -/
def oneSigma (c : Char) : Char :=
  if c = 'ς' then 'σ' else c

/-- A text in lower case.  Which small sigma stands for a capital one depends on its place, so both count as one. -/
def folded (s : List Char) : List Char :=
  (lowerAll s).map oneSigma

theorem oneSigma_oneSigma (c : Char) : oneSigma (oneSigma c) = oneSigma c := by
  unfold oneSigma
  by_cases h : c = 'ς'
  · rw [if_pos h]
    rfl
  · rw [if_neg h, if_neg h]

theorem mem_folded {s : List Char} {d : Char} (h : d ∈ folded s) : ∃ c ∈ s, ∃ e ∈ lower c, oneSigma e = d := by
  obtain ⟨e, he, rfl⟩ := List.mem_map.1 h
  obtain ⟨c, hc, he⟩ := List.mem_flatMap.1 he
  exact ⟨c, hc, e, he, rfl⟩

/-- What is in lower case already stays as it is. -/
theorem folded_folded (s : List Char) : folded (folded s) = folded s := by
  have hone : ∀ d ∈ folded s, lower d = [d] ∧ oneSigma d = d := by
    intro d hd
    obtain ⟨c, -, e, he, rfl⟩ := mem_folded hd
    refine ⟨?_, oneSigma_oneSigma e⟩
    unfold oneSigma
    split
    · decide
    · exact lower_of_mem_lower e he
  have hlower : lowerAll (folded s) = folded s := by
    unfold lowerAll
    rw [List.flatMap_congr fun d hd => (hone d hd).1, List.flatMap_singleton']
  rw [folded, hlower]
  exact (List.map_congr_left fun d hd => (hone d hd).2).trans (List.map_id _)

theorem folded_ne_nil {s : List Char} (h : s ≠ []) : folded s ≠ [] := by
  obtain ⟨c, cs, rfl⟩ := List.exists_cons_of_ne_nil h
  intro hnil
  rw [folded, List.map_eq_nil_iff, lowerAll, List.flatMap_eq_nil_iff] at hnil
  exact lower_ne_nil c (hnil c List.mem_cons_self)

theorem isBlank_of_mem_folded {s : List Char} (hs : ∀ c ∈ s, isBlank c = false) :
    ∀ d ∈ folded s, isBlank d = false := by
  intro d hd
  obtain ⟨c, hc, e, he, rfl⟩ := mem_folded hd
  unfold oneSigma
  split
  · decide
  · exact isBlank_of_mem_lower (hs c hc) e he

/-! ### Words -/

/-- A word: not empty and without blanks. -/
structure Unbroken (w : List Char) : Prop where
  nonempty : w ≠ []
  solid : ∀ c ∈ w, isBlank c = false

theorem Unbroken.folded {w : List Char} (h : Unbroken w) : Unbroken (folded w) :=
  ⟨folded_ne_nil h.nonempty, isBlank_of_mem_folded h.solid⟩

/-- Splitting leaves out the characters it splits at. -/
theorem flatten_split (p : Char → Bool) (s : List Char) : (split p s).flatten = s.filter (!p ·) := by
  induction s with
  | nil => rfl
  | cons c cs ih =>
    obtain ⟨v, vs, hcs⟩ := List.exists_cons_of_ne_nil (split_ne_nil p cs)
    rw [hcs] at ih
    rw [split, hcs, List.filter_cons]
    cases p c with
    | true => exact ih
    | false => exact congrArg (c :: ·) ih

/-- The characters of the words are those of the text but for its blanks. -/
theorem flatten_words (s : List Char) : (words s).flatten = s.filter (!isBlank ·) := by
  rw [words, List.flatten_filter_not_isEmpty, flatten_split]

theorem unbroken_of_mem_words {s w : List Char} (h : w ∈ words s) : Unbroken w := by
  obtain ⟨hw, hne⟩ := List.mem_filter.1 h
  exact ⟨by simpa using hne, forall_mem_split s w hw⟩

theorem words_of_unbroken {w : List Char} (h : Unbroken w) : words w = [w] := by
  simp [words, split_of_forall_not h.solid, h.nonempty]

/-- Words with a space between them are words again. -/
theorem words_intercalate {ws : List (List Char)} (h : ∀ w ∈ ws, Unbroken w) : words ([' '].intercalate ws) = ws := by
  induction ws with
  | nil => rfl
  | cons w ws ih =>
    rw [List.forall_mem_cons] at h
    cases ws with
    | nil => simpa [List.intercalate] using words_of_unbroken h.1
    | cons v vs =>
      have hwords : words (w ++ ' ' :: [' '].intercalate (v :: vs)) =
          words w ++ words ([' '].intercalate (v :: vs)) := by
        rw [words, split_append_cons (by decide), List.filter_append]
        rfl
      rw [intercalate_cons_cons, List.append_assoc, List.singleton_append, hwords, words_of_unbroken h.1, ih h.2]
      rfl

/-- Of a text and of its words with a space between them, the same is left without blanks. -/
theorem filter_intercalate_words (s : List Char) :
    ([' '].intercalate (words s)).filter (!isBlank ·) = s.filter (!isBlank ·) := by
  rw [← flatten_words, ← flatten_words, words_intercalate fun w => unbroken_of_mem_words]

theorem mem_of_mem_words {s w : List Char} (h : w ∈ words s) : ∀ c ∈ w, c ∈ s := by
  intro c hc
  have hmem : c ∈ (words s).flatten := List.mem_flatten.2 ⟨w, h, hc⟩
  rw [flatten_words] at hmem
  exact (List.mem_filter.1 hmem).1

theorem flatMap_intercalate {α β : Type} (g : α → List β) (sep : List α) (ws : List (List α)) :
    (sep.intercalate ws).flatMap g = (sep.flatMap g).intercalate (ws.map (·.flatMap g)) := by
  induction ws with
  | nil => rfl
  | cons w ws ih =>
    cases ws with
    | nil => simp [List.intercalate]
    | cons v vs =>
      rw [intercalate_cons_cons, List.flatMap_append, List.flatMap_append, ih]
      exact (intercalate_cons_cons _ _ _ _).symm

/-- Words become lower-case words with the same spaces between them. -/
theorem lowerAll_intercalate (ws : List (List Char)) :
    lowerAll ([' '].intercalate ws) = [' '].intercalate (ws.map lowerAll) := by
  have hspace : [' '].flatMap lower = [' '] := by decide
  rw [lowerAll, flatMap_intercalate, hspace]
  rfl

theorem folded_intercalate (ws : List (List Char)) :
    folded ([' '].intercalate ws) = [' '].intercalate (ws.map folded) := by
  have hspace : [' '].flatMap (fun c => [oneSigma c]) = [' '] := by decide
  rw [folded, lowerAll_intercalate, List.map_eq_flatMap, flatMap_intercalate, hspace, List.map_map]
  refine congrArg _ (List.map_congr_left fun w _ => ?_)
  rw [folded, List.map_eq_flatMap]
  rfl

/-- The words of a text in lower case. -/
def foldedWords (s : List Char) : List (List Char) :=
  (words s).map folded

theorem foldedWords_intercalate (s : List Char) : foldedWords ([' '].intercalate (foldedWords s)) = foldedWords s := by
  have hwords : ∀ w ∈ foldedWords s, Unbroken w := by
    intro w hw
    obtain ⟨v, hv, rfl⟩ := List.mem_map.1 hw
    exact (unbroken_of_mem_words hv).folded
  rw [foldedWords, words_intercalate hwords, foldedWords, List.map_map]
  exact List.map_congr_left fun w _ => folded_folded w

end SqlQuery.Text
