import SqlQuery.Proofs.Lexical.Quotes

/-!
# Placeholders in a text

A question mark is bare when an even number of double quotes stand before it; only those are placeholders.

* `bareMarks` — how many placeholders a text has;
* `fill` — the text with texts put in place of its placeholders, all at once;
* `fill_append` — **filling goes piece by piece**: each part of a text takes the texts for its own placeholders.
-/

namespace SqlQuery.Text

/-- The number of question marks outside of double quotes. -/
def bareMarks (s : List Char) : Nat := (outside false s).count '?'

/-- The text with the given ones in place of its bare question marks, in their order.  What is put in is not read
again, so its own quotes and question marks do not count. -/
def fill (inside : Bool) : List Char → List (List Char) → List Char
  | [], _ => []
  | c :: cs, ts =>
    if c = '"' then c :: fill (!inside) cs ts
    else if c = '?' ∧ inside = false then ts.headD [c] ++ fill inside cs ts.tail
    else c :: fill inside cs ts

/-- What one character adds to the placeholders of a text. -/
theorem count_outside_cons (b : Bool) (c : Char) (cs : List Char) : (outside b (c :: cs)).count '?' =
    (outside (if c = '"' then !b else b) cs).count '?' + if c = '?' ∧ b = false then 1 else 0 := by
  rw [outside]
  by_cases hq : c = '"'
  · subst hq
    simp
  · rw [if_neg hq, if_neg hq]
    cases b
    · rw [if_neg Bool.false_ne_true, List.count_cons]
      simp
    · simp

/-- **Filling goes piece by piece**, where the first texts are as many as the first part has placeholders. -/
theorem fill_append (b : Bool) (s t : List Char) (ts us : List (List Char))
    (h : (outside b s).count '?' = ts.length) :
    fill b (s ++ t) (ts ++ us) = fill b s ts ++ fill (endsInside b s) t us := by
  induction s generalizing b ts with
  | nil =>
    obtain rfl : ts = [] := List.length_eq_zero_iff.1 (by simpa [outside] using h.symm)
    rfl
  | cons c cs ih =>
    rw [count_outside_cons] at h
    rw [List.cons_append, fill, fill, endsInside]
    by_cases hq : c = '"'
    · have hne : ¬ (c = '?' ∧ b = false) := by
        rintro ⟨rfl, -⟩
        exact absurd hq (by decide)
      rw [if_pos hq, if_neg hne, Nat.add_zero] at h
      rw [if_pos hq, if_pos hq, if_pos hq, ih _ _ h, List.cons_append]
    · rw [if_neg hq] at h
      rw [if_neg hq, if_neg hq, if_neg hq]
      by_cases hm : c = '?' ∧ b = false
      · -- the placeholder takes the first text
        rw [if_pos hm] at h
        obtain ⟨u, ts', rfl⟩ := List.exists_cons_of_length_eq_add_one h.symm
        have hrest : (outside b cs).count '?' = ts'.length := by
          rw [List.length_cons] at h
          omega
        rw [if_pos hm, if_pos hm, List.cons_append, List.tail_cons, List.tail_cons, List.headD_cons,
          List.headD_cons, ih _ _ hrest, List.append_assoc]
      · rw [if_neg hm, Nat.add_zero] at h
        rw [if_neg hm, if_neg hm, ih _ _ h, List.cons_append]

theorem EvenQuotes.bareMarks_append {s : List Char} (h : EvenQuotes s) (t : List Char) :
    bareMarks (s ++ t) = bareMarks s + bareMarks t := by
  rw [bareMarks, h.outside_append, List.count_append]
  rfl

theorem EvenQuotes.fill_append {s : List Char} (h : EvenQuotes s) {ts : List (List Char)}
    (hm : bareMarks s = ts.length) (t : List Char) (us : List (List Char)) :
    fill false (s ++ t) (ts ++ us) = fill false s ts ++ fill false t us := by
  rw [Text.fill_append false s t ts us hm, h.endsInside]

/-- Without texts to put in, nothing changes. -/
theorem fill_nil (b : Bool) (s : List Char) : fill b s [] = s := by
  induction s generalizing b with
  | nil => rfl
  | cons c cs ih =>
    rw [fill]
    split
    · rw [ih]
    · split
      · rw [List.tail_nil, ih]
        rfl
      · rw [ih]

/-- Texts that are not empty do not make a text disappear. -/
theorem fill_eq_nil_iff {b : Bool} {s : List Char} {ts : List (List Char)} (h : ∀ t ∈ ts, t ≠ []) :
    fill b s ts = [] ↔ s = [] := by
  refine ⟨fun hs => ?_, fun hs => by rw [hs, fill]⟩
  cases s with
  | nil => rfl
  | cons c cs =>
    rw [fill] at hs
    split at hs
    · exact nomatch hs
    · split at hs
      · cases ts with
        | nil => exact nomatch hs
        | cons t ts => exact absurd (List.append_eq_nil_iff.1 hs).1 (h t List.mem_cons_self)
      · exact nomatch hs

end SqlQuery.Text
