import Mathlib.Data.List.DropRight
import SqlQuery.Text.Blank

/-!
# What trimming and splitting leave

The functions that skip blanks and split texts, told by their results.

* `Trims`, `trims_iff` — a text without the blanks around it;
* `split_eq_iff` — the pieces between the occurrences of a character;
* `cutFirst?_eq_some_iff`, `cutFirst?_eq_none_iff` — the first place where a text spells a key.
-/

namespace SqlQuery.Text

/-! ### Trimming -/

/-- The second text is the first without the blanks at its ends. -/
structure Trims (s t : List Char) : Prop where
  /-- Only blanks are left out, and only at the ends. -/
  cut : ∃ l r, s = l ++ t ++ r ∧ (∀ c ∈ l, isBlank c = true) ∧ ∀ c ∈ r, isBlank c = true
  head : ∀ c ∈ t.head?, isBlank c = false
  last : ∀ c ∈ t.getLast?, isBlank c = false

theorem trimEnd_eq_rdropWhile (s : List Char) : trimEnd s = s.rdropWhile isBlank := rfl

theorem trimStart_append {l s : List Char} (hl : ∀ c ∈ l, isBlank c = true) : trimStart (l ++ s) = trimStart s :=
  List.dropWhile_append_of_pos hl

theorem trimStart_eq_self {s : List Char} (h : ∀ c ∈ s.head?, isBlank c = false) : trimStart s = s := by
  cases s with
  | nil => rfl
  | cons c cs => exact List.dropWhile_cons_of_neg (by simp [h c rfl])

theorem trimEnd_append {s r : List Char} (hr : ∀ c ∈ r, isBlank c = true) : trimEnd (s ++ r) = trimEnd s := by
  rw [trimEnd, List.reverse_append, List.dropWhile_append_of_pos (by simpa using hr)]
  rfl

theorem trimEnd_eq_self {s : List Char} (h : ∀ c ∈ s.getLast?, isBlank c = false) : trimEnd s = s := by
  rw [trimEnd_eq_rdropWhile, List.rdropWhile_eq_self_iff]
  intro hs
  rw [h _ (List.getLast?_eq_some_getLast hs)]
  exact Bool.false_ne_true

theorem trims_trim (s : List Char) : Trims s (trim s) := by
  have hstart : s.takeWhile isBlank ++ trimStart s = s := List.takeWhile_append_dropWhile
  have hend : trim s ++ (trimStart s).rtakeWhile isBlank = trimStart s := List.rdropWhile_append_rtakeWhile
  refine ⟨⟨s.takeWhile isBlank, (trimStart s).rtakeWhile isBlank, ?_, fun c => List.mem_takeWhile_imp,
    fun c => List.mem_rtakeWhile_imp⟩, fun c hc => ?_, fun c hc => ?_⟩
  · rw [List.append_assoc, hend, hstart]
  · -- what trimming at the end leaves begins as before
    obtain ⟨cs, hcs⟩ := List.head?_eq_some_iff.1 hc
    have hhead : (trimStart s).head? = some c := by
      rw [← hend, hcs]
      rfl
    have hnot := List.head?_dropWhile_not isBlank s
    rw [show s.dropWhile isBlank = trimStart s from rfl, hhead] at hnot
    simpa using hnot
  · obtain ⟨hne, rfl⟩ := List.mem_getLast?_eq_getLast hc
    exact eq_false_of_ne_true (List.rdropWhile_last_not isBlank (trimStart s) hne)

/-- **Trimming.**  A text has one form without blanks around it. -/
theorem trims_iff {s t : List Char} : Trims s t ↔ t = trim s := by
  refine ⟨?_, fun h => h ▸ trims_trim s⟩
  rintro ⟨⟨l, r, rfl, hl, hr⟩, hhead, hlast⟩
  rw [trim, List.append_assoc, trimStart_append hl]
  cases t with
  | nil =>
    have hnothing : trimStart r = [] := List.dropWhile_eq_nil_iff.2 hr
    rw [List.nil_append, hnothing]
    rfl
  | cons c cs => rw [trimStart_eq_self (by simpa using hhead), trimEnd_append hr, trimEnd_eq_self hlast]

theorem trim_trim (s : List Char) : trim (trim s) = trim s := by
  have h := trims_trim s
  exact (trims_iff.1 ⟨⟨[], [], by simp, nofun, nofun⟩, h.head, h.last⟩).symm

theorem Trims.append_left {l s t : List Char} (hl : ∀ c ∈ l, isBlank c = true) (h : Trims s t) : Trims (l ++ s) t := by
  obtain ⟨l', r, rfl, hl', hr⟩ := h.cut
  exact ⟨⟨l ++ l', r, by simp only [List.append_assoc], List.forall_mem_append.2 ⟨hl, hl'⟩, hr⟩, h.head, h.last⟩

theorem Trims.append_right {r s t : List Char} (hr : ∀ c ∈ r, isBlank c = true) (h : Trims s t) : Trims (s ++ r) t := by
  obtain ⟨l, r', rfl, hl, hr'⟩ := h.cut
  exact ⟨⟨l, r' ++ r, by simp only [List.append_assoc], hl, List.forall_mem_append.2 ⟨hr', hr⟩⟩, h.head, h.last⟩

/-! ### Splitting -/

/-- Splitting at a character is the splitting of the library. -/
theorem split_eq_splitOn (c : Char) (s : List Char) : split (· == c) s = s.splitOn c := by
  induction s with
  | nil => rfl
  | cons d ds ih =>
    rw [List.splitOn_cons_eq_if_modifyHead, ← ih, split]
    split
    · rfl
    · cases hds : split (· == c) ds with
      | nil => exact absurd hds (split_ne_nil _ _)
      | cons w ws => rfl

theorem forall_mem_split {p : Char → Bool} (s : List Char) : ∀ w ∈ split p s, ∀ c ∈ w, p c = false := by
  induction s with
  | nil => simp [split]
  | cons c cs ih =>
    obtain ⟨v, vs, hcs⟩ := List.exists_cons_of_ne_nil (split_ne_nil p cs)
    rw [hcs, List.forall_mem_cons] at ih
    rw [split, hcs]
    cases hc : p c with
    | true =>
      rw [if_pos rfl, List.forall_mem_cons, List.forall_mem_cons]
      exact ⟨List.forall_mem_nil _, ih⟩
    | false =>
      rw [if_neg Bool.false_ne_true, List.forall_mem_cons, List.forall_mem_cons]
      exact ⟨⟨hc, ih.1⟩, ih.2⟩

theorem notMem_of_mem_split {c : Char} {s w : List Char} (h : w ∈ split (· == c) s) : c ∉ w := by
  intro hc
  have hne := forall_mem_split s w h c hc
  rw [beq_self_eq_true] at hne
  exact nomatch hne

/-- **Splitting.**  The pieces do not hold the character, and with the character between them they are the text. -/
theorem split_eq_iff {c : Char} {s : List Char} {ws : List (List Char)} :
    split (· == c) s = ws ↔ ws ≠ [] ∧ (∀ w ∈ ws, c ∉ w) ∧ [c].intercalate ws = s := by
  constructor
  · rintro rfl
    refine ⟨split_ne_nil _ _, fun w => notMem_of_mem_split, ?_⟩
    rw [split_eq_splitOn]
    exact List.intercalate_splitOn c
  · rintro ⟨hne, hws, rfl⟩
    rw [split_eq_splitOn]
    exact List.splitOn_intercalate c hws hne

/-! ### The first occurrence of a key -/

section Key

variable {fold : Char → Char} {key s : List Char}

/-- The text begins with the key. -/
theorem map_take_eq_iff : (s.take key.length).map fold = key ↔ ∃ m after, m.map fold = key ∧ s = m ++ after := by
  constructor
  · exact fun h => ⟨s.take key.length, s.drop key.length, h, (List.take_append_drop _ s).symm⟩
  · rintro ⟨m, after, hm, rfl⟩
    rw [← hm, List.length_map, List.take_left]

/-- No place where the text spells the key. -/
theorem cutFirst?_eq_none_iff (hkey : key ≠ []) :
    cutFirst? fold key s = none ↔ ∀ before m after, m.map fold = key → s ≠ before ++ m ++ after := by
  induction s with
  | nil =>
    refine ⟨fun _ before m after hm h => hkey ?_, fun _ => rfl⟩
    rw [← hm, (List.append_eq_nil_iff.1 (List.append_eq_nil_iff.1 h.symm).1).2]
    rfl
  | cons c cs ih =>
    rw [cutFirst?]
    by_cases h : ((c :: cs).take key.length).map fold = key
    · rw [if_pos h]
      obtain ⟨m, after, hm, hs⟩ := map_take_eq_iff.1 h
      exact ⟨nofun, fun hnone => absurd hs (hnone [] m after hm)⟩
    · rw [if_neg h, Option.map_eq_none_iff, ih]
      refine ⟨fun hnone before m after hm hs => ?_, fun hnone before m after hm hs => ?_⟩
      · cases before with
        | nil => exact h (map_take_eq_iff.2 ⟨m, after, hm, hs⟩)
        | cons d before => exact hnone before m after hm (List.cons.inj hs).2
      · exact hnone (c :: before) m after hm (congrArg (c :: ·) hs)

/-- **The first occurrence.**  The text spells the key between the two parts, and at no place before. -/
theorem cutFirst?_eq_some_iff (hkey : key ≠ []) {before after : List Char} :
    cutFirst? fold key s = some (before, after) ↔ ∃ m, m.map fold = key ∧ s = before ++ m ++ after ∧
      ∀ before' m' after', m'.map fold = key → s = before' ++ m' ++ after' → before.length ≤ before'.length := by
  induction s generalizing before with
  | nil =>
    refine ⟨nofun, ?_⟩
    rintro ⟨m, hm, h, -⟩
    rw [(List.append_eq_nil_iff.1 (List.append_eq_nil_iff.1 h.symm).1).2] at hm
    exact absurd hm.symm hkey
  | cons c cs ih =>
    rw [cutFirst?]
    by_cases h : ((c :: cs).take key.length).map fold = key
    · rw [if_pos h, Option.some.injEq, Prod.mk.injEq]
      constructor
      · rintro ⟨rfl, rfl⟩
        exact ⟨_, h, (List.take_append_drop _ _).symm, fun _ _ _ _ _ => Nat.zero_le _⟩
      · rintro ⟨m, hm, hs, hfirst⟩
        obtain rfl : before = [] := List.length_eq_zero_iff.1
          (Nat.le_zero.1 (hfirst [] _ _ h (List.take_append_drop _ _).symm))
        refine ⟨rfl, ?_⟩
        rw [hs, List.nil_append, ← hm, List.length_map, List.drop_left]
    · rw [if_neg h, Option.map_eq_some_iff]
      constructor
      · rintro ⟨⟨b, a⟩, hcut, hpair⟩
        obtain ⟨rfl, rfl⟩ := Prod.mk.inj hpair
        obtain ⟨m, hm, rfl, hfirst⟩ := ih.1 hcut
        refine ⟨m, hm, rfl, fun before' m' after' hm' hs => ?_⟩
        cases before' with
        | nil => exact absurd (map_take_eq_iff.2 ⟨m', after', hm', hs⟩) h
        | cons d before' => exact Nat.succ_le_succ (hfirst before' m' after' hm' (List.cons.inj hs).2)
      · rintro ⟨m, hm, hs, hfirst⟩
        cases before with
        | nil => exact absurd (map_take_eq_iff.2 ⟨m, after, hm, hs⟩) h
        | cons d before =>
          obtain ⟨rfl, hcs⟩ := List.cons.inj hs
          refine ⟨(before, after), ih.2 ⟨m, hm, hcs, fun before' m' after' hm' hs' => ?_⟩, rfl⟩
          exact Nat.le_of_succ_le_succ (hfirst (c :: before') m' after' hm' (congrArg (c :: ·) hs'))

end Key

end SqlQuery.Text
