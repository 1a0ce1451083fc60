import Mathlib.Algebra.Group.Nat.Defs
import Mathlib.Data.List.TakeWhile
import SqlQuery.Number.Digits
import SqlQuery.Text.Blank

/-!
# Digits

What digits spell, and where the digits in front of a text end.

* `natOf_digits`, `natOf_padded` — the digits of a number spell it, also with zeros in front;
* `length_padded` — how many digits there are then;
* `spanDigits_eq_iff` — the digits in front of a text.
-/

namespace SqlQuery

open SqlQuery.Number SqlQuery.Text

namespace Number

theorem digitValue_of_isDigit {c : Char} (h : c.isDigit = true) : digitValue c = c.toNat - '0'.toNat :=
  if_pos h

/-- What digits spell, from the number that was read before them. -/
theorem foldl_digitValue {ds : List Char} (h : ∀ c ∈ ds, c.isDigit = true) (n : Nat) :
    ds.foldl (fun n c => n * 10 + digitValue c) n = Nat.ofDigitChars 10 ds n := by
  rw [Nat.ofDigitChars_eq_foldl]
  induction ds generalizing n with
  | nil => rfl
  | cons c cs ih =>
    obtain ⟨hc, hcs⟩ := List.forall_mem_cons.1 h
    rw [List.foldl_cons, List.foldl_cons, ih hcs, digitValue_of_isDigit hc, Nat.mul_comm]

theorem isDigit_of_mem_digits {n : Nat} {c : Char} (h : c ∈ digits n) : c.isDigit = true :=
  Nat.isDigit_of_mem_toDigits (by decide) (by decide) h

theorem natOf_digits (n : Nat) : natOf 10 (digits n) = n := by
  rw [natOf, foldl_digitValue fun _ => isDigit_of_mem_digits]
  exact Nat.ofDigitChars_toDigits (by decide) (by decide)

/-- Zeros in front do not count. -/
theorem natOf_zeros_append (k : Nat) (ds : List Char) : natOf 10 (List.replicate k '0' ++ ds) = natOf 10 ds := by
  induction k with
  | zero => rfl
  | succ k ih => exact ih

/-- Zeros at the end multiply. -/
theorem natOf_append_zeros (k : Nat) (ds : List Char) :
    natOf 10 (ds ++ List.replicate k '0') = natOf 10 ds * 10 ^ k := by
  induction k with
  | zero => rw [List.replicate_zero, List.append_nil, Nat.pow_zero, Nat.mul_one]
  | succ k ih =>
    have hzero : digitValue '0' = 0 := rfl
    rw [List.replicate_succ', ← List.append_assoc, natOf_append_singleton, ih, hzero, Nat.pow_succ,
      Nat.mul_assoc, Nat.add_zero]

theorem natOf_padded (width n : Nat) : natOf 10 (padded width n) = n := by
  rw [padded, List.leftpad, natOf_zeros_append, natOf_digits]

theorem isDigit_of_mem_padded {width n : Nat} {c : Char} (h : c ∈ padded width n) : c.isDigit = true := by
  rcases List.mem_append.1 h with h | h
  · rw [List.eq_of_mem_replicate h]
    rfl
  · exact isDigit_of_mem_digits h

theorem length_padded {width n : Nat} (hwidth : 0 < width) (h : n < 10 ^ width) : (padded width n).length = width := by
  have hdigits : (digits n).length ≤ width := (Nat.length_toDigits_le_iff (by decide) hwidth).2 h
  rw [padded, List.length_leftpad]
  omega

theorem padded_ne_nil (width n : Nat) : padded width n ≠ [] := by
  have hdigits : 0 < (digits n).length := Nat.length_toDigits_pos
  intro h
  have hlength : (padded width n).length = 0 := by rw [h]; rfl
  rw [padded, List.length_leftpad] at hlength
  omega

theorem takeWhile_isDigit_padded (width n : Nat) : (padded width n).takeWhile Char.isDigit = padded width n :=
  List.takeWhile_eq_self_iff.2 fun _ => isDigit_of_mem_padded

/-- **The digits in front** are as many as there are: what follows them is no digit. -/
theorem spanDigits_eq_iff {s ds rest : List Char} : spanDigits s = (ds, rest) ↔
    s = ds ++ rest ∧ (∀ c ∈ ds, c.isDigit = true) ∧ ∀ c ∈ rest.head?, c.isDigit = false := by
  constructor
  · intro h
    obtain ⟨rfl, rfl⟩ := Prod.mk.inj h
    refine ⟨List.takeWhile_append_dropWhile.symm, fun c => List.mem_takeWhile_imp, fun c hc => ?_⟩
    have hnot := List.head?_dropWhile_not Char.isDigit s
    rw [hc] at hnot
    simpa using hnot
  · rintro ⟨rfl, hds, hrest⟩
    have hnone : rest.takeWhile Char.isDigit = [] ∧ rest.dropWhile Char.isDigit = rest := by
      cases rest with
      | nil => exact ⟨rfl, rfl⟩
      | cons c cs =>
        have hc : c.isDigit = false := hrest c rfl
        simp [hc]
    rw [spanDigits, List.takeWhile_append_of_pos hds, List.dropWhile_append_of_pos hds, hnone.1, hnone.2,
      List.append_nil]

/-- The digits end where the next character is none. -/
theorem spanDigits_padded (width n : Nat) {rest : List Char} (h : ∀ c ∈ rest.head?, c.isDigit = false) :
    spanDigits (padded width n ++ rest) = (padded width n, rest) :=
  spanDigits_eq_iff.2 ⟨rfl, fun _ => isDigit_of_mem_padded, h⟩

end Number

theorem Text.isBlank_of_isDigit {c : Char} (h : c.isDigit = true) : isBlank c = false := by
  simp only [Char.isDigit, Bool.and_eq_true, decide_eq_true_eq] at h
  have hlow : 48 ≤ c.toNat := h.1
  have hhigh : c.toNat ≤ 57 := h.2
  simp only [isBlank, Bool.or_eq_false_iff, Bool.and_eq_false_iff, decide_eq_false_iff_not, beq_eq_false_iff_ne]
  omega

end SqlQuery
