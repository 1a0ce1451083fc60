import Mathlib.Data.List.Infix

/-!
# What stands before two letters

`Preceded P x y s` says that wherever the letters `x y` stand next to each other in a text, what stands before them
satisfies `P`; with a `P` that never holds, they stand nowhere.  Texts that do not end with `x` can be put before
others (`Preceded.append`), so that such a fact is had piece by piece, and it keeps longer words out of a text
(`Preceded.not_infix`).
-/

namespace SqlQuery.Text

/-- Wherever `x y` stands in the text, the text before it satisfies `P`. -/
def Preceded (P : List Char → Prop) (x y : Char) (s : List Char) : Prop := ∀ a b, s = a ++ x :: y :: b → P a

namespace Preceded

variable {P : List Char → Prop} {x y : Char} {s t : List Char}

theorem iff_take : Preceded P x y s ↔ ∀ n < s.length, [x, y] <+: s.drop n → P (s.take n) := by
  constructor
  · rintro h n - ⟨b, hb⟩
    exact h (s.take n) b ((List.take_append_drop n s).symm.trans (congrArg _ hb.symm))
  · rintro h a b rfl
    have ha := h a.length (by simp)
    rw [List.drop_left, List.take_left] at ha
    exact ha ⟨b, rfl⟩

instance [DecidablePred P] : Decidable (Preceded P x y s) := decidable_of_iff _ iff_take.symm

/-- A text without the first letter. -/
theorem of_notMem (h : x ∉ s) : Preceded P x y s := by
  rintro a b rfl
  exact absurd (List.mem_append_right a List.mem_cons_self) h

theorem append (hP : ∀ a b, P b → P (a ++ b)) (hlast : s.getLast? ≠ some x) (hs : Preceded P x y s)
    (ht : Preceded P x y t) : Preceded P x y (s ++ t) := by
  intro a b h
  rcases List.append_eq_append_iff.1 h with ⟨c, rfl, hc⟩ | ⟨c, rfl, hc⟩
  · exact hP s c (ht c b hc)
  · -- the letters start in the first text, and do not reach out of it
    match c with
    | [] => simpa using hP a [] (ht [] b hc.symm)
    | [d] =>
      obtain rfl : x = d := (List.cons.inj hc).1
      simp at hlast
    | d :: e :: c =>
      obtain ⟨hx, hrest⟩ := List.cons.inj hc
      obtain ⟨hy, -⟩ := List.cons.inj hrest
      exact hs a c (by rw [hx, hy])

/-- A word with the letters in it does not stand in the text, if what it has before them rules `P` out. -/
theorem not_infix (h : Preceded P x y s) {w u v : List Char} (hw : w = u ++ x :: y :: v)
    (hu : ∀ a, ¬ P (a ++ u)) : ¬ w <:+: s := by
  rintro ⟨a, b, hs⟩
  refine hu a (h (a ++ u) (v ++ b) ?_)
  rw [← hs, hw]
  simp only [List.append_assoc, List.cons_append]

end Preceded

end SqlQuery.Text
