import SqlQuery.Proofs.Compiled
import SqlQuery.Proofs.Lexical.Words
import SqlQuery.Proofs.Verbatim

/-!
# The form of compiled SQL

`Formed R f` is the grammar of what the compiler writes, coarse enough to be kept by every clause: phrases of
the dialect, quoted names, placeholders and the caller's own SQL, put one after the other where no two words
can run together, and in parentheses.  Of the caller's own SQL it asks `R`.

* `Query.fragment_formed` — **every compiled statement is formed**, if `R` holds of all SQL of the caller's own
  in the description.

What is proved of formed fragments by induction on the grammar holds of every statement, without another look at
the compiler.
-/

namespace SqlQuery

open SqlQuery.Fragment SqlQuery.Text

/-! ### Phrases -/

/-- A phrase of the dialect: no quotes and no placeholders in it, and only known words. -/
def Phrase (w : String) : Prop :=
  '"' ∉ w.toList ∧ '?' ∉ w.toList ∧ ∀ t ∈ lexemes w.toList, Known t

/-- A phrase without parentheses. -/
def FlatPhrase (w : String) : Prop := Phrase w ∧ '(' ∉ w.toList ∧ ')' ∉ w.toList

/-- A phrase that can stand between any two others. -/
def Glue (w : String) : Prop :=
  FlatPhrase w ∧ w.toList ≠ [] ∧ startsApart w.toList = true ∧ endsApart w.toList = true

/-- Two phrases of which the first opens a parenthesis and the second closes it. -/
def Encloses (l r : String) : Prop :=
  (Phrase l ∧ endsApart l.toList = true ∧ l.toList.count '(' = 1 ∧ l.toList.count ')' = 0) ∧
    Phrase r ∧ startsApart r.toList = true ∧ r.toList.count '(' = 0 ∧ r.toList.count ')' = 1

instance : DecidablePred Phrase := fun w => by unfold Phrase; infer_instance

instance : DecidablePred FlatPhrase := fun w => by unfold FlatPhrase; infer_instance

instance : DecidablePred Glue := fun w => by unfold Glue; infer_instance

instance (l r : String) : Decidable (Encloses l r) := by unfold Encloses; infer_instance

/-! ### The text of a fragment as characters -/

namespace Fragment

/-- The text of a fragment, character by character. -/
def chars (f : Fragment) : List Char := (text f).toList

@[simp] theorem chars_nil : chars [] = [] := rfl

@[simp] theorem chars_append (f g : Fragment) : chars (f ++ g) = chars f ++ chars g := by
  simp [chars, String.toList_append]

theorem text_singleton (x : Piece) : text [x] = x.text := by
  simp [text]

theorem text_word (w : String) : text (word w) = w := text_singleton _

theorem chars_singleton (x : Piece) : chars [x] = x.text.toList := by
  rw [chars, text_singleton]

theorem chars_cons (x : Piece) (f : Fragment) : chars (x :: f) = x.text.toList ++ chars f := by
  rw [← chars_singleton, ← chars_append]
  rfl

/-- The values of fragments with a separator between them. -/
theorem params_joined (w : String) (fs : List Fragment) : params (joined w fs) = fs.flatMap params := by
  induction fs with
  | nil => rfl
  | cons f fs ih =>
    cases fs with
    | nil => simp [joined, List.intercalate]
    | cons g fs =>
      unfold joined at ih ⊢
      rw [intercalate_cons_cons, params_append, params_append, params_word, ih, List.append_nil]
      rfl

theorem text_joined (w : String) (fs : List Fragment) : text (joined w fs) = w.intercalate (fs.map text) := by
  induction fs with
  | nil => rfl
  | cons f fs ih =>
    cases fs with
    | nil => simp [joined, List.intercalate]
    | cons g fs =>
      unfold joined at ih ⊢
      rw [intercalate_cons_cons, text_append, text_append, text_word, ih]
      exact String.intercalate_cons_cons.symm

@[simp] theorem chars_word (w : String) : chars (word w) = w.toList := chars_singleton _

theorem chars_word_append (w : String) (f : Fragment) : chars (word w ++ f) = w.toList ++ chars f := by
  rw [chars_append, chars_word]

theorem isBlank_iff {f : Fragment} : f.isBlank = true ↔ chars f = [] := by
  induction f with
  | nil => simp [isBlank]
  | cons x f ih =>
    have hx : x.text.isEmpty = true ↔ x.text.toList = [] := by
      rw [String.isEmpty_iff, ← String.toList_eq_nil_iff]
    rw [chars_cons, List.append_eq_nil_iff, ← ih, ← hx]
    simp [isBlank]

theorem text_eq_empty_iff {f : Fragment} : text f = "" ↔ f.isBlank = true := by
  rw [isBlank_iff, chars, String.toList_eq_nil_iff]

theorem isBlank_append (f g : Fragment) : (f ++ g).isBlank = (f.isBlank && g.isBlank) := List.all_append

theorem isBlank_word (w : String) : (word w).isBlank = w.isEmpty := Bool.and_true _

theorem isBlank_parenthesized (f : Fragment) : (parenthesized f).isBlank = false := by
  rw [parenthesized, isBlank_append, isBlank_append, isBlank_word]
  rfl

/-- Fragments with a separator between them have no text when there is at most one, and that has none. -/
theorem isBlank_joined {w : String} (hw : w.isEmpty = false) (fs : List Fragment) :
    (joined w fs).isBlank = true ↔ fs.length ≤ 1 ∧ ∀ f ∈ fs, f.isBlank = true := by
  match fs with
  | [] => simp [joined, List.intercalate, isBlank]
  | [f] => simp [joined, List.intercalate]
  | f :: g :: fs =>
    have hsep : (joined w (f :: g :: fs)).isBlank = false := by
      rw [joined, intercalate_cons_cons, isBlank_append, isBlank_append, isBlank_word, hw, Bool.and_false,
        Bool.false_and]
    rw [hsep]
    simp

end Fragment

/-! ### The grammar -/

/-- The form of compiled SQL. -/
inductive Formed (R : Verbatim → Prop) : Fragment → Prop
  | nil : Formed R []
  | word {w : String} : Phrase w → Balanced w.toList → Formed R (word w)
  | name (s : String) : Formed R (name s)
  | part (s : String) : Formed R (part s)
  | bound {v : Value} : v.isScalar = true → Formed R [.bound v]
  | verbatim {sql : String} {bindings : List Value} : R { sql, bindings } →
      Formed R [.verbatim sql bindings]
  | append {f g : Fragment} : Formed R f → Formed R g →
      endsApart f.chars = true ∨ startsApart g.chars = true → Formed R (f ++ g)
  | enclosed {l r : String} {f : Fragment} : Encloses l r → Formed R f →
      Formed R (Fragment.word l ++ f ++ Fragment.word r)

namespace Formed

variable {R : Verbatim → Prop} {f g : Fragment}

theorem flat {w : String} (h : FlatPhrase w) : Formed R (Fragment.word w) :=
  .word h.1 (balanced_of_notMem h.2.1 h.2.2)

theorem lead {w : String} (h : FlatPhrase w) (he : endsApart w.toList = true) (hg : Formed R g) :
    Formed R (Fragment.word w ++ g) :=
  (flat h).append hg (Or.inl (by rwa [chars_word]))

theorem follow (hf : Formed R f) (hg : Formed R g) (hs : startsApart g.chars = true) : Formed R (f ++ g) :=
  hf.append hg (Or.inr hs)

theorem glue {w : String} (hf : Formed R f) (hw : Glue w) (hg : Formed R g) :
    Formed R (f ++ Fragment.word w ++ g) := by
  obtain ⟨hflat, hne, hs, he⟩ := hw
  refine (hf.follow (flat hflat) (by rwa [chars_word])).append hg (Or.inl ?_)
  rw [chars_append, chars_word]
  exact endsApart_append hne he

theorem parenthesized (hf : Formed R f) : Formed R (parenthesized f) :=
  .enclosed (by decide) hf

theorem joined {w : String} (hw : Glue w) : ∀ {fs : List Fragment}, (∀ g ∈ fs, Formed R g) →
    Formed R (joined w fs)
  | [], _ => .nil
  | [g], h => by simpa [Fragment.joined, List.intercalate] using h g
  | g :: g' :: fs, h => by
    have htail : Formed R (Fragment.joined w (g' :: fs)) :=
      joined hw fun x hx => h x (List.mem_cons_of_mem g hx)
    rw [Fragment.joined, intercalate_cons_cons]
    exact (h g List.mem_cons_self).glue hw htail

theorem clause {w : String} (hw : FlatPhrase (" " ++ w ++ " ")) (hf : Formed R f) :
    Formed R (clause w f) := by
  unfold Fragment.clause
  split
  · exact hf
  · refine lead hw ?_ hf
    rw [String.toList_append]
    exact endsApart_append (by decide) (by decide)

end Formed

theorem startsApart_clause (w : String) (f : Fragment) : startsApart (clause w f).chars = true := by
  unfold clause
  split
  · next h => rw [isBlank_iff.1 h]; rfl
  · rw [chars_word_append]
    simp [String.toList_append, startsApart]
    rfl

end SqlQuery
