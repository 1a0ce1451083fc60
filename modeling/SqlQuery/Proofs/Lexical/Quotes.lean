import SqlQuery.Identifier

/-!
# Inside and outside of double quotes

A reader of SQL goes through the text from the left and changes sides at every double quote.

* `outside` — the characters outside of the quotes; `endsInside` — the side on which the text ends;
* `EvenQuotes` — a text that ends on the side on which it started, so that texts can be put one after the
  other (`outside_append`);
* `outside_quote` — **identifiers keep to themselves**: outside of its quotes a quoted name has its dots, the
  parts that are a `*` alone and ` as ` before an alias, whatever the caller wrote.
-/

namespace SqlQuery.Text

/-- The characters outside of double quotes, for a text that starts inside of them or not. -/
def outside (inside : Bool) : List Char → List Char
  | [] => []
  | c :: cs =>
    if c = '"' then outside (!inside) cs
    else if inside then outside inside cs
    else c :: outside inside cs

/-- Whether a text ends inside of double quotes. -/
def endsInside (inside : Bool) : List Char → Bool
  | [] => inside
  | c :: cs => endsInside (if c = '"' then !inside else inside) cs

/-- An even number of double quotes. -/
def EvenQuotes (s : List Char) : Prop := s.count '"' % 2 = 0

instance : DecidablePred EvenQuotes := fun s => by unfold EvenQuotes; infer_instance

/-! ### Texts one after the other -/

theorem endsInside_eq (b : Bool) (s : List Char) : endsInside b s = (b ^^ decide (s.count '"' % 2 = 1)) := by
  induction s generalizing b with
  | nil => simp [endsInside]
  | cons c cs ih =>
    rw [endsInside, ih]
    by_cases hc : c = '"'
    · subst hc
      rw [if_pos rfl, List.count_cons_self]
      rcases Nat.mod_two_eq_zero_or_one (cs.count '"') with h | h
      · rw [h, show (cs.count '"' + 1) % 2 = 1 by omega]; simp
      · rw [h, show (cs.count '"' + 1) % 2 = 0 by omega]; simp
    · rw [if_neg hc, List.count_cons_of_ne hc]

theorem EvenQuotes.endsInside {s : List Char} (h : EvenQuotes s) (b : Bool) : endsInside b s = b := by
  unfold EvenQuotes at h
  rw [endsInside_eq, h]
  simp

theorem evenQuotes_nil : EvenQuotes [] := rfl

theorem evenQuotes_of_notMem {s : List Char} (h : '"' ∉ s) : EvenQuotes s := by
  rw [EvenQuotes, List.count_eq_zero.2 h]

theorem EvenQuotes.append {s t : List Char} (hs : EvenQuotes s) (ht : EvenQuotes t) :
    EvenQuotes (s ++ t) := by
  unfold EvenQuotes at *
  rw [List.count_append]
  omega

theorem outside_append (b : Bool) (s t : List Char) :
    outside b (s ++ t) = outside b s ++ outside (endsInside b s) t := by
  induction s generalizing b with
  | nil => rfl
  | cons c cs ih =>
    rw [List.cons_append, outside, outside, endsInside]
    by_cases hc : c = '"'
    · simp only [if_pos hc, ih]
    · simp only [if_neg hc]
      cases b
      · simp only [Bool.false_eq_true, if_false, ih, List.cons_append]
      · simp only [if_true, ih]

theorem EvenQuotes.outside_append {s : List Char} (h : EvenQuotes s) (b : Bool) (t : List Char) :
    outside b (s ++ t) = outside b s ++ outside b t := by
  rw [Text.outside_append, h.endsInside]

theorem outside_of_notMem {s : List Char} (h : '"' ∉ s) : outside false s = s := by
  induction s with
  | nil => rfl
  | cons c cs ih =>
    rw [List.mem_cons, not_or] at h
    rw [outside, if_neg (Ne.symm h.1), if_neg Bool.false_ne_true, ih h.2]

/-! ### Quoted parts -/

open Identifier

/-- A part with its quotes doubled stays inside until the quote that closes it. -/
theorem outside_escape (s t : List Char) : outside true (escape s ++ '"' :: t) = outside false t := by
  induction s with
  | nil => simp [escape, outside]
  | cons c cs ih =>
    rw [escape, List.flatMap_cons, List.append_assoc, ← escape]
    by_cases hc : c = '"'
    · -- the doubled quote leaves the part and enters it again
      simp [hc, outside, ih]
    · simp [hc, outside, ih]

theorem count_escape (s : List Char) : (escape s).count '"' = 2 * s.count '"' := by
  induction s with
  | nil => rfl
  | cons c cs ih =>
    rw [escape, List.flatMap_cons, ← escape, List.count_append, ih, List.count_cons]
    by_cases hc : c = '"'
    · simp [hc]
      omega
    · simp [hc]

theorem evenQuotes_partText (s : List Char) : EvenQuotes (partText s) := by
  unfold partText EvenQuotes
  split
  · next h => subst h; rfl
  · rw [List.cons_append, List.count_cons_self, List.count_append, count_escape,
      List.count_singleton_self]
    omega

/-- What a part leaves outside of quotes: a `*` alone, and nothing else. -/
def bare (s : List Char) : List Char :=
  if s = ['*'] then ['*'] else []

theorem outside_partText (s : List Char) : outside false (partText s) = bare s := by
  unfold partText bare
  split
  · next h => subst h; rfl
  · rw [List.cons_append, outside, if_pos rfl, Bool.not_false, outside_escape, outside]

theorem mem_bare {s : List Char} {c : Char} (h : c ∈ bare s) : c = '*' := by
  unfold bare at h
  split at h
  · exact List.mem_singleton.1 h
  · exact nomatch h

/-! ### Names -/

theorem intercalate_cons_cons {α : Type} (sep x y : List α) (zs : List (List α)) :
    sep.intercalate (x :: y :: zs) = x ++ sep ++ sep.intercalate (y :: zs) := by
  simp [List.intercalate, List.intersperse]

theorem evenQuotes_dotted (parts : List (List Char)) :
    EvenQuotes (['.'].intercalate (parts.map partText)) := by
  induction parts with
  | nil => rfl
  | cons x parts ih =>
    cases parts with
    | nil => simpa [List.intercalate] using evenQuotes_partText x
    | cons y parts =>
      rw [List.map_cons, List.map_cons, intercalate_cons_cons]
      exact ((evenQuotes_partText x).append (by decide)).append ih

theorem outside_dotted (parts : List (List Char)) :
    outside false (['.'].intercalate (parts.map partText)) = ['.'].intercalate (parts.map bare) := by
  induction parts with
  | nil => rfl
  | cons x parts ih =>
    cases parts with
    | nil => simpa [List.intercalate] using outside_partText x
    | cons y parts =>
      have hdot : EvenQuotes ['.'] := by decide
      simp only [List.map_cons] at ih ⊢
      rw [intercalate_cons_cons, intercalate_cons_cons, List.append_assoc, List.append_assoc,
        (evenQuotes_partText x).outside_append, hdot.outside_append, outside_partText, ih]
      rfl

theorem evenQuotes_identifier (i : Identifier) : EvenQuotes i.text := by
  obtain ⟨parts, label⟩ := i
  refine (evenQuotes_dotted parts).append ?_
  cases label with
  | none => exact evenQuotes_nil
  | some label => exact EvenQuotes.append (by decide) (evenQuotes_partText label)

/-- What an identifier leaves outside of quotes. -/
def skeleton (i : Identifier) : List Char :=
  ['.'].intercalate (i.parts.map bare) ++ i.label.elim [] fun label => " as ".toList ++ bare label

theorem mem_dots {parts : List (List Char)} {c : Char} (h : c ∈ ['.'].intercalate (parts.map bare)) :
    c = '*' ∨ c = '.' := by
  induction parts with
  | nil => exact nomatch h
  | cons x parts ih =>
    cases parts with
    | nil => exact Or.inl (mem_bare (by simpa [List.intercalate] using h))
    | cons y parts =>
      rw [List.map_cons, List.map_cons, intercalate_cons_cons, List.mem_append, List.mem_append] at h
      rcases h with (h | h) | h
      · exact Or.inl (mem_bare h)
      · exact Or.inr (List.mem_singleton.1 h)
      · exact ih h

theorem mem_skeleton {i : Identifier} {c : Char} (h : c ∈ skeleton i) :
    c = '*' ∨ c = '.' ∨ c ∈ " as ".toList := by
  rw [skeleton, List.mem_append] at h
  rcases h with h | h
  · rcases mem_dots h with h | h
    · exact Or.inl h
    · exact Or.inr (Or.inl h)
  · cases hlabel : i.label with
    | none =>
      rw [hlabel] at h
      exact nomatch h
    | some label =>
      rw [hlabel, Option.elim_some, List.mem_append] at h
      rcases h with h | h
      · exact Or.inr (Or.inr h)
      · exact Or.inl (mem_bare h)

theorem outside_identifier (i : Identifier) : outside false i.text = skeleton i := by
  obtain ⟨parts, label⟩ := i
  rw [Identifier.text, (evenQuotes_dotted parts).outside_append, outside_dotted, skeleton]
  cases label with
  | none => rfl
  | some label =>
    have heven : EvenQuotes " as ".toList := by decide
    have has : outside false " as ".toList = " as ".toList := by decide
    dsimp only [Option.elim_some]
    rw [heven.outside_append, has, outside_partText]

theorem evenQuotes_quote (s : String) : EvenQuotes (quote s).toList := by
  rw [quote, String.toList_ofList]
  exact evenQuotes_identifier _

theorem evenQuotes_quotePart (s : String) : EvenQuotes (quotePart s).toList := by
  rw [quotePart, String.toList_ofList]
  exact evenQuotes_partText _

/-- **Identifiers keep to themselves.**  Whatever the caller wrote, outside of its quotes a name has its dots,
the parts that are a `*` alone and ` as ` before an alias. -/
theorem outside_quote (s : String) : outside false (quote s).toList = skeleton (Identifier.ofText s) := by
  rw [quote, String.toList_ofList]
  exact outside_identifier _

/-- A part is an identifier of one part without an alias. -/
theorem outside_quotePart (s : String) :
    outside false (quotePart s).toList = skeleton ⟨[trim s.toList], none⟩ := by
  rw [quotePart, String.toList_ofList, outside_partText]
  simp [skeleton, List.intercalate]

end SqlQuery.Text
