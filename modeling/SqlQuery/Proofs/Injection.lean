import SqlQuery.Proofs.Form.Statement

/-!
# What a caller's text can do to a statement

A description without SQL of the caller's own still holds arbitrary strings: names of tables, columns and
procedures, aliases, operators and values.  None of them gets out of the quotes.

* `Safe` — the quotes of a text are closed, and outside of them there are only words of the dialect, numbers,
  punctuation and balanced parentheses;
* `Formed.safe` — every formed fragment without SQL of the caller's own is safe, by induction on the grammar;
* `Query.compile_safe` — **so is every statement**.
-/

namespace SqlQuery

open SqlQuery.Fragment SqlQuery.Text

/-! ### Safe texts -/

/-- What may stand outside of quotes: a phrase of the dialect, the mark of a placeholder, or what a name leaves
there, which is its dots, its parts that are a `*` alone and ` as ` before an alias. -/
inductive Remnant : List Char → Prop
  | phrase {w : String} : Phrase w → Remnant w.toList
  | mark : Remnant "?".toList
  | skeleton (i : Identifier) : Remnant (skeleton i)

/-- A text with closed quotes, outside of which the dialect alone speaks. -/
structure Safe (s : List Char) : Prop where
  /-- Every quote that opens is closed. -/
  evenQuotes : EvenQuotes s
  /-- Between spaces and punctuation stand words of the dialect and numbers. -/
  known : ∀ w ∈ lexemes (outside false s), Known w
  /-- No part of it is a caller's text, but for a `*` alone. -/
  remnants : ∃ rs : List (List Char), outside false s = rs.flatten ∧ ∀ r ∈ rs, Remnant r
  balanced : Balanced (outside false s)

namespace Safe

variable {s t : List Char}

theorem nil : Safe [] :=
  ⟨evenQuotes_nil, fun _ hw => (nomatch hw), ⟨[], rfl, fun _ hr => (nomatch hr)⟩, balanced_nil⟩

theorem append (hs : Safe s) (ht : Safe t) (h : endsApart s = true ∨ startsApart t = true) :
    Safe (s ++ t) := by
  have hout : outside false (s ++ t) = outside false s ++ outside false t :=
    hs.evenQuotes.outside_append false t
  have hmeet : endsApart (outside false s) = true ∨ startsApart (outside false t) = true :=
    h.imp (fun h => endsApart_outside h hs.evenQuotes) startsApart_outside
  obtain ⟨rs, hrs, hr⟩ := hs.remnants
  obtain ⟨rs', hrs', hr'⟩ := ht.remnants
  refine ⟨hs.evenQuotes.append ht.evenQuotes, ?_, ⟨rs ++ rs', ?_, ?_⟩, ?_⟩
  · rw [hout, lexemes_append hmeet, List.forall_mem_append]
    exact ⟨hs.known, ht.known⟩
  · rw [hout, hrs, hrs', List.flatten_append]
  · exact List.forall_mem_append.2 ⟨hr, hr'⟩
  · rw [hout]
    exact hs.balanced.append ht.balanced

/-- A safe text between the two phrases of a parenthesis. -/
theorem enclosed {l r : String} (h : Encloses l r) (hs : Safe s) : Safe (l.toList ++ s ++ r.toList) := by
  obtain ⟨⟨hlp, hle, hlo, hlc⟩, hrp, hrs, hro, hrc⟩ := h
  have hl := evenQuotes_of_notMem hlp.1
  have hout : outside false (l.toList ++ s ++ r.toList) = l.toList ++ outside false s ++ r.toList := by
    rw [(hl.append hs.evenQuotes).outside_append, hl.outside_append, outside_of_notMem hlp.1,
      outside_of_notMem hrp.1]
  obtain ⟨rs, hrs', hr⟩ := hs.remnants
  refine ⟨(hl.append hs.evenQuotes).append (evenQuotes_of_notMem hrp.1), ?_,
    ⟨[l.toList] ++ rs ++ [r.toList], ?_, ?_⟩, ?_⟩
  · rw [hout, lexemes_append (Or.inr hrs), lexemes_append (Or.inl hle), List.forall_mem_append,
      List.forall_mem_append]
    exact ⟨⟨hlp.2.2, hs.known⟩, hrp.2.2⟩
  · rw [hout, hrs', List.flatten_append, List.flatten_append, List.flatten_singleton, List.flatten_singleton]
  · rw [List.forall_mem_append, List.forall_mem_append]
    exact ⟨⟨List.forall_mem_singleton.2 (.phrase hlp), hr⟩, List.forall_mem_singleton.2 (.phrase hrp)⟩
  · rw [hout]
    exact hs.balanced.enclosed hlo hlc hro hrc

/-- A text that leaves one thing outside of its quotes. -/
theorem of_remnant {r : List Char} (he : EvenQuotes s) (hout : outside false s = r) (hr : Remnant r)
    (hw : ∀ w ∈ lexemes r, Known w) (hb : Balanced r) : Safe s := by
  subst hout
  exact ⟨he, hw, ⟨[outside false s], by rw [List.flatten_singleton], List.forall_mem_singleton.2 hr⟩, hb⟩

theorem mark : Safe "?".toList :=
  of_remnant (by decide) (outside_of_notMem (by decide)) .mark (by decide)
    (balanced_of_notMem (by decide) (by decide))

theorem of_phrase {w : String} (h : Phrase w) (hb : Balanced w.toList) : Safe w.toList :=
  of_remnant (evenQuotes_of_notMem h.1) (outside_of_notMem h.1) (.phrase h) h.2.2 hb

end Safe

/-! ### Names -/

/-- The word `as` is the only one that a name has outside of its quotes. -/
theorem known_skeleton (i : Identifier) : ∀ w ∈ lexemes (skeleton i), Known w := by
  have hdots : lexemes (['.'].intercalate (i.parts.map bare)) = [] := by
    refine lexemes_eq_nil fun c hc => ?_
    rcases mem_dots hc with rfl | rfl <;> decide
  have hbare : ∀ s, lexemes (bare s) = [] := by
    refine fun s => lexemes_eq_nil fun c hc => ?_
    obtain rfl := mem_bare hc
    decide
  unfold skeleton
  cases i.label with
  | none =>
    rw [Option.elim_none, List.append_nil, hdots]
    exact fun _ hw => nomatch hw
  | some label =>
    have has : ∀ w ∈ lexemes " as ".toList, Known w := (flat_phrases " as " (by simp [phrases, glues])).1.2.2
    rw [Option.elim_some, lexemes_append (Or.inr (startsApart_append_of_ne_nil (by decide) (by decide))),
      lexemes_append (Or.inl (by decide)), hdots, hbare, List.nil_append, List.append_nil]
    exact has

theorem balanced_skeleton (i : Identifier) : Balanced (skeleton i) :=
  balanced_of_notMem (fun h => absurd (mem_skeleton h) (by decide)) fun h => absurd (mem_skeleton h) (by decide)

theorem safe_quote (n : String) : Safe (quote n).toList :=
  .of_remnant (evenQuotes_quote n) (outside_quote n) (.skeleton _) (known_skeleton _) (balanced_skeleton _)

theorem safe_quotePart (n : String) : Safe (quotePart n).toList :=
  .of_remnant (evenQuotes_quotePart n) (outside_quotePart n) (.skeleton _) (known_skeleton _)
    (balanced_skeleton _)

/-! ### Statements -/

/-- **Formed SQL is safe**, unless SQL of the caller's own is in it. -/
theorem Formed.safe {f : Fragment} (h : Formed (fun _ => False) f) : Safe f.chars := by
  induction h with
  | nil => exact .nil
  | word hw hb =>
    rw [chars_word]
    exact .of_phrase hw hb
  | name n =>
    rw [Fragment.name, chars_singleton]
    exact safe_quote n
  | part n =>
    rw [Fragment.part, chars_singleton]
    exact safe_quotePart n
  | bound _ =>
    rw [chars_singleton]
    exact .mark
  | verbatim h => exact h.elim
  | append _ _ hmeet ihf ihg =>
    rw [chars_append]
    exact ihf.append ihg hmeet
  | enclosed hlr _ ih =>
    rw [chars_append, chars_append, chars_word, chars_word]
    exact Safe.enclosed hlr ih

/-- **No caller's text outside of quotes.**  The statement of a description without SQL of the caller's own is
safe, whatever its names, operators and values are. -/
theorem Query.compile_safe {p : Paging} {q : Query} {s : Statement} (hraw : q.verbatims = [])
    (h : q.compile p = .ok s) : Safe s.sql.toList := by
  obtain ⟨f, hf, rfl⟩ := Query.compile_eq_ok.1 h
  have hform : Formed (fun _ => False) f := by
    refine Query.fragment_formed ?_ hf
    rw [hraw]
    exact fun _ hr => nomatch hr
  exact hform.safe

set_option maxRecDepth 4000

/-- A description whose names, aliases and operands try to get out of their quotes. -/
def hostile : Query where
  table := some (.named "users\"; drop table users; -- as u")
  columns := [.named "u.*", .aliased "u.name\" or \"1" "x\"y"]
  filter := some (.or [.predicate (.compare "u.id) or (1" " Not  LIKE" (.string "' or ''='") false),
    .predicate (.inSelect "u.id" { table := some (.named "t\"?"), limit := some 3 } true)])

/-- The statement in which all of that stays quoted or bound. -/
def hostileStatement : Statement where
  sql := "select \"u\".*, \"u\".\"name\"\" or \"\"1\" as \"x\"\"y\" from " ++
    "\"users\"\"; drop table users; --\" as \"u\" where \"u\".\"id) or (1\" not like ? or " ++
    "\"u\".\"id\" not in (select * from \"t\"\"?\" fetch first 3 rows only)"
  params := [.string "' or ''='"]

theorem compile_safe_hostile : hostile.verbatims = [] ∧ hostile.compile .modern = .ok hostileStatement ∧
    Safe hostileStatement.sql.toList := by
  have hc : hostile.compile .modern = .ok hostileStatement := by rfl
  exact ⟨rfl, hc, Query.compile_safe rfl hc⟩

end SqlQuery
