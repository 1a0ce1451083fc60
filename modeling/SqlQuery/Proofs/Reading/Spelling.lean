import SqlQuery.Proofs.Form.Basic
import SqlQuery.Proofs.Reading.Grammar

/-!
# Spelling conditions

How a list of words is written when the text of each single condition is taken as one word.

* `Spells p cs n ts s` — the words `ts` are written `s`, where the atoms stand for the conditions `cs` in their
  order, numbered from `n`;
* `Predicate.opening` — how the text of a single condition starts, so that it is never taken for another word;
* `Spells.unique` — **a text is spelled by one list of words only**.
-/

namespace SqlQuery

open SqlQuery.Fragment SqlQuery.Text

variable {p : Paging}

/-! ### Spelling -/

/-- How a word that is no atom is written. -/
def Token.spelling? : Token → Option String
  | .atom _ => none
  | .not => some "not "
  | .lparen => some "("
  | .rparen => some ")"
  | .connective k => some (" " ++ k.keyword ++ " ")

/-- A text spells words, with the compiled conditions in the place of the atoms. -/
inductive Spells (p : Paging) : List Predicate → Nat → List Token → List Char → Prop
  | nil {n : Nat} : Spells p [] n [] []
  | atom {c : Predicate} {cs : List Predicate} {n : Nat} {ts : List Token} {f : Fragment} {s : List Char} :
      c.fragment p = .ok f → Spells p cs (n + 1) ts s → Spells p (c :: cs) n (.atom n :: ts) (f.chars ++ s)
  | word {cs : List Predicate} {n : Nat} {t : Token} {w : String} {ts : List Token} {s : List Char} :
      t.spelling? = some w → Spells p cs n ts s → Spells p cs n (t :: ts) (w.toList ++ s)

theorem Spells.append {cs ds : List Predicate} {n : Nat} {ts us : List Token} {s t : List Char}
    (hs : Spells p cs n ts s) (ht : Spells p ds (n + cs.length) us t) :
    Spells p (cs ++ ds) n (ts ++ us) (s ++ t) := by
  induction hs with
  | nil => exact ht
  | @atom c cs n ts f s hf _ ih =>
    have hnext : n + (c :: cs).length = n + 1 + cs.length := by
      rw [List.length_cons]
      omega
    rw [hnext] at ht
    rw [List.append_assoc]
    exact .atom hf (ih ht)
  | word hw _ ih =>
    rw [List.append_assoc]
    exact .word hw (ih ht)

theorem Spells.singleton {t : Token} {w : String} {n : Nat} (h : t.spelling? = some w) :
    Spells p [] n [t] w.toList := by
  have hs := Spells.word (p := p) (n := n) h .nil
  rwa [List.append_nil] at hs

/-! ### How single conditions start -/

/-- The first characters of the words that are no atoms. -/
def wordStarts : List Char := ['n', '(', ')', ' ']

/-- A text that starts with a character no other word starts with, perhaps after `not ` and a parenthesis. -/
def Opening (s : List Char) : Prop :=
  ∃ w ∈ ["", "not ", "not ("], ∃ c r, s = w.toList ++ c :: r ∧ c ∉ wordStarts

/-- A name starts with a quote or is a `*`. -/
theorem head_name (n : String) : ∃ c r, (name n).chars = c :: r ∧ c ∉ wordStarts := by
  have hpart : ∀ s : List Char, ∃ c r, Identifier.partText s = c :: r ∧ c ∉ wordStarts := by
    intro s
    unfold Identifier.partText
    split
    · next h => exact ⟨'*', [], h, by decide⟩
    · exact ⟨'"', _, rfl, by decide⟩
  have hparts : ∀ i : Identifier, i.parts ≠ [] → ∃ c r, i.text = c :: r ∧ c ∉ wordStarts := by
    rintro ⟨parts, label⟩ hne
    obtain ⟨x, xs, rfl⟩ := List.exists_cons_of_ne_nil hne
    obtain ⟨c, r, hx, hc⟩ := hpart x
    obtain ⟨rest, hrest⟩ : ∃ rest, ['.'].intercalate ((x :: xs).map Identifier.partText) =
        Identifier.partText x ++ rest := by
      cases xs with
      | nil => exact ⟨[], by simp [List.intercalate]⟩
      | cons y ys =>
        rw [List.map_cons, List.map_cons, intercalate_cons_cons, List.append_assoc]
        exact ⟨_, rfl⟩
    rw [Identifier.text, hrest, hx]
    exact ⟨c, _, rfl, hc⟩
  have hsplit : (Identifier.ofText n).parts ≠ [] := by
    unfold Identifier.ofText
    split <;> simpa using split_ne_nil _ _
  have hchars : (name n).chars = (Identifier.ofText n).text := by
    rw [name, chars_singleton, Piece.text, quote, String.toList_ofList]
  rw [hchars]
  exact hparts _ hsplit

theorem Opening.append {s : List Char} (h : Opening s) (t : List Char) : Opening (s ++ t) := by
  obtain ⟨w, hw, c, r, rfl, hc⟩ := h
  exact ⟨w, hw, c, r ++ t, by rw [List.append_assoc, List.cons_append], hc⟩

theorem opening_of_head {s r : List Char} {c : Char} (h : s = c :: r) (hc : c ∉ wordStarts) : Opening s :=
  ⟨"", by decide, c, r, h, hc⟩

theorem opening_of_word {w : String} {r : List Char} {c : Char} (h : w.toList = c :: r) (hc : c ∉ wordStarts)
    (f : Fragment) : Opening (word w ++ f).chars := by
  rw [chars_word_append, h]
  exact opening_of_head rfl hc

/-- A comparison starts with its left side. -/
theorem comparison_eq_append {lhs f : Fragment} {op : Operator} {v : Value} {operand : Except Error Fragment}
    {bounds : Option (Except Error (Fragment × Fragment))} (h : comparison lhs op v operand bounds = .ok f) :
    ∃ g, f = lhs ++ g := by
  rcases comparison_eq_ok.1 h with ⟨-, low, high, -, rfl⟩ | ⟨-, -, rfl⟩ | ⟨-, -, -, rhs, -, rfl⟩
  · exact ⟨op.spacedSymbol ++ low ++ word " and " ++ high, by simp only [List.append_assoc]⟩
  · unfold compareNull
    split
    · exact ⟨_, rfl⟩
    · exact ⟨_, rfl⟩
    · exact ⟨_, rfl⟩
    · split
      · exact ⟨op.spacedSymbol ++ word "null", by rw [List.append_assoc]⟩
      · exact ⟨op.spacedSymbol ++ [.bound .null], by rw [List.append_assoc]⟩
  · exact ⟨op.spacedSymbol ++ rhs, by rw [List.append_assoc]⟩

/-- How the text of a single condition starts. -/
theorem Predicate.opening {c : Predicate} {f : Fragment} (h : c.fragment p = .ok f) : Opening f.chars := by
  have hname : ∀ (n : String) (g : Fragment), Opening (name n ++ g).chars := by
    intro n g
    obtain ⟨c, r, hn, hc⟩ := head_name n
    rw [chars_append]
    exact (opening_of_head hn hc).append _
  cases c with
  | compare c op v negated =>
    obtain ⟨o, -, g, hg, rfl⟩ := Predicate.fragment_compare_eq_ok.1 h
    obtain ⟨g', rfl⟩ := comparison_eq_append hg
    unfold negatedComparison
    split
    · obtain ⟨d, r, hn, hd⟩ := head_name c
      refine ⟨"not (", by decide, d, r ++ g'.chars ++ ")".toList, ?_, hd⟩
      have hopen : "not (".toList = "not ".toList ++ "(".toList := by decide
      simp only [parenthesized, chars_append, chars_word, hn, hopen, List.append_assoc, List.cons_append]
    · exact hname c g'
  | isIn c vs negated =>
    obtain ⟨gs, -, rfl⟩ := Predicate.fragment_isIn_eq_ok.1 h
    unfold membership
    split
    · rw [chars_word]
      cases negated with
      | true => exact opening_of_head (c := '1') (r := " = 1".toList) (by decide) (by decide)
      | false => exact opening_of_head (c := '0') (r := " = 1".toList) (by decide) (by decide)
    · rw [List.append_assoc, List.append_assoc, List.append_assoc]
      exact hname c _
  | inSelect c q negated =>
    obtain ⟨inner, -, rfl⟩ := Predicate.fragment_inSelect_eq_ok.1 h
    rw [List.append_assoc, List.append_assoc, List.append_assoc]
    exact hname c _
  | isNull c negated =>
    cases h
    rw [List.append_assoc, List.append_assoc]
    exact hname c _
  | datePart c part op v =>
    obtain ⟨o, -, hg⟩ := Predicate.fragment_datePart_eq_ok.1 h
    obtain ⟨g', rfl⟩ := comparison_eq_append hg
    rw [chars_append]
    refine Opening.append ?_ _
    unfold DatePart.ofColumn
    split
    · rw [List.append_assoc]
      exact opening_of_word (c := 'c') (r := "ast(".toList) (by decide) (by decide) _
    · have hextract : "extract(".toList = 'e' :: "xtract(".toList := by decide
      rw [List.append_assoc]
      have hword : ("extract(" ++ part.keyword ++ " from ").toList =
          'e' :: ("xtract(".toList ++ part.keyword.toList ++ " from ".toList) := by
        rw [String.toList_append, String.toList_append, hextract]
        rfl
      exact opening_of_word hword (by decide) _
  | rowExists q negated =>
    obtain ⟨inner, -, rfl⟩ := Predicate.fragment_rowExists_eq_ok.1 h
    have hexists : "exists ".toList = 'e' :: "xists ".toList := by decide
    rw [List.append_assoc]
    cases negated with
    | true =>
      refine ⟨"not ", by decide, 'e', "xists ".toList ++ (parenthesized inner).chars, ?_, by decide⟩
      rw [notWord, if_pos rfl, chars_word_append, chars_word_append, hexists]
      rfl
    | false => exact opening_of_word (c := 'e') hexists (by decide) _

/-! ### One spelling only -/

/-- The word that a text starts with, if it is no atom. -/
def Token.leading? : List Char → Option Token
  | 'n' :: _ => some .not
  | '(' :: _ => some .lparen
  | ')' :: _ => some .rparen
  | ' ' :: 'a' :: _ => some (.connective .and)
  | ' ' :: 'o' :: _ => some (.connective .or)
  | _ => none

theorem Token.leading?_spelling {t : Token} {w : String} (h : t.spelling? = some w) (r : List Char) :
    Token.leading? (w.toList ++ r) = some t := by
  cases t with
  | atom i => exact nomatch h
  | not =>
    cases h
    have hw : "not ".toList = ['n', 'o', 't', ' '] := by decide
    rw [hw]
    rfl
  | lparen =>
    cases h
    have hw : "(".toList = ['('] := by decide
    rw [hw]
    rfl
  | rparen =>
    cases h
    have hw : ")".toList = [')'] := by decide
    rw [hw]
    rfl
  | connective k =>
    cases h
    cases k with
    | and =>
      have hw : (" " ++ Connective.and.keyword ++ " ").toList = [' ', 'a', 'n', 'd', ' '] := by decide
      rw [hw]
      rfl
    | or =>
      have hw : (" " ++ Connective.or.keyword ++ " ").toList = [' ', 'o', 'r', ' '] := by decide
      rw [hw]
      rfl

theorem Token.leading?_of_notMem {c : Char} (h : c ∉ wordStarts) (r : List Char) :
    Token.leading? (c :: r) = none := by
  unfold Token.leading?
  split
  · next heq => exact absurd ((List.cons.inj heq).1 ▸ by decide) h
  · next heq => exact absurd ((List.cons.inj heq).1 ▸ by decide) h
  · next heq => exact absurd ((List.cons.inj heq).1 ▸ by decide) h
  · next heq => exact absurd ((List.cons.inj heq).1 ▸ by decide) h
  · next heq => exact absurd ((List.cons.inj heq).1 ▸ by decide) h
  · rfl

/-- A text that starts like no word and not like the next condition spells nothing. -/
theorem Spells.false_of_head {c : Predicate} {cs : List Predicate} {n : Nat} {ts : List Token} {f : Fragment}
    {d d' : Char} {r r' : List Char} (hf : c.fragment p = .ok f) (hd : f.chars = d :: r) (hne : d ≠ d')
    (hc : d' ∉ wordStarts) (h : Spells p (c :: cs) n ts (d' :: r')) : False := by
  generalize hs : d' :: r' = s at h
  cases h with
  | atom hf' _ =>
    rw [hf] at hf'
    cases hf'
    rw [hd] at hs
    exact hne (List.cons.inj hs).1.symm
  | word hw _ =>
    have hnone := Token.leading?_of_notMem hc r'
    rw [hs, Token.leading?_spelling hw] at hnone
    exact nomatch hnone

/-- Nor does one that starts so after a parenthesis. -/
theorem Spells.false_of_paren {c : Predicate} {cs : List Predicate} {n : Nat} {ts : List Token} {f : Fragment}
    {r r' : List Char} {d : Char} (hf : c.fragment p = .ok f) (hd : f.chars = 'n' :: r) (hne : 'n' ≠ d)
    (hc : d ∉ wordStarts) (h : Spells p (c :: cs) n ts ('(' :: d :: r')) : False := by
  have hopen : "(".toList = ['('] := by decide
  generalize hs : '(' :: d :: r' = s at h
  cases h with
  | atom hf' _ =>
    rw [hf] at hf'
    cases hf'
    rw [hd] at hs
    exact nomatch (List.cons.inj hs).1
  | @word _ _ t w _ s hw h =>
    -- only a parenthesis fits, and behind it the text starts like no word
    have hlead := Token.leading?_spelling hw s
    rw [← hs] at hlead
    obtain rfl : Token.lparen = t := Option.some.inj hlead
    cases hw
    rw [hopen] at hs
    obtain rfl := (List.cons.inj hs).2
    exact h.false_of_head hf hd hne hc

/-- The next condition is not taken for another word: its text may start with `not ` and a parenthesis, but what
follows them fits no word, and the condition itself starts with `not `. -/
theorem Spells.false_of_word {c : Predicate} {cs : List Predicate} {n : Nat} {t : Token} {w : String}
    {ts : List Token} {f : Fragment} {s s' : List Char} (hf : c.fragment p = .ok f) (hw : t.spelling? = some w)
    (h : Spells p (c :: cs) n ts s') (he : f.chars ++ s = w.toList ++ s') : False := by
  have hnot : "not ".toList = ['n', 'o', 't', ' '] := by decide
  have hparen : "not (".toList = ['n', 'o', 't', ' ', '('] := by decide
  obtain ⟨pre, hpre, d, r, hd, hc⟩ := c.opening hf
  have hlead := Token.leading?_spelling hw s'
  rw [← he, hd] at hlead
  rw [List.mem_cons, List.mem_cons, List.mem_singleton] at hpre
  have hn : 'n' ≠ d := fun h => hc (h ▸ by decide)
  rcases hpre with rfl | rfl | rfl
  · rw [String.toList_empty, List.nil_append, List.cons_append, Token.leading?_of_notMem hc] at hlead
    exact nomatch hlead
  · rw [hnot] at hd hlead
    obtain rfl : Token.not = t := Option.some.inj hlead
    cases hw
    rw [hd, hnot] at he
    have hs' : s' = d :: (r ++ s) := by simpa using he.symm
    rw [hs'] at h
    exact h.false_of_head hf hd hn hc
  · rw [hparen] at hd hlead
    obtain rfl : Token.not = t := Option.some.inj hlead
    cases hw
    rw [hd, hnot] at he
    obtain rfl : s' = '(' :: d :: (r ++ s) := by simpa using he.symm
    exact h.false_of_paren hf hd hn hc

/-- **A text is spelled by one list of words only.** -/
theorem Spells.unique {cs : List Predicate} {n : Nat} {ts ts' : List Token} {s : List Char}
    (h : Spells p cs n ts s) (h' : Spells p cs n ts' s) : ts = ts' := by
  induction h generalizing ts' with
  | nil =>
    generalize hs : ([] : List Char) = s at h'
    cases h' with
    | nil => rfl
    | @word _ _ _ _ _ s hw _ =>
      have hlead := Token.leading?_spelling hw s
      rw [← hs] at hlead
      exact nomatch hlead
  | @atom c cs n ts f s hf hts ih =>
    generalize hs : f.chars ++ s = s' at h'
    cases h' with
    | atom hf' h' =>
      rw [hf] at hf'
      cases hf'
      obtain rfl := List.append_cancel_left hs
      rw [ih h']
    | word hw h' => exact (Spells.false_of_word hf hw h' hs).elim
  | @word cs n t w ts s hw hts ih =>
    generalize hs : w.toList ++ s = s' at h'
    cases h' with
    | nil =>
      have hlead := Token.leading?_spelling hw s
      rw [hs] at hlead
      exact nomatch hlead
    | atom hf' h' => exact (Spells.false_of_word hf' hw hts hs.symm).elim
    | word hw' h' =>
      have hlead := Token.leading?_spelling hw s
      rw [hs, Token.leading?_spelling hw'] at hlead
      obtain rfl := Option.some.inj hlead
      rw [hw] at hw'
      cases hw'
      obtain rfl := List.append_cancel_left hs
      rw [ih h']

end SqlQuery
