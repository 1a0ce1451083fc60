import SqlQuery.Proofs.Lexical.Pairs
import SqlQuery.Proofs.Paging.Alignment

/-!
# The texts of the two syntaxes

What two aligned fragments have in common is their text without paging clauses, and each has letters outside of
its quotes that the other has not.

* `Lettered` — texts with the letters of a syntax outside of their quotes;
* `Unpaged` — texts in which there is nothing of a paging clause, such as the text of a piece (`Unpaged.piece`);
* `Aligned.exists_erasing` — **without their clauses, aligned texts are the same**;
* `Aligned.lettered` — each has the letters of its syntax.
-/

namespace SqlQuery

open SqlQuery.Fragment SqlQuery.Text

/-! ### Letters of a syntax -/

/-- What tells the texts of a syntax from those of the other.  Legacy texts have not the letters of `offset` and of
`fetch`; modern texts have not those of `skip`, and those of `first` only after `fetch`. -/
def Paging.Letters : Paging → List Char → Prop
  | .legacy, s => Preceded (fun _ => False) 'f' 'f' s ∧ Preceded (fun _ => False) 'f' 'e' s
  | .modern, s => Preceded (fun _ => False) 'i' 'p' s ∧ Preceded (fun a => "h ".toList <:+ a) 'f' 'i' s

instance (p : Paging) : DecidablePred p.Letters := fun s => by
  cases p <;> unfold Paging.Letters <;> infer_instance

/-- A text with the letters of a syntax outside of its quotes, whatever text of the syntax follows. -/
structure Lettered (p : Paging) (s : List Char) : Prop where
  even : EvenQuotes s
  letters : p.Letters (outside false s)
  last : (outside false s).getLast? ≠ some 'f' ∧ (outside false s).getLast? ≠ some 'i'

instance (p : Paging) : DecidablePred (Lettered p) := fun s =>
  decidable_of_iff (EvenQuotes s ∧ p.Letters (outside false s) ∧
    (outside false s).getLast? ≠ some 'f' ∧ (outside false s).getLast? ≠ some 'i')
    ⟨fun ⟨he, hl, hc⟩ => ⟨he, hl, hc⟩, fun h => ⟨h.1, h.2, h.3⟩⟩

section Letters

variable {p : Paging} {s t : List Char}

theorem Paging.Letters.append (hlast : s.getLast? ≠ some 'f' ∧ s.getLast? ≠ some 'i') (hs : p.Letters s)
    (ht : p.Letters t) : p.Letters (s ++ t) := by
  obtain ⟨hf, hi⟩ := hlast
  have hsuffix : ∀ a b : List Char, "h ".toList <:+ b → "h ".toList <:+ a ++ b :=
    fun a b hb => hb.trans (List.suffix_append a b)
  cases p with
  | legacy => exact ⟨.append (fun _ _ => id) hf hs.1 ht.1, .append (fun _ _ => id) hf hs.2 ht.2⟩
  | modern => exact ⟨.append (fun _ _ => id) hi hs.1 ht.1, .append hsuffix hf hs.2 ht.2⟩

theorem Lettered.append (hs : Lettered p s) (ht : Lettered p t) : Lettered p (s ++ t) where
  even := hs.even.append ht.even
  letters := by
    rw [hs.even.outside_append]
    exact hs.letters.append hs.last ht.letters
  last := by
    rw [hs.even.outside_append, List.getLast?_append]
    cases hl : (outside false t).getLast? with
    | none => exact hs.last
    | some d =>
      rw [Option.some_or, ← hl]
      exact ht.last

/-- A text without the two letters belongs to either syntax. -/
theorem lettered_of_notMem (he : EvenQuotes s) (hf : 'f' ∉ outside false s) (hi : 'i' ∉ outside false s) :
    Lettered p s where
  even := he
  letters := by
    cases p with
    | legacy => exact ⟨.of_notMem hf, .of_notMem hf⟩
    | modern => exact ⟨.of_notMem hi, .of_notMem hf⟩
  last := ⟨fun h => hf (List.mem_of_getLast? h), fun h => hi (List.mem_of_getLast? h)⟩

/-- The clauses of a syntax have its letters. -/
theorem Paging.IsClause.lettered (h : p.IsClause s) : Lettered p s := by
  have hforms : ∀ p : Paging, ∀ e ∈ p.forms, Lettered p e.opening.toList ∧ Lettered p e.closing.toList := by
    intro p
    cases p <;> decide +kernel
  obtain ⟨e, he, n, rfl⟩ := h
  have hdigit : ∀ c : Char, c.isDigit = false → c ∉ Nat.toDigits 10 n := by
    intro c hc hmem
    rw [Nat.isDigit_of_mem_toDigits (by decide) (by decide) hmem] at hc
    exact nomatch hc
  have hnumber : Lettered p (Nat.toDigits 10 n) := by
    have hquote := hdigit '"' rfl
    refine lettered_of_notMem (evenQuotes_of_notMem hquote) ?_ ?_
    · rw [outside_of_notMem hquote]
      exact hdigit 'f' rfl
    · rw [outside_of_notMem hquote]
      exact hdigit 'i' rfl
  exact ((hforms p e he).1.append hnumber).append (hforms p e he).2

end Letters

/-! ### Pieces -/

/-- SQL of the caller's own. -/
def Piece.isRaw : Piece → Bool
  | verbatim _ _ => true
  | _ => false

/-- A text in which no clause starts, with letters that both syntaxes have. -/
structure Unpaged (s : List Char) : Prop where
  starts : startsCalm s = true
  stays : staysCalm false s = true
  lettered : ∀ p, Lettered p s

instance : DecidablePred Unpaged := fun s =>
  decidable_of_iff ((startsCalm s = true ∧ staysCalm false s = true) ∧ Lettered .legacy s ∧ Lettered .modern s)
    ⟨fun ⟨⟨hs, ht⟩, hl, hm⟩ => ⟨hs, ht, fun p => by cases p; exacts [hl, hm]⟩,
      fun h => ⟨⟨h.starts, h.stays⟩, h.lettered _, h.lettered _⟩⟩

theorem unpaged_wording : ∀ w ∈ wording, Unpaged w.toList := by decide +kernel

namespace Unpaged

open Identifier

variable {s t : List Char}

theorem append (hs : Unpaged s) (ht : Unpaged t) : Unpaged (s ++ t) where
  starts := startsCalm_append hs.starts ht.starts
  stays := by
    refine staysCalm_append hs.stays ?_ ht.starts
    rw [(hs.lettered .legacy).even.endsInside]
    exact ht.stays
  lettered p := (hs.lettered p).append (ht.lettered p)

/-- Such a text is kept. -/
theorem erasing {p : Paging} {before : List Char} (hs : Unpaged s) (ht : startsCalm t = true) :
    p.erasing before false 0 (s ++ t) = s ++ p.erasing (s.reverse ++ before) false 0 t := by
  rw [erasing_of_staysCalm hs.stays ht, (hs.lettered p).even.endsInside]

/-- No clause starts inside of a quoted part. -/
theorem staysCalm_escape (s : List Char) : staysCalm true (escape s ++ ['"']) = true := by
  induction s with
  | nil => rfl
  | cons c cs ih =>
    rw [escape, List.flatMap_cons, List.append_assoc, ← escape]
    by_cases hc : c = '"'
    · -- the doubled quote leaves the part and enters it again
      simpa [hc, staysCalm] using ih
    · simpa [hc, staysCalm] using ih

theorem partText (s : List Char) : Unpaged (partText s) where
  starts := by
    unfold Identifier.partText
    split
    · next h => rw [h]; rfl
    · exact startsCalm_cons (by decide) _
  stays := by
    unfold Identifier.partText
    split
    · next h => rw [h]; rfl
    · rw [List.cons_append, staysCalm_cons]
      exact ⟨nofun, staysCalm_escape s⟩
  lettered p := by
    refine lettered_of_notMem (evenQuotes_partText s) ?_ ?_
    · rw [outside_partText]
      exact fun h => absurd (mem_bare h) (by decide)
    · rw [outside_partText]
      exact fun h => absurd (mem_bare h) (by decide)

theorem dotted (parts : List (List Char)) : Unpaged (['.'].intercalate (parts.map Identifier.partText)) := by
  induction parts with
  | nil => decide
  | cons x parts ih =>
    cases parts with
    | nil => simpa [List.intercalate] using partText x
    | cons y parts =>
      rw [List.map_cons, List.map_cons, intercalate_cons_cons]
      exact ((partText x).append (by decide)).append ih

theorem identifier (i : Identifier) : Unpaged i.text := by
  obtain ⟨parts, label⟩ := i
  refine (dotted parts).append ?_
  cases label with
  | none => exact (by decide : Unpaged [])
  | some label => exact (by decide +kernel : Unpaged " as ".toList).append (partText label)

/-- **Pieces have nothing of a paging clause**, apart from SQL of the caller's own. -/
theorem piece {x : Piece} (hw : ∀ w, x = .word w → w ∈ wording) (hraw : x.isRaw = false) :
    Unpaged x.text.toList := by
  cases x with
  | word w => exact unpaged_wording w (hw w rfl)
  | name n =>
    rw [Piece.text, quote, String.toList_ofList]
    exact identifier _
  | part n =>
    rw [Piece.text, quotePart, String.toList_ofList]
    exact partText _
  | bound v =>
    rw [Piece.text]
    decide
  | verbatim sql bindings => cases hraw

end Unpaged

/-! ### Clauses -/

theorem Paging.isClause_number {p : Paging} {opening closing : String} (h : ⟨opening, closing⟩ ∈ p.forms) {n : Int}
    (hn : 0 ≤ n) : p.IsClause (opening ++ toString n ++ closing).toList := by
  obtain ⟨m, rfl⟩ := Int.eq_ofNat_of_zero_le hn
  have htext : (toString (m : Int)).toList = Nat.toDigits 10 m := Nat.toList_repr
  refine ⟨_, h, m, ?_⟩
  rw [String.toList_append, String.toList_append, htext]

section Pagings

variable {limit offset : Option Int}

theorem isClause_leading (hl : ∀ n ∈ limit, 0 ≤ n) (ho : ∀ n ∈ offset, 0 ≤ n) :
    ∀ c ∈ Paging.legacy.leading limit offset, Paging.legacy.IsClause (" " ++ c).toList := by
  have hforms : ⟨" first ", ""⟩ ∈ Paging.legacy.forms ∧ ⟨" skip ", ""⟩ ∈ Paging.legacy.forms := by decide
  simp only [Paging.leading, List.mem_append, Option.mem_toList, Option.map_eq_some_iff]
  rintro c (⟨n, hn, rfl⟩ | ⟨n, hn, rfl⟩)
  · have h := Paging.isClause_number hforms.1 (hl n hn)
    rwa [String.append_empty] at h
  · have h := Paging.isClause_number hforms.2 (ho n hn)
    rwa [String.append_empty] at h

theorem isClause_trailing (hl : ∀ n ∈ limit, 0 ≤ n) (ho : ∀ n ∈ offset, 0 ≤ n) :
    ∀ c ∈ Paging.modern.trailing limit offset, Paging.modern.IsClause (" " ++ c).toList := by
  have hforms : ⟨" offset ", " rows"⟩ ∈ Paging.modern.forms ∧
      ⟨" fetch first ", " rows only"⟩ ∈ Paging.modern.forms := by decide
  simp only [Paging.trailing, List.mem_append, Option.mem_toList, Option.map_eq_some_iff]
  rintro c (⟨n, hn, rfl⟩ | ⟨n, hn, rfl⟩)
  · exact Paging.isClause_number hforms.1 (ho n hn)
  · exact Paging.isClause_number hforms.2 (hl n hn)

end Pagings

section Spaced

variable {p : Paging} {cs : List String}

theorem chars_spaced (cs : List String) : (spaced cs).chars = (cs.map fun c => (" " ++ c).toList).flatten := by
  induction cs with
  | nil => rfl
  | cons c cs ih =>
    rw [spaced, List.flatMap_cons, ← spaced, chars_append, chars_word, ih]
    rfl

theorem lettered_spaced (h : ∀ c ∈ cs, p.IsClause (" " ++ c).toList) : Lettered p (spaced cs).chars := by
  rw [chars_spaced]
  induction cs with
  | nil => exact lettered_of_notMem evenQuotes_nil List.not_mem_nil List.not_mem_nil
  | cons c cs ih =>
    rw [List.forall_mem_cons] at h
    exact h.1.lettered.append (ih h.2)

theorem erasing_spaced {before t : List Char} (h : ∀ c ∈ cs, p.IsClause (" " ++ c).toList)
    (hfollows : p.follows before = true) (ht : p = .legacy → ∀ c ∈ t.head?, c.isDigit = false) :
    p.erasing before false 0 ((spaced cs).chars ++ t) = p.erasing before false 0 t := by
  rw [chars_spaced]
  exact erasing_clauses (List.forall_mem_map.2 h) hfollows ht

end Spaced

/-! ### Aligned texts -/

namespace Aligned

variable {f g : Fragment}

theorem startsCalm_spaced (cs : List String) : startsCalm (spaced cs).chars = true := by
  cases cs with
  | nil => rfl
  | cons c cs =>
    rw [spaced, List.flatMap_cons, chars_append, chars_word, String.toList_append]
    exact startsCalm_cons (by decide) _

/-- Neither text starts like a clause. -/
theorem startsCalm (h : Aligned f g) (hraw : ∀ x ∈ f, x.isRaw = false) :
    startsCalm f.chars = true ∧ startsCalm g.chars = true := by
  induction h with
  | nil => exact ⟨rfl, rfl⟩
  | piece hw _ ih =>
    rw [List.forall_mem_cons] at hraw
    have hx := (Unpaged.piece hw hraw.1).starts
    rw [chars_cons, chars_cons]
    exact ⟨startsCalm_append hx (ih hraw.2).1, startsCalm_append hx (ih hraw.2).2⟩
  | leading _ _ _ _ =>
    rw [chars_word_append, chars_word_append]
    exact ⟨rfl, rfl⟩
  | trailing _ _ _ ih =>
    rw [chars_append]
    exact ⟨(ih hraw).1, startsCalm_append (startsCalm_spaced _) (ih hraw).2⟩

/-- **What is left without the clauses is the same**, whatever stands before the two texts. -/
theorem exists_erasing (h : Aligned f g) (hraw : ∀ x ∈ f, x.isRaw = false) :
    ∃ s, ∀ before, Paging.legacy.erasing before false 0 f.chars = s ∧
      Paging.modern.erasing before false 0 g.chars = s := by
  induction h with
  | nil => exact ⟨[], fun _ => ⟨rfl, rfl⟩⟩
  | @piece x f g hw h ih =>
    rw [List.forall_mem_cons] at hraw
    obtain ⟨s, hs⟩ := ih hraw.2
    obtain ⟨hf, hg⟩ := h.startsCalm hraw.2
    have hx := Unpaged.piece hw hraw.1
    refine ⟨x.text.toList ++ s, fun before => ?_⟩
    rw [chars_cons, chars_cons, hx.erasing hf, hx.erasing hg, (hs _).1, (hs _).2]
    exact ⟨rfl, rfl⟩
  | @leading limit offset f g hl ho h ih =>
    rw [List.forall_mem_append, List.forall_mem_append, List.forall_mem_append] at hraw
    obtain ⟨s, hs⟩ := ih hraw.2.2.2
    obtain ⟨hf, hg⟩ := h.startsCalm hraw.2.2.2
    have hselect : Unpaged "select".toList := unpaged_wording _ (by decide)
    have hspace : Unpaged " ".toList := unpaged_wording _ (by decide)
    have hgap : ∀ t, SqlQuery.startsCalm (" ".toList ++ t) = true := fun t => startsCalm_cons (by decide) t
    refine ⟨"select".toList ++ (" ".toList ++ s), fun before => ⟨?_, ?_⟩⟩
    · -- the clauses stand after `select`, whatever is before it, and the last number ends at the space
      have hfollows : Paging.legacy.follows ("select".toList.reverse ++ before) = true :=
        List.isPrefixOf_iff_prefix.2 (List.prefix_append _ before)
      rw [chars_word_append, chars_append, chars_word_append,
        hselect.erasing (startsCalm_append (startsCalm_spaced _) (hgap _)),
        erasing_spaced (isClause_leading hl ho) hfollows fun _ _ hc => ?_, hspace.erasing hf, (hs _).1]
      obtain rfl := Option.some.inj hc
      rfl
    · rw [chars_word_append, chars_word_append, hselect.erasing (hgap _), hspace.erasing hg, (hs _).2]
  | @trailing limit offset f g hl ho h ih =>
    obtain ⟨s, hs⟩ := ih hraw
    refine ⟨s, fun before => ⟨(hs before).1, ?_⟩⟩
    rw [chars_append, erasing_spaced (isClause_trailing hl ho) rfl nofun]
    exact (hs before).2

/-- Each text has the letters of its syntax. -/
theorem lettered (h : Aligned f g) (hraw : ∀ x ∈ f, x.isRaw = false) :
    Lettered .legacy f.chars ∧ Lettered .modern g.chars := by
  induction h with
  | nil => exact ⟨by decide, by decide⟩
  | piece hw _ ih =>
    rw [List.forall_mem_cons] at hraw
    have hx := (Unpaged.piece hw hraw.1).lettered
    rw [chars_cons, chars_cons]
    exact ⟨(hx _).append (ih hraw.2).1, (hx _).append (ih hraw.2).2⟩
  | leading hl ho _ ih =>
    rw [List.forall_mem_append, List.forall_mem_append, List.forall_mem_append] at hraw
    have hselect := (unpaged_wording "select" (by decide)).lettered
    have hspace := (unpaged_wording " " (by decide)).lettered
    have hclauses := lettered_spaced (isClause_leading hl ho)
    simp only [chars_append, chars_word]
    exact ⟨(hselect _).append (hclauses.append ((hspace _).append (ih hraw.2.2.2).1)),
      (hselect _).append ((hspace _).append (ih hraw.2.2.2).2)⟩
  | trailing hl ho _ ih =>
    rw [chars_append]
    exact ⟨(ih hraw).1, (lettered_spaced (isClause_trailing hl ho)).append (ih hraw).2⟩

end Aligned

end SqlQuery
