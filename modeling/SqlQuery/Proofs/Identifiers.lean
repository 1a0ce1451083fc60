import Mathlib.Data.List.Forall2
import SqlQuery.Proofs.Lexical.Blanks
import SqlQuery.Proofs.Lexical.Quotes

/-!
# Names, written and read back

A caller's text names an identifier, and the identifier is written with every part in double quotes.  Both steps are
told here without the functions that do them, and the written name is shown to be read in one way only.

* `Names` — what a text names: its pieces between dots before the first ` as `, and the alias after it;
  `names_iff` — that is what `ofText` gives;
* `Written R` — the grammar of written names over the writings `R` of their parts: any `Segment`, which is a bare `*` or
  a part in double quotes, or only the `Canonical` ones;
* `Written.unique` — **a text is a written name in one way only**, by cutting off one segment after the other;
* `quote_reads` — **a quoted name is read back as what the caller's text names**;
* `quote_of_labelled` — a name with an alias is the name before it, quoted by itself, and the alias.
-/

namespace SqlQuery

open SqlQuery.Text

namespace Identifier

/-! ### What a caller's text names -/

/-- The word `as` between two spaces, in any letter case. -/
inductive AliasWord : List Char → Prop
  | mk {a s : Char} : a = 'a' ∨ a = 'A' → s = 's' ∨ s = 'S' → AliasWord [' ', a, s, ' ']

/-- The pieces of a text between its dots, each without the blanks around it. -/
def Pieces (s : List Char) (parts : List (List Char)) : Prop :=
  ∃ ws, ws ≠ [] ∧ (∀ w ∈ ws, '.' ∉ w) ∧ ['.'].intercalate ws = s ∧ List.Forall₂ Trims ws parts

/-- The identifier that a caller's text names. -/
inductive Names : List Char → Identifier → Prop
  /-- A text without ` as ` is a name without an alias. -/
  | plain {s : List Char} {parts : List (List Char)} :
      (∀ before m after, AliasWord m → s ≠ before ++ m ++ after) → Pieces s parts → Names s ⟨parts, none⟩
  /-- The first ` as ` parts the name and its alias. -/
  | labelled {before m after label : List Char} {parts : List (List Char)} : AliasWord m →
      (∀ before' m' after', AliasWord m' → before ++ m ++ after = before' ++ m' ++ after' →
        before.length ≤ before'.length) →
      Pieces before parts → Trims after label → Names (before ++ m ++ after) ⟨parts, some label⟩

theorem toNat_foldAscii (c : Char) :
    (foldAscii c).toNat = if 65 ≤ c.toNat ∧ c.toNat ≤ 90 then c.toNat + 32 else c.toNat := by
  have hrange : (c.val ≥ 'A'.val ∧ c.val ≤ 'Z'.val) ↔ 65 ≤ c.toNat ∧ c.toNat ≤ 90 := by
    simp only [ge_iff_le, UInt32.le_iff_toNat_le]
    exact Iff.rfl
  unfold foldAscii Char.toLower
  by_cases h : c.val ≥ 'A'.val ∧ c.val ≤ 'Z'.val
  · rw [dif_pos h, if_pos (hrange.1 h)]
    have hsum : (c.val + ('a'.val - 'A'.val)).toNat = (c.toNat + 32) % 4294967296 := UInt32.toNat_add ..
    have hle := (hrange.1 h).2
    show (c.val + ('a'.val - 'A'.val)).toNat = _
    omega
  · rw [dif_neg h, if_neg (hrange.not.1 h)]

theorem aliasWord_iff {m : List Char} : m.map foldAscii = aliasKey ↔ AliasWord m := by
  have hspace : ∀ c, foldAscii c = ' ' ↔ c = ' ' := fun c => by
    simp only [← Char.toNat_inj, toNat_foldAscii, Char.reduceToNat]
    split <;> omega
  have ha : ∀ c, foldAscii c = 'a' ↔ c = 'a' ∨ c = 'A' := fun c => by
    simp only [← Char.toNat_inj, toNat_foldAscii, Char.reduceToNat]
    split <;> omega
  have hs : ∀ c, foldAscii c = 's' ↔ c = 's' ∨ c = 'S' := fun c => by
    simp only [← Char.toNat_inj, toNat_foldAscii, Char.reduceToNat]
    split <;> omega
  constructor
  · intro h
    obtain ⟨c₁, m₁, rfl, h₁, h⟩ := List.map_eq_cons_iff.1 h
    obtain ⟨c₂, m₂, rfl, h₂, h⟩ := List.map_eq_cons_iff.1 h
    obtain ⟨c₃, m₃, rfl, h₃, h⟩ := List.map_eq_cons_iff.1 h
    obtain ⟨c₄, m₄, rfl, h₄, h⟩ := List.map_eq_cons_iff.1 h
    obtain rfl := List.map_eq_nil_iff.1 h
    obtain rfl := (hspace c₁).1 h₁
    obtain rfl := (hspace c₄).1 h₄
    exact .mk ((ha c₂).1 h₂) ((hs c₃).1 h₃)
  · rintro ⟨h₂, h₃⟩
    rw [List.map_cons, List.map_cons, List.map_cons, List.map_cons, (ha _).2 h₂, (hs _).2 h₃, (hspace ' ').2 rfl]
    rfl

theorem aliasKey_ne_nil : aliasKey ≠ [] := nofun

theorem pieces_iff {s : List Char} {parts : List (List Char)} :
    Pieces s parts ↔ parts = (split (· == '.') s).map trim := by
  constructor
  · rintro ⟨ws, hne, hws, hs, htrims⟩
    have hsame : List.Forall₂ (· = ·) parts (ws.map trim) :=
      List.forall₂_map_right_iff.2 (htrims.flip.imp fun _ _ h => trims_iff.1 h)
    rw [split_eq_iff.2 ⟨hne, hws, hs⟩]
    rwa [List.forall₂_eq_eq_eq] at hsame
  · rintro rfl
    obtain ⟨hne, hws, hs⟩ := split_eq_iff.1 (Eq.refl (split (· == '.') s))
    exact ⟨_, hne, hws, hs, List.forall₂_map_right_iff.2 (List.forall₂_same.2 fun w _ => trims_trim w)⟩

theorem notMem_dot_of_blank {l : List Char} (hl : ∀ c ∈ l, isBlank c = true) : '.' ∉ l :=
  fun h => absurd (hl _ h) (by decide)

theorem Pieces.append_left {l s : List Char} {parts : List (List Char)} (hl : ∀ c ∈ l, isBlank c = true)
    (h : Pieces s parts) : Pieces (l ++ s) parts := by
  obtain ⟨ws, hne, hws, rfl, htrims⟩ := h
  cases htrims with
  | nil => exact absurd rfl hne
  | @cons w part ws parts hw hrest =>
    rw [List.forall_mem_cons] at hws
    refine ⟨(l ++ w) :: ws, nofun, List.forall_mem_cons.2 ⟨?_, hws.2⟩, ?_, .cons (hw.append_left hl) hrest⟩
    · rw [List.mem_append, not_or]
      exact ⟨notMem_dot_of_blank hl, hws.1⟩
    · cases ws with
      | nil => simp [List.intercalate]
      | cons w' ws => simp only [intercalate_cons_cons, List.append_assoc]

theorem Pieces.append_right {r s : List Char} {parts : List (List Char)} (hr : ∀ c ∈ r, isBlank c = true)
    (h : Pieces s parts) : Pieces (s ++ r) parts := by
  obtain ⟨ws, hne, hws, rfl, htrims⟩ := h
  induction htrims with
  | nil => exact absurd rfl hne
  | @cons w part ws parts hw hrest ih =>
    rw [List.forall_mem_cons] at hws
    cases hrest with
    | nil =>
      refine ⟨[w ++ r], nofun, List.forall_mem_singleton.2 ?_, by simp [List.intercalate],
        .cons (hw.append_right hr) .nil⟩
      rw [List.mem_append, not_or]
      exact ⟨hws.1, notMem_dot_of_blank hr⟩
    | @cons w' part' ws' parts' hw' hrest' =>
      obtain ⟨vs, hvs, hdots, hs, htrims⟩ := ih nofun hws.2
      obtain ⟨v, vs, rfl⟩ := List.exists_cons_of_ne_nil hvs
      refine ⟨w :: v :: vs, nofun, List.forall_mem_cons.2 ⟨hws.1, hdots⟩, ?_, .cons hw htrims⟩
      rw [intercalate_cons_cons, intercalate_cons_cons, hs]
      simp only [List.append_assoc]

/-- Blanks around a text do not show in its pieces. -/
theorem Pieces.of_trim {s : List Char} {parts : List (List Char)} (h : Pieces (trim s) parts) : Pieces s parts := by
  obtain ⟨l, r, hs, hl, hr⟩ := (trims_trim s).cut
  rw [hs]
  exact (h.append_left hl).append_right hr

/-- **What a text names** is what it is read as. -/
theorem names_iff {s : String} {i : Identifier} : Names s.toList i ↔ i = ofText s := by
  have hword : ∀ {m}, AliasWord m → m.map foldAscii = aliasKey := aliasWord_iff.2
  constructor
  · intro h
    unfold ofText
    generalize s.toList = cs at h
    cases h with
    | plain hnone hparts =>
      rw [(cutFirst?_eq_none_iff aliasKey_ne_nil).2 fun b m a hm => hnone b m a (aliasWord_iff.1 hm)]
      exact congrArg (Identifier.mk · none) (pieces_iff.1 hparts)
    | @labelled before m after label parts hm hfirst hparts hlabel =>
      rw [(cutFirst?_eq_some_iff aliasKey_ne_nil).2
        ⟨m, hword hm, rfl, fun b m' a hm' => hfirst b m' a (aliasWord_iff.1 hm')⟩]
      rw [pieces_iff.1 hparts, trims_iff.1 hlabel]
  · rintro rfl
    unfold ofText
    split
    · next hcut =>
      exact .plain (fun b m a hm => (cutFirst?_eq_none_iff aliasKey_ne_nil).1 hcut b m a (hword hm)) (pieces_iff.2 rfl)
    · next name label hcut =>
      obtain ⟨m, hm, hs, hfirst⟩ := (cutFirst?_eq_some_iff aliasKey_ne_nil).1 hcut
      rw [hs] at hfirst ⊢
      exact .labelled (aliasWord_iff.1 hm) (fun b m' a hm' => hfirst b m' a (hword hm')) (pieces_iff.2 rfl)
        (trims_iff.2 rfl)

theorem parts_ofText_ne_nil (s : String) : (ofText s).parts ≠ [] := by
  have hmap : ∀ cs : List Char, (split (· == '.') cs).map trim ≠ [] := fun cs =>
    List.map_eq_nil_iff.not.2 (split_ne_nil _ _)
  unfold ofText
  split
  · exact hmap _
  · exact hmap _

/-! ### Written names -/

/-- The second text is the first with each double quote written twice. -/
inductive Doubled : List Char → List Char → Prop
  | nil : Doubled [] []
  | char {c : Char} {s t : List Char} : c ≠ '"' → Doubled s t → Doubled (c :: s) (c :: t)
  | quote {s t : List Char} : Doubled s t → Doubled ('"' :: s) ('"' :: '"' :: t)

/-- A part and a text that is read as the part. -/
inductive Segment : List Char → List Char → Prop
  | star : Segment ['*'] ['*']
  | quoted {s t : List Char} : Doubled s t → Segment s ('"' :: t ++ ['"'])

/-- A part and its writing: the part `*` alone is written bare. -/
def Canonical (s t : List Char) : Prop := Segment s t ∧ (s = ['*'] ↔ t = ['*'])

/-- Parts in their writings, with a dot between them. -/
inductive Dotted (R : List Char → List Char → Prop) : List (List Char) → List Char → Prop
  | one {s t : List Char} : R s t → Dotted R [s] t
  | cons {s t u : List Char} {ss : List (List Char)} : R s t → Dotted R ss u → Dotted R (s :: ss) (t ++ '.' :: u)

/-- A written name: its parts, and ` as ` and the alias where there is one. -/
inductive Written (R : List Char → List Char → Prop) : Identifier → List Char → Prop
  | plain {parts : List (List Char)} {t : List Char} : Dotted R parts t → Written R ⟨parts, none⟩ t
  | labelled {parts : List (List Char)} {label t u : List Char} : Dotted R parts t → R label u →
      Written R ⟨parts, some label⟩ (t ++ " as ".toList ++ u)

/-! ### One way to read a written name -/

section Unique

variable {s s' t t' r r' : List Char}

/-- A part in double quotes ends at the first quote that is not written twice. -/
theorem Doubled.cancel (h : Doubled s t) (h' : Doubled s' t') (hr : ∀ c ∈ r.head?, c ≠ '"')
    (hr' : ∀ c ∈ r'.head?, c ≠ '"') (heq : t ++ '"' :: r = t' ++ '"' :: r') : s = s' ∧ r = r' := by
  induction h generalizing s' t' with
  | nil =>
    cases h' with
    | nil => exact ⟨rfl, (List.cons.inj heq).2⟩
    | char hc _ => exact absurd (List.cons.inj heq).1.symm hc
    | quote _ =>
      obtain rfl := (List.cons.inj heq).2
      exact absurd rfl (hr _ rfl)
  | char hc _ ih =>
    cases h' with
    | nil => exact absurd (List.cons.inj heq).1 hc
    | char _ h' =>
      obtain ⟨rfl, hrest⟩ := List.cons.inj heq
      exact (ih h' hrest).imp_left (congrArg _)
    | quote _ => exact absurd (List.cons.inj heq).1 hc
  | quote _ ih =>
    cases h' with
    | nil =>
      obtain rfl := (List.cons.inj heq).2
      exact absurd rfl (hr' _ rfl)
    | char hc _ => exact absurd (List.cons.inj heq).1.symm hc
    | quote h' => exact (ih h' (List.cons.inj (List.cons.inj heq).2).2).imp_left (congrArg _)

theorem Segment.cancel (h : Segment s t) (h' : Segment s' t') (hr : ∀ c ∈ r.head?, c ≠ '"')
    (hr' : ∀ c ∈ r'.head?, c ≠ '"') (heq : t ++ r = t' ++ r') : s = s' ∧ r = r' := by
  cases h with
  | star =>
    cases h' with
    | star => exact ⟨rfl, (List.cons.inj heq).2⟩
    | quoted _ => exact absurd (List.cons.inj heq).1 (by decide)
  | quoted h =>
    cases h' with
    | star => exact absurd (List.cons.inj heq).1 (by decide)
    | quoted h' =>
      refine h.cancel h' hr hr' ?_
      simpa using heq

/-- Parts end where neither a dot nor a quote follows. -/
theorem Dotted.cancel {ss ss' : List (List Char)} (h : Dotted Segment ss t) (h' : Dotted Segment ss' t')
    (hr : ∀ c ∈ r.head?, c ≠ '"' ∧ c ≠ '.') (hr' : ∀ c ∈ r'.head?, c ≠ '"' ∧ c ≠ '.') (heq : t ++ r = t' ++ r') :
    ss = ss' ∧ r = r' := by
  have hdot : ∀ cs : List Char, ∀ c ∈ ('.' :: cs).head?, c ≠ '"' := by
    rintro cs c ⟨⟩
    decide
  induction h generalizing ss' t' with
  | one h =>
    cases h' with
    | one h' =>
      exact (h.cancel h' (fun c hc => (hr c hc).1) (fun c hc => (hr' c hc).1) heq).imp_left (congrArg (fun s => [s]))
    | cons h' _ =>
      rw [List.append_assoc, List.cons_append] at heq
      obtain ⟨-, rfl⟩ := h.cancel h' (fun c hc => (hr c hc).1) (hdot _) heq
      exact absurd rfl (hr _ rfl).2
  | cons h _ ih =>
    rw [List.append_assoc, List.cons_append] at heq
    cases h' with
    | one h' =>
      obtain ⟨-, rfl⟩ := h.cancel h' (hdot _) (fun c hc => (hr' c hc).1) heq
      exact absurd rfl (hr' _ rfl).2
    | cons h' hrest =>
      rw [List.append_assoc, List.cons_append] at heq
      obtain ⟨rfl, hrest'⟩ := h.cancel h' (hdot _) (hdot _) heq
      exact (ih hrest (List.cons.inj hrest').2).imp_left (congrArg _)

/-- **One way to read.**  A text is the writing of one identifier at most, also where its stars may be quoted. -/
theorem Written.unique {i j : Identifier} (h : Written Segment i t) (h' : Written Segment j t') (heq : t = t') :
    i = j := by
  have hend : ∀ c ∈ ([] : List Char).head?, c ≠ '"' ∧ c ≠ '.' := nofun
  have halias : ∀ u : List Char, ∀ c ∈ (" as ".toList ++ u).head?, c ≠ '"' ∧ c ≠ '.' := by
    rintro u c ⟨⟩
    decide
  cases h with
  | plain h =>
    cases h' with
    | plain h' =>
      obtain ⟨rfl, -⟩ := h.cancel h' hend hend (congrArg (· ++ []) heq)
      rfl
    | labelled h' _ =>
      rw [List.append_assoc, ← List.append_nil t] at heq
      obtain ⟨-, hnil⟩ := h.cancel h' hend (halias _) heq
      exact nomatch hnil
  | labelled h hlabel =>
    rw [List.append_assoc] at heq
    cases h' with
    | plain h' =>
      rw [← List.append_nil t'] at heq
      obtain ⟨-, hnil⟩ := h.cancel h' (halias _) hend heq
      exact nomatch hnil
    | labelled h' hlabel' =>
      rw [List.append_assoc] at heq
      obtain ⟨rfl, hlabels⟩ := h.cancel h' (halias _) (halias _) heq
      have hlabels' := congrArg (· ++ []) (List.append_cancel_left hlabels)
      obtain ⟨rfl, -⟩ := hlabel.cancel hlabel' (fun c hc => (hend c hc).1) (fun c hc => (hend c hc).1) hlabels'
      rfl

end Unique

/-! ### Names as they are written -/

theorem Dotted.imp {R R' : List Char → List Char → Prop} (hR : ∀ s t, R s t → R' s t) {ss : List (List Char)}
    {t : List Char} (h : Dotted R ss t) : Dotted R' ss t := by
  induction h with
  | one h => exact .one (hR _ _ h)
  | cons h _ ih => exact .cons (hR _ _ h) ih

theorem Written.imp {R R' : List Char → List Char → Prop} (hR : ∀ s t, R s t → R' s t) {i : Identifier}
    {t : List Char} (h : Written R i t) : Written R' i t := by
  cases h with
  | plain h => exact .plain (h.imp hR)
  | labelled h hlabel => exact .labelled (h.imp hR) (hR _ _ hlabel)

theorem doubled_escape (s : List Char) : Doubled s (escape s) := by
  induction s with
  | nil => exact .nil
  | cons c cs ih =>
    rw [escape, List.flatMap_cons, ← escape]
    by_cases hc : c = '"'
    · subst hc
      exact .quote ih
    · rw [if_neg hc]
      exact .char hc ih

theorem canonical_partText (s : List Char) : Canonical s (partText s) := by
  unfold partText
  split
  · next h =>
    subst h
    exact ⟨.star, Iff.rfl⟩
  · next h => exact ⟨.quoted (doubled_escape s), iff_of_false h (by simp)⟩

theorem dotted_intercalate {parts : List (List Char)} (h : parts ≠ []) :
    Dotted Canonical parts (['.'].intercalate (parts.map partText)) := by
  induction parts with
  | nil => exact absurd rfl h
  | cons s parts ih =>
    cases parts with
    | nil => simpa [List.intercalate] using Dotted.one (canonical_partText s)
    | cons s' parts =>
      rw [List.map_cons, List.map_cons, intercalate_cons_cons, List.append_assoc]
      exact .cons (canonical_partText s) (ih nofun)

theorem written_text (i : Identifier) (h : i.parts ≠ []) : Written Canonical i i.text := by
  obtain ⟨parts, label⟩ := i
  cases label with
  | none =>
    rw [text, List.append_nil]
    exact .plain (dotted_intercalate h)
  | some label =>
    rw [text, ← List.append_assoc]
    exact .labelled (dotted_intercalate h) (canonical_partText label)

end Identifier

open Identifier

/-- **A quoted name is read back as what the caller's text names.**  Every text names one identifier: its trimmed pieces
between dots before the first ` as `, and the alias after it.  Quoted, it is a written name of this identifier with its
stars bare and all else in double quotes; it can be read as a written name in no other way, even where stars may be
quoted, so just the texts that name the same identifier are quoted alike. -/
theorem quote_reads (s : String) : ∃ i : Identifier, (∀ j, Names s.toList j ↔ j = i) ∧
    Written Canonical i (quote s).toList ∧ (∀ j, Written Segment j (quote s).toList ↔ j = i) ∧
    ∀ t, quote t = quote s ↔ Names t.toList i := by
  have hwritten : ∀ t, Written Canonical (ofText t) (quote t).toList := fun t => by
    rw [quote, String.toList_ofList]
    exact written_text _ (parts_ofText_ne_nil t)
  have hread : ∀ t, Written Segment (ofText t) (quote t).toList := fun t => (hwritten t).imp fun _ _ h => h.1
  refine ⟨ofText s, fun j => names_iff, hwritten s, fun j => ⟨fun h => h.unique (hread s) rfl, fun h => h ▸ hread s⟩,
    fun t => ?_⟩
  rw [names_iff]
  refine ⟨fun h => ?_, fun h => by rw [quote, quote, h]⟩
  exact (hread s).unique (hread t) (congrArg String.toList h.symm)

/-- What stands before the first ` as ` has none of its own, so it is quoted like a name without an alias. -/
theorem quote_of_labelled {s : String} {name label : List Char}
    (h : cutFirst? foldAscii aliasKey s.toList = some (name, label)) :
    quote s = quote (String.ofList (trim name)) ++ " as " ++ quotePart (String.ofList (trim label)) := by
  obtain ⟨m, hm, hs, hfirst⟩ := (cutFirst?_eq_some_iff aliasKey_ne_nil).1 h
  obtain ⟨l, r, hname, -⟩ := (trims_trim name).cut
  have hplain : ∀ before m' after, AliasWord m' → trim name ≠ before ++ m' ++ after := by
    intro before m' after hm' htrim
    -- it would stand before the first one
    have hle := hfirst (l ++ before) m' (after ++ r ++ m ++ label) (aliasWord_iff.2 hm') (by
      rw [hs, hname, htrim]
      simp only [List.append_assoc])
    have hlength := congrArg List.length hname
    rw [htrim] at hlength
    cases hm'
    simp only [List.length_append, List.length_cons, List.length_nil] at hle hlength
    omega
  have hpieces : (split (· == '.') (trim name)).map trim = (split (· == '.') name).map trim :=
    pieces_iff.1 (Pieces.of_trim (pieces_iff.2 rfl))
  have hnamed : ofText (String.ofList (trim name)) = ⟨(split (· == '.') name).map trim, none⟩ := by
    refine (names_iff.1 (.plain ?_ ?_)).symm
    · rwa [String.toList_ofList]
    · rw [String.toList_ofList, pieces_iff, hpieces]
  have hread : ofText s = ⟨(split (· == '.') name).map trim, some (trim label)⟩ := by
    rw [ofText, h]
  have has : " as " = String.ofList " as ".toList := String.ofList_toList.symm
  rw [quote, quote, quotePart, hnamed, hread, String.toList_ofList, trim_trim, has, ← String.ofList_append,
    ← String.ofList_append]
  simp only [text, List.append_nil, List.append_assoc]

end SqlQuery
