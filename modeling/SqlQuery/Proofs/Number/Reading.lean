import SqlQuery.Proofs.Number.Rounding
import SqlQuery.Text.Case

/-!
# Texts of numbers

What the two readers of numbers make of a text: one reads integers, the other doubles. The reader of doubles also takes
words for what is not finite.

* `SignText`, `IntegerText`, `FloatWord` — an optional sign; digits behind it; a word behind it;
* `integer?_eq_some_iff` — the texts that are integers;
* `floatText?_of_isDigit` — **an integer as a double**: the nearest to it;
* `floatText?_eq_some_iff_of_digitless` — **a text without digits as a double**: the words, and no other.
-/

namespace SqlQuery.Number

open SqlQuery.Text

/-! ### Signs -/

/-- An optional sign; without one a number is positive. -/
inductive SignText : Bool → List Char → Prop
  | minus : SignText true ['-']
  | plus : SignText false ['+']
  | none : SignText false []

theorem signText_spanSign (s : List Char) : ∃ sign, SignText (spanSign s).1 sign ∧ s = sign ++ (spanSign s).2 := by
  unfold spanSign
  split
  · exact ⟨_, .minus, rfl⟩
  · exact ⟨_, .plus, rfl⟩
  · exact ⟨_, .none, rfl⟩

/-- A text that no sign begins is what follows a sign. -/
theorem SignText.spanSign_append {negative : Bool} {sign rest : List Char} (h : SignText negative sign)
    (hrest : ∀ c ∈ rest.head?, c ≠ '-' ∧ c ≠ '+') : spanSign (sign ++ rest) = (negative, rest) := by
  cases h with
  | minus => rfl
  | plus => rfl
  | none =>
    change spanSign rest = _
    unfold spanSign
    split
    · exact absurd rfl (hrest '-' rfl).1
    · exact absurd rfl (hrest '+' rfl).2
    · rfl

/-! ### Integers -/

/-- A text of an integer: an optional sign and at least one digit. -/
def IntegerText (s : List Char) (n : Int) : Prop :=
  ∃ negative sign ds, SignText negative sign ∧ s = sign ++ ds ∧ ds ≠ [] ∧ (∀ c ∈ ds, c.isDigit = true) ∧
    n = signed negative (natOf 10 ds)

section Digits

variable {s ds : List Char} {n : Int}

theorem noSign_of_isDigit (h : ∀ c ∈ ds, c.isDigit = true) : ∀ c ∈ ds.head?, c ≠ '-' ∧ c ≠ '+' := by
  intro c hc
  have hdigit : c.isDigit = true := h c (List.mem_of_mem_head? hc)
  constructor <;> rintro rfl <;> exact absurd hdigit (by decide)

theorem integer?_eq_some_iff : integer? s = some n ↔ IntegerText s n := by
  constructor
  · intro h
    obtain ⟨sign, hsign, hs⟩ := signText_spanSign s
    unfold integer? at h
    dsimp only at h
    rw [Option.ite_none_right_eq_some, Option.some_inj, List.all_eq_true] at h
    obtain ⟨⟨hne, hds⟩, hvalue⟩ := h
    exact ⟨_, sign, _, hsign, hs, hne, hds, hvalue.symm⟩
  · rintro ⟨negative, sign, ds, hsign, rfl, hne, hds, rfl⟩
    unfold integer?
    rw [hsign.spanSign_append (noSign_of_isDigit hds)]
    exact if_pos ⟨hne, List.all_eq_true.2 hds⟩

theorem IntegerText.exists_isDigit (h : IntegerText s n) : ∃ c ∈ s, c.isDigit = true := by
  obtain ⟨negative, sign, ds, -, rfl, hne, hds, -⟩ := h
  obtain ⟨c, hc⟩ := List.exists_mem_of_ne_nil ds hne
  exact ⟨c, List.mem_append_right sign hc, hds c hc⟩

end Digits

/-! ### Letters -/

theorem foldAscii_of_isDigit {c : Char} (h : c.isDigit = true) : foldAscii c = c := by
  simp only [Char.isDigit, Bool.and_eq_true, decide_eq_true_eq] at h
  unfold foldAscii Char.toLower
  exact dif_neg fun hupper => absurd (UInt32.le_trans hupper.1 h.2) (by decide)

/-- Comparison with a word of small letters. -/
theorem ofList_map_toLower_eq_iff {s : List Char} {w : String} (hw : w.toList.map foldAscii = w.toList) :
    String.ofList (s.map Char.toLower) = w ↔ sameLetters (String.ofList s) w = true := by
  rw [sameLetters, beq_iff_eq, hw, String.toList_ofList, ← String.toList_inj, String.toList_ofList]
  rfl

section Letters

variable {s ds : List Char} {w : String}

theorem mem_of_sameLetters (h : sameLetters (String.ofList s) w = true) {c : Char} (hc : c ∈ s) :
    foldAscii c ∈ w.toList.map foldAscii := by
  rw [sameLetters, beq_iff_eq, String.toList_ofList] at h
  exact h ▸ List.mem_map_of_mem hc

/-- Digits are no word. -/
theorem sameLetters_of_isDigit (hne : ds ≠ []) (hds : ∀ c ∈ ds, c.isDigit = true)
    (hw : (w.toList.map foldAscii).any Char.isDigit = false) : sameLetters (String.ofList ds) w = false := by
  by_contra hsame
  rw [Bool.not_eq_false] at hsame
  obtain ⟨c, hc⟩ := List.exists_mem_of_ne_nil ds hne
  have hmem := mem_of_sameLetters hsame hc
  rw [foldAscii_of_isDigit (hds c hc)] at hmem
  exact List.any_eq_false.1 hw c hmem (hds c hc)

/-- The letters of a word hold no sign. -/
theorem noSign_of_sameLetters (h : sameLetters (String.ofList s) w = true)
    (hw : '-' ∉ w.toList.map foldAscii ∧ '+' ∉ w.toList.map foldAscii) : ∀ c ∈ s.head?, c ≠ '-' ∧ c ≠ '+' := by
  intro c hc
  have hmem := mem_of_sameLetters h (List.mem_of_mem_head? hc)
  constructor
  · rintro rfl
    exact hw.1 hmem
  · rintro rfl
    exact hw.2 hmem

end Letters

/-! ### Doubles -/

/-- A numeral without sign. -/
def numeral? (s : List Char) : Option Float := do
  let ((whole, fraction), rest) ← mantissa? s
  let exponent ← exponentPart? rest
  return nearest (natOf 10 (whole ++ fraction)) (exponent - fraction.length)

theorem numeral?_of_digitless {s : List Char} (h : ∀ c ∈ s, c.isDigit = false) : numeral? s = none := by
  have hspan {t : List Char} (ht : ∀ c ∈ t, c.isDigit = false) : spanDigits t = ([], t) :=
    spanDigits_eq_iff.2 ⟨rfl, nofun, fun c hc => ht c (List.mem_of_mem_head? hc)⟩
  have hmantissa : mantissa? s = none := by
    unfold mantissa?
    rw [hspan h]
    dsimp only
    split
    case h_1 rest =>
      rw [hspan fun c hc => h c (List.mem_cons_of_mem _ hc)]
      exact if_pos ⟨rfl, rfl⟩
    case h_2 => exact if_pos ⟨rfl, rfl⟩
  unfold numeral?
  rw [hmantissa]
  rfl

theorem numeral?_of_isDigit {ds : List Char} (hne : ds ≠ []) (hds : ∀ c ∈ ds, c.isDigit = true) :
    numeral? ds = some (nearest (natOf 10 ds) 0) := by
  have hspan : spanDigits ds = (ds, []) :=
    spanDigits_eq_iff.2 ⟨(List.append_nil ds).symm, hds, nofun⟩
  have hmantissa : mantissa? ds = some ((ds, []), []) := by
    unfold mantissa?
    rw [hspan]
    exact if_neg fun h => hne h.1
  unfold numeral?
  rw [hmantissa]
  change some (nearest (natOf 10 (ds ++ [])) 0) = _
  rw [List.append_nil]

/-- A text without sign. -/
def unsigned? (s : List Char) : Option Float :=
  if sameLetters (String.ofList s) "inf" ∨ sameLetters (String.ofList s) "infinity" then some (1 / 0)
  else if sameLetters (String.ofList s) "nan" then some (0 / 0)
  else numeral? s

theorem floatText?_eq (s : List Char) :
    floatText? s = (unsigned? (spanSign s).2).map (signedFloat (spanSign s).1) := by
  have hinf {s : List Char} := ofList_map_toLower_eq_iff (s := s) (w := "inf") rfl
  have hinfinity {s : List Char} := ofList_map_toLower_eq_iff (s := s) (w := "infinity") rfl
  have hnan {s : List Char} := ofList_map_toLower_eq_iff (s := s) (w := "nan") rfl
  unfold floatText? unsigned?
  dsimp only
  simp only [hinf, hinfinity, hnan]
  split
  · rfl
  split
  · rfl
  unfold numeral?
  cases mantissa? (spanSign s).2 with
  | none => rfl
  | some r =>
    simp only [Option.bind_eq_bind, Option.bind_some]
    cases exponentPart? r.2 <;> rfl

/-- **An integer as a double**: the nearest to its digits, with its sign. -/
theorem floatText?_of_isDigit {negative : Bool} {sign ds : List Char} (hsign : SignText negative sign) (hne : ds ≠ [])
    (hds : ∀ c ∈ ds, c.isDigit = true) :
    floatText? (sign ++ ds) = some (signedFloat negative (nearest (natOf 10 ds) 0)) := by
  have hinf : sameLetters (String.ofList ds) "inf" = false := sameLetters_of_isDigit hne hds rfl
  have hinfinity : sameLetters (String.ofList ds) "infinity" = false := sameLetters_of_isDigit hne hds rfl
  have hnan : sameLetters (String.ofList ds) "nan" = false := sameLetters_of_isDigit hne hds rfl
  have hunsigned : unsigned? ds = some (nearest (natOf 10 ds) 0) := by
    unfold unsigned?
    rw [hinf, hinfinity, hnan, numeral?_of_isDigit hne hds]
    rfl
  rw [floatText?_eq, hsign.spanSign_append (noSign_of_isDigit hds)]
  dsimp only
  rw [hunsigned, Option.map_some]

/-! ### Words -/

/-- A word for what is not finite, in any letter case. -/
inductive NotFiniteWord (w : List Char) : Float → Prop
  | infinity : sameLetters (String.ofList w) "inf" ∨ sameLetters (String.ofList w) "infinity" → NotFiniteWord w (1 / 0)
  | nan : sameLetters (String.ofList w) "nan" → NotFiniteWord w (0 / 0)

namespace NotFiniteWord

variable {w : List Char} {x : Float}

theorem noSign (h : NotFiniteWord w x) : ∀ c ∈ w.head?, c ≠ '-' ∧ c ≠ '+' := by
  rcases h with (hinf | hinfinity) | hnan
  · exact noSign_of_sameLetters hinf (by decide)
  · exact noSign_of_sameLetters hinfinity (by decide)
  · exact noSign_of_sameLetters hnan (by decide)

/-- A text that is one word is no other. -/
theorem sameLetters_eq_false (h : NotFiniteWord w x) {t : String}
    (ht : ∀ u ∈ ["inf", "infinity", "nan"], sameLetters u t = false) : sameLetters (String.ofList w) t = false := by
  rcases h with (hinf | hinfinity) | hnan
  · exact (sameLetters_congr hinf t).trans (ht _ (by decide))
  · exact (sameLetters_congr hinfinity t).trans (ht _ (by decide))
  · exact (sameLetters_congr hnan t).trans (ht _ (by decide))

theorem unsigned?_eq (h : NotFiniteWord w x) : unsigned? w = some x := by
  unfold unsigned?
  cases h with
  | infinity hw => exact if_pos hw
  | nan hw =>
    have hother : ¬ (sameLetters (String.ofList w) "inf" ∨ sameLetters (String.ofList w) "infinity") := by
      rw [sameLetters_congr hw, sameLetters_congr hw]
      decide
    rw [if_neg hother, if_pos hw]

end NotFiniteWord

theorem notFiniteWord_of_unsigned? {w : List Char} {x : Float} (h : ∀ c ∈ w, c.isDigit = false)
    (hx : unsigned? w = some x) : NotFiniteWord w x := by
  unfold unsigned? at hx
  rw [numeral?_of_digitless h] at hx
  split at hx
  case isTrue hinfinity =>
    cases hx
    exact .infinity hinfinity
  case isFalse =>
    split at hx
    case isTrue hnan =>
      cases hx
      exact .nan hnan
    case isFalse => cases hx

/-- A word for what is not finite, with an optional sign. -/
inductive FloatWord (s : List Char) : Float → Prop
  | mk {negative : Bool} {sign w : List Char} {x : Float} : SignText negative sign → s = sign ++ w →
    NotFiniteWord w x → FloatWord s (signedFloat negative x)

section FloatWord

variable {s : List Char} {x : Float}

theorem FloatWord.exactValue?_eq_none (h : FloatWord s x) : exactValue? x = none := by
  obtain @⟨negative, _, _, _, -, -, hword⟩ := h
  cases hword <;> cases negative <;> rfl

theorem FloatWord.sameLetters_eq_false (h : FloatWord s x) {t : String}
    (hsign : '-' ∉ t.toList.map foldAscii ∧ '+' ∉ t.toList.map foldAscii)
    (ht : ∀ u ∈ ["inf", "infinity", "nan"], sameLetters u t = false) : sameLetters (String.ofList s) t = false := by
  by_contra hsame
  rw [Bool.not_eq_false] at hsame
  have hnone := noSign_of_sameLetters hsame hsign
  obtain ⟨hs, rfl, hword⟩ := h
  cases hs with
  | minus => exact (hnone '-' rfl).1 rfl
  | plus => exact (hnone '+' rfl).2 rfl
  | none =>
    rw [List.nil_append, hword.sameLetters_eq_false ht] at hsame
    cases hsame

/-- **A text without digits as a double**: the words, and no other. -/
theorem floatText?_eq_some_iff_of_digitless (h : ∀ c ∈ s, c.isDigit = false) :
    floatText? s = some x ↔ FloatWord s x := by
  rw [floatText?_eq]
  constructor
  · intro hx
    obtain ⟨sign, hsign, hs⟩ := signText_spanSign s
    have hrest : ∀ c ∈ (spanSign s).2, c.isDigit = false := fun c hc => h c (hs ▸ List.mem_append_right sign hc)
    obtain ⟨y, hy, rfl⟩ := Option.map_eq_some_iff.1 hx
    exact .mk hsign hs (notFiniteWord_of_unsigned? hrest hy)
  · rintro ⟨hsign, rfl, hword⟩
    rw [hsign.spanSign_append hword.noSign]
    dsimp only
    rw [hword.unsigned?_eq, Option.map_some]

end FloatWord

end SqlQuery.Number
