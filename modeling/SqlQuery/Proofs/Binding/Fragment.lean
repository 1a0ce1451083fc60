import SqlQuery.Proofs.Form.Basic
import SqlQuery.Proofs.Lexical.Marks

/-!
# Fragments with their values written out

* `WellBound sql params` — SQL with closed quotes and one placeholder for each of its values;
* `filled sql params` — the SQL with the values as shown to people in place of the placeholders;
* `Fragment.inlined` — the same for a fragment, piece by piece (`Fragment.text_inlined`).
-/

namespace SqlQuery

open SqlQuery.Fragment SqlQuery.Text SqlQuery.Number

/-! ### The text of a scalar -/

theorem positionalText_ne_nil (style : FloatStyle) (d : Decimal) : style.positionalText d ≠ [] := by
  have hdigits : digits d.digits ≠ [] := Nat.toDigits_ne_nil
  unfold FloatStyle.positionalText
  dsimp only
  split
  · simp [hdigits]
  · split <;> simp

theorem plain_text_ne_empty (x : Float) : FloatStyle.plain.text x ≠ "" := by
  have hm : ∀ d, FloatStyle.plain.magnitude d ≠ [] := positionalText_ne_nil .plain
  unfold FloatStyle.text
  dsimp only
  split
  · split
    · decide
    · split <;> decide
  · rw [ne_eq, ← String.toList_eq_nil_iff, String.toList_ofList]
    split
    · exact List.cons_ne_nil _ _
    · exact hm _

/-- A value that is bound has a text. -/
theorem Value.text_ne_empty {v : Value} (h : v.isScalar = true) : v.text ≠ "" := by
  have hquoted : ∀ s, Value.quoted s ≠ "" := by
    intro s
    rw [Value.quoted, ne_eq, ← String.toList_eq_nil_iff, String.toList_ofList]
    exact List.cons_ne_nil _ _
  have hint : ∀ n : Int, toString n ≠ "" := by
    intro n
    rw [ne_eq, ← String.toList_eq_nil_iff]
    cases n with
    | ofNat m =>
      have htext : (toString (Int.ofNat m)).toList = Nat.toDigits 10 m := Nat.toList_repr
      rw [htext]
      exact Nat.toDigits_ne_nil
    | negSucc m =>
      have htext : toString (Int.negSucc m) = "-" ++ toString (m + 1) := rfl
      rw [htext, String.toList_append]
      exact List.cons_ne_nil _ _
  cases v with
  | null => decide
  | bool b => cases b <;> decide
  | int n => exact hint n
  | float x => exact plain_text_ne_empty x
  | string s => exact hquoted _
  | date d => exact hquoted _
  | time t => exact hquoted _
  | timestamp t => exact hquoted _
  | raw | column | list | subquery => exact nomatch h

/-! ### SQL and its values -/

/-- SQL with closed quotes and as many placeholders as it has values, all of them scalars. -/
structure WellBound (sql : String) (params : List Value) : Prop where
  evenQuotes : EvenQuotes sql.toList
  marks : bareMarks sql.toList = params.length
  scalars : ∀ v ∈ params, v.isScalar = true

instance (sql : String) (params : List Value) : Decidable (WellBound sql params) :=
  decidable_of_iff (EvenQuotes sql.toList ∧ bareMarks sql.toList = params.length ∧
    ∀ v ∈ params, v.isScalar = true) ⟨fun ⟨he, hm, hs⟩ => ⟨he, hm, hs⟩, fun h => ⟨h.1, h.2, h.3⟩⟩

/-- SQL with the texts of values in place of its placeholders. -/
def filled (sql : String) (params : List Value) : String :=
  String.ofList (fill false sql.toList (params.map fun v => v.text.toList))

theorem filled_nil (sql : String) : filled sql [] = sql := by
  rw [filled, List.map_nil, fill_nil, String.ofList_toList]

theorem filled_mark (v : Value) : filled "?" [v] = v.text := by
  have hmark : "?".toList = ['?'] := by decide
  rw [filled, hmark, List.map_singleton]
  simp [fill]

theorem wellBound_nil : WellBound "" [] := ⟨by decide, by decide, fun _ hv => nomatch hv⟩

namespace WellBound

variable {s t : String} {vs us : List Value}

theorem append (hs : WellBound s vs) (ht : WellBound t us) : WellBound (s ++ t) (vs ++ us) where
  evenQuotes := by
    rw [String.toList_append]
    exact hs.evenQuotes.append ht.evenQuotes
  marks := by
    rw [String.toList_append, hs.evenQuotes.bareMarks_append, List.length_append, hs.marks, ht.marks]
  scalars := List.forall_mem_append.2 ⟨hs.scalars, ht.scalars⟩

theorem filled_append (hs : WellBound s vs) (t : String) (us : List Value) :
    filled (s ++ t) (vs ++ us) = filled s vs ++ filled t us := by
  have hm : bareMarks s.toList = (vs.map fun v => v.text.toList).length := by
    rw [List.length_map]
    exact hs.marks
  rw [filled, String.toList_append, List.map_append, hs.evenQuotes.fill_append hm, String.ofList_append]
  rfl

/-- Values written out do not make SQL disappear. -/
theorem isEmpty_filled (hs : WellBound s vs) : (filled s vs).isEmpty = s.isEmpty := by
  have htexts : ∀ t ∈ vs.map fun v => v.text.toList, t ≠ [] := by
    rw [List.forall_mem_map]
    exact fun v hv => mt String.toList_eq_nil_iff.1 (Value.text_ne_empty (hs.scalars v hv))
  rw [Bool.eq_iff_iff, String.isEmpty_iff, String.isEmpty_iff, ← String.toList_eq_nil_iff, filled,
    String.toList_ofList, fill_eq_nil_iff htexts, String.toList_eq_nil_iff]

end WellBound

/-! ### Fragments -/

/-- A piece with its values written out. -/
def Piece.inlined : Piece → Piece
  | .bound v => .verbatim v.text []
  | .verbatim sql bindings => .verbatim (filled sql bindings) []
  | x => x

theorem Piece.text_inlined (x : Piece) : x.inlined.text = filled x.text x.params := by
  cases x with
  | word | name | part => exact (filled_nil _).symm
  | bound v => exact (filled_mark v).symm
  | verbatim => rfl

theorem Piece.params_inlined (x : Piece) : x.inlined.params = [] := by
  cases x <;> rfl

namespace Fragment

/-- A fragment with its values written out. -/
def inlined (f : Fragment) : Fragment := f.map Piece.inlined

/-- A fragment of pieces that have one placeholder for each of their values. -/
def PiecesBound (f : Fragment) : Prop := ∀ x ∈ f, WellBound x.text x.params

variable {f g : Fragment}

theorem text_cons (x : Piece) (f : Fragment) : text (x :: f) = x.text ++ text f := by
  simp [text, String.join_cons]

theorem PiecesBound.wellBound (h : PiecesBound f) : WellBound (text f) (params f) := by
  induction f with
  | nil => exact wellBound_nil
  | cons x f ih =>
    obtain ⟨hx, hf⟩ := List.forall_mem_cons.1 h
    rw [text_cons]
    exact hx.append (ih hf)

/-- **Values written out piece by piece** give the text with the values in place of its placeholders. -/
theorem text_inlined (h : PiecesBound f) : text f.inlined = filled (text f) (params f) := by
  induction f with
  | nil => exact (filled_nil _).symm
  | cons x f ih =>
    obtain ⟨hx, hf⟩ := List.forall_mem_cons.1 h
    have hparams : params (x :: f) = x.params ++ params f := rfl
    rw [text_cons, hparams, hx.filled_append, ← ih hf, ← Piece.text_inlined, inlined, List.map_cons, text_cons]
    rfl

theorem params_inlined (f : Fragment) : params f.inlined = [] := by
  rw [params, List.flatMap_eq_nil_iff]
  intro x hx
  obtain ⟨y, -, rfl⟩ := List.mem_map.1 hx
  exact y.params_inlined

theorem isBlank_inlined (h : PiecesBound f) : f.inlined.isBlank = f.isBlank := by
  induction f with
  | nil => rfl
  | cons x f ih =>
    obtain ⟨hx, hf⟩ := List.forall_mem_cons.1 h
    have hempty : x.inlined.text.isEmpty = x.text.isEmpty := by
      rw [Piece.text_inlined, hx.isEmpty_filled]
    have hrest := ih hf
    unfold isBlank inlined at hrest ⊢
    rw [List.map_cons, List.all_cons, List.all_cons, hempty, hrest]

end Fragment

end SqlQuery
