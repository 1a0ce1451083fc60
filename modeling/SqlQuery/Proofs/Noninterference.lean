import SqlQuery.Proofs.Relational.Statement

/-!
# Values do not reach the text

The *shape* of a description is what is left when every scalar in it but null is made the same.  Descriptions of
one shape compile to one text, or fail with one error, so that nobody can tell from the SQL what the bound values
were, except for which of them are null.

* `Query.shape` — the description without its values;
* `SameShape` — two fragments of one text, whose values are null in the same places;
* `Query.compile_of_shape_eq` — **the text of a statement depends on the shape alone**.
-/

namespace SqlQuery

open SqlQuery.Fragment

/-! ### Shapes -/

/-- Null, or one scalar that stands for all others. -/
def Value.mark : Value → Value
  | .null => .null
  | _ => .int 0

theorem Value.mark_eq_null (v : Value) : v.mark = .null ↔ v = .null := by
  cases v <;> simp [Value.mark]

theorem Value.isScalar_mark (v : Value) : v.mark.isScalar = true := by
  cases v <;> rfl

/-- Every scalar replaced by its mark, also where the caller's own SQL binds it. -/
def Rewriting.shape : Rewriting :=
  { Rewriting.identity with
    scalar := Value.mark
    inBindings := true
    isScalar_scalar := fun v _ => v.isScalar_mark
    scalar_eq_null := fun v _ => v.mark_eq_null }

/-- The query with all scalars but null made the same, at every depth. -/
def Query.shape (q : Query) : Query := q.rewritten .shape

/-! ### Fragments of one shape -/

theorem Value.mark_narrowTo (v : Value) (part : Option DatePart) : (v.narrowTo part).mark = v.mark := by
  cases part with
  | none => rfl
  | some part => cases part <;> cases v <;> rfl

/-- Values with the same marks are null in the same places. -/
theorem forall₂_null_of_map_mark {vs ws : List Value} (h : vs.map Value.mark = ws.map Value.mark) :
    List.Forall₂ (fun v w => v = .null ↔ w = .null) vs ws := by
  rw [← List.forall₂_eq_eq_eq, List.forall₂_map_left_iff, List.forall₂_map_right_iff] at h
  exact h.imp fun v w hvw => by rw [← v.mark_eq_null, hvw, w.mark_eq_null]

/-- The same text, and values with the same marks. -/
structure SameShape (f g : Fragment) : Prop where
  text : text f = text g
  marks : (params f).map Value.mark = (params g).map Value.mark

namespace SameShape

variable {f g k f' g' : Fragment}

theorem refl (f : Fragment) : SameShape f f := ⟨rfl, rfl⟩

theorem symm (h : SameShape f g) : SameShape g f := ⟨h.text.symm, h.marks.symm⟩

theorem trans (h : SameShape f g) (h' : SameShape g k) : SameShape f k :=
  ⟨h.text.trans h'.text, h.marks.trans h'.marks⟩

theorem append (h : SameShape f g) (h' : SameShape f' g') : SameShape (f ++ f') (g ++ g') where
  text := by rw [text_append, text_append, h.text, h'.text]
  marks := by rw [params_append, params_append, List.map_append, List.map_append, h.marks, h'.marks]

end SameShape

/-! ### Noninterference -/

/-- Putting marks in place of values keeps the shape of every fragment and every error. -/
theorem shape_simulation (p : Paging) : Simulation .shape p p (· = ·) SameShape where
  malformed _ := rfl
  unsupported _ := rfl
  unjoined kind _ _ h := by rw [h.text]
  checked q := by
    cases q.selectDefect? p with
    | none => trivial
    | some d => rfl
  nil := .refl []
  append := .append
  word _ _ := .refl _
  name _ := .refl _
  part _ := .refl _
  raw _ := .refl _
  null := .refl _
  verbatim sql bindings := by
    have hin : Rewriting.shape.inBindings = true := rfl
    have hmark : ∀ v : Value, (v.rewritten .shape).mark = v.mark := by
      intro v
      cases v <;> rfl
    rw [if_pos hin]
    refine ⟨rfl, ?_⟩
    simp [Fragment.params, Piece.params, Value.allRewritten_eq_map, hmark]
  bound part v hv := by
    refine ⟨rfl, congrArg (· :: []) ?_⟩
    have hmark : v.mark.mark = v.mark := by cases v <;> rfl
    exact (v.mark_narrowTo part).trans (hmark.symm.trans (v.mark.mark_narrowTo part).symm)
  head _ _ _ _ := .refl _
  tail _ _ _ := .refl _

/-- **Noninterference.**  Two descriptions of one shape fail with the same error, or compile to statements with the
same text and as many values, null in the same places. -/
theorem Query.compile_of_shape_eq {q r : Query} (h : q.shape = r.shape) (p : Paging) :
    (∃ e, q.compile p = .error e ∧ r.compile p = .error e) ∨
      ∃ s t, q.compile p = .ok s ∧ r.compile p = .ok t ∧ s.sql = t.sql ∧
        List.Forall₂ (fun v w => v = .null ↔ w = .null) s.params t.params := by
  have hne : Error.config ≠ .connection "" := nofun
  have hq := Query.fragment_agree (shape_simulation p) q
  have hr := Query.fragment_agree (shape_simulation p) r
  rw [← Query.shape, h] at hq
  rw [← Query.shape] at hr
  rcases hq.cases hne with ⟨e, e', hqe, hqe', rfl⟩ | ⟨f, g, hqf, hqg, hfg⟩
  · rcases hr.cases hne with ⟨d, d', hrd, hrd', rfl⟩ | ⟨f', g', -, hrg', -⟩
    · obtain rfl : e = d := Except.error.inj (hqe'.symm.trans hrd')
      exact Or.inl ⟨e, Query.compile_eq_error.2 hqe, Query.compile_eq_error.2 hrd⟩
    · exact nomatch hqe'.symm.trans hrg'
  · rcases hr.cases hne with ⟨d, d', -, hrd', -⟩ | ⟨f', g', hrf', hrg', hfg'⟩
    · exact nomatch hqg.symm.trans hrd'
    · obtain rfl : g = g' := Except.ok.inj (hqg.symm.trans hrg')
      have hboth := hfg.trans hfg'.symm
      exact Or.inr ⟨_, _, Query.compile_eq_ok.2 ⟨f, hqf, rfl⟩, Query.compile_eq_ok.2 ⟨f', hrf', rfl⟩,
        hboth.text, forall₂_null_of_map_mark hboth.marks⟩

/-- A query that binds values in a procedure, in a table of the caller's own, between bounds, in a part of a date,
in a list and below a negation. -/
def searching (name key day : Value) : Query where
  table := some (.procedure "find" [name, .null])
  joins := [⟨.inner, .raw "log(?) l" [key], some (.columns "l.id" "=" "f.id")⟩]
  filter := some (.and [.between "k" key (.int 9), .datePart "d" .year ">=" day,
    .not (.or [.isIn "name" [name, .column "nick"], .raw "f(?)" [name]])])

def harmlessSearch : Query := searching (.string "Ann") (.int 7) (.int 2024)

/-- Other values of other types, one of them an attempt at an injection. -/
def hostileSearch : Query := searching (.bool true) (.string "' or 1 = 1 --") (.date ⟨1999, 2, 28, by decide⟩)

set_option maxRecDepth 4000 in
theorem compile_of_shape_eq_searching : harmlessSearch.shape = hostileSearch.shape ∧
    ∃ s t, harmlessSearch.compile .modern = .ok s ∧ hostileSearch.compile .modern = .ok t ∧ s.sql = t.sql ∧
      List.Forall₂ (fun v w => v = .null ↔ w = .null) s.params t.params := by
  have hshape : harmlessSearch.shape = hostileSearch.shape := rfl
  refine ⟨hshape, ?_⟩
  rcases Query.compile_of_shape_eq hshape .modern with ⟨e, he, -⟩ | h
  · exact nomatch he
  · exact h

end SqlQuery
