import SqlQuery.Proofs.Binding.Clauses
import SqlQuery.Proofs.Paging.Erasure
import SqlQuery.Proofs.Relational.Statement

/-!
# Statements of the two syntaxes side by side

The two runs of the compiler write the same pieces, but for paging clauses: those of the legacy syntax stand after
`select`, those of the modern one at the end of a select.

* `Aligned` — such fragments, the legacy one first;
* `paging_simulation` — the two runs are aligned;
* `Aligned.params_eq` — they bind the same values.
-/

namespace SqlQuery

open SqlQuery.Fragment SqlQuery.Text

/-- The same pieces, but for legacy clauses after `select` in the first fragment and modern clauses anywhere in the
second. -/
inductive Aligned : Fragment → Fragment → Prop
  | nil : Aligned [] []
  | piece {x : Piece} {f g : Fragment} : (∀ w, x = .word w → w ∈ wording) → Aligned f g →
      Aligned (x :: f) (x :: g)
  | leading {limit offset : Option Int} {f g : Fragment} : (∀ n ∈ limit, 0 ≤ n) → (∀ n ∈ offset, 0 ≤ n) →
      Aligned f g → Aligned (word "select" ++ (spaced (Paging.legacy.leading limit offset) ++ (word " " ++ f)))
        (word "select" ++ (word " " ++ g))
  | trailing {limit offset : Option Int} {f g : Fragment} : (∀ n ∈ limit, 0 ≤ n) → (∀ n ∈ offset, 0 ≤ n) →
      Aligned f g → Aligned f (spaced (Paging.modern.trailing limit offset) ++ g)

namespace Aligned

variable {f g f' g' : Fragment}

theorem append (h : Aligned f g) (h' : Aligned f' g') : Aligned (f ++ f') (g ++ g') := by
  induction h with
  | nil => exact h'
  | piece hw _ ih => exact .piece hw ih
  | leading hl ho _ ih =>
    simp only [List.append_assoc]
    exact .leading hl ho ih
  | trailing hl ho _ ih =>
    rw [List.append_assoc]
    exact .trailing hl ho ih

theorem compositional : Compositional Aligned where
  nil := .nil
  append := append
  word _ hw := .piece (fun _ e => Piece.word.inj e ▸ hw) .nil
  name _ := .piece nofun .nil
  part _ := .piece nofun .nil
  raw _ := .piece nofun .nil
  null := .piece nofun .nil

end Aligned

/-- The two syntaxes give aligned statements, if both give one. -/
theorem paging_simulation : Simulation .identity .legacy .modern (fun _ _ => True) Aligned where
  toCompositional := Aligned.compositional
  malformed _ := trivial
  unsupported _ := trivial
  unjoined _ _ _ _ := trivial
  checked _ := .of_forall (fun _ _ => trivial) fun _ _ _ _ => trivial
  verbatim _ _ := .piece nofun .nil
  bound _ _ _ := .piece nofun .nil
  head q a hq _ := by
    obtain ⟨-, -, hl, ho, -⟩ := Query.selectDefect?_eq_none.1 hq
    simp only [Query.head, List.append_assoc]
    exact .leading hl ho (Aligned.compositional.selection q a)
  tail q hq _ := by
    obtain ⟨-, -, hl, ho, -⟩ := Query.selectDefect?_eq_none.1 hq
    have horders : Aligned (if q.orders.isEmpty then [] else word " order by " ++ OrderBy.list q.orders)
        (if q.orders.isEmpty then [] else word " order by " ++ OrderBy.list q.orders) := by
      split
      · exact .nil
      · exact (Aligned.compositional.word _ (by decide)).append (Aligned.compositional.ordering q.orders)
    simp only [Query.tail, List.append_assoc]
    refine horders.append (.trailing hl ho ?_)
    cases q.lock with
    | none => exact .nil
    | some l => exact Aligned.compositional.lock l

namespace Aligned

variable {f g : Fragment}

theorem params_eq (h : Aligned f g) : params f = params g := by
  induction h with
  | nil => rfl
  | @piece x f g _ _ ih =>
    rw [← List.singleton_append, ← List.singleton_append (l := g), params_append, params_append, ih]
  | leading _ _ _ ih => simp only [params_append, params_word, params_spaced, List.nil_append, ih]
  | trailing _ _ _ ih => simp only [params_append, params_spaced, List.nil_append, ih]

end Aligned

end SqlQuery
