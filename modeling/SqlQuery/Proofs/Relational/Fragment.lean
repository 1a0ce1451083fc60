import Mathlib.Data.List.Forall2
import SqlQuery.Proofs.Form.Phrases

/-!
# Relations on fragments

A relation on fragments is `Compositional` when it relates every piece that the compiler writes by itself to
itself and is kept by putting fragments one after the other.  It is then kept by all the compiler's ways to put
fragments together; the two that look at whether a fragment has text (`clause`, `negation`) ask that related
fragments agree on it.

`wording` lists the phrases that are meant, which are all but those of paging clauses.
-/

namespace SqlQuery

open SqlQuery.Fragment SqlQuery.Text

/-- The phrases of paging clauses. -/
def pagingPhrases : List String := [" first ", " skip ", " offset ", " rows", " fetch first ", " rows only"]

/-- All that the compiler writes by itself, paging clauses apart. -/
def wording : List String :=
  phrases.filter (!pagingPhrases.contains ·) ++ enclosures.flatMap (fun e => [e.1, e.2]) ++ [randomOrder] ++
    Operator.all.map fun op => " " ++ op.symbol ++ " "

/-- A relation on fragments that holds of the compiler's own pieces and is kept when fragments are put one after
the other. -/
structure Compositional (R : Fragment → Fragment → Prop) : Prop where
  nil : R [] []
  append : ∀ {f g f' g'}, R f g → R f' g' → R (f ++ f') (g ++ g')
  word : ∀ w ∈ wording, R (word w) (word w)
  name : ∀ s, R (name s) (name s)
  part : ∀ s, R (part s) (part s)
  /-- SQL of the caller's own that binds nothing. -/
  raw : ∀ sql, R [.verbatim sql []] [.verbatim sql []]
  /-- Null is bound by operators that do not take it as a word. -/
  null : R [.bound .null] [.bound .null]

namespace Compositional

variable {R : Fragment → Fragment → Prop}

/-! ### Ways to put fragments together -/

section Combinators

variable {f g f' g' : Fragment} {fs gs : List Fragment}

theorem parenthesized (h : Compositional R) (hf : R f g) : R (parenthesized f) (parenthesized g) :=
  h.append (h.append (h.word _ (by decide)) hf) (h.word _ (by decide))

theorem joined (h : Compositional R) {w : String} (hw : w ∈ wording) (hfs : List.Forall₂ R fs gs) :
    R (joined w fs) (joined w gs) := by
  induction hfs with
  | nil => exact h.nil
  | @cons f g fs gs hf hrest ih =>
    cases hrest with
    | nil => simpa [Fragment.joined, List.intercalate] using hf
    | cons hf' hrest' =>
      unfold Fragment.joined at ih ⊢
      rw [intercalate_cons_cons, intercalate_cons_cons]
      exact h.append (h.append hf (h.word w hw)) ih

theorem clause (h : Compositional R) {w : String} (hw : " " ++ w ++ " " ∈ wording) (hf : R f g)
    (hblank : f.isBlank = g.isBlank) : R (clause w f) (clause w g) := by
  unfold Fragment.clause
  rw [hblank]
  split
  · exact hf
  · exact h.append (h.word _ hw) hf

theorem negation (h : Compositional R) (hf : R f g) (hblank : f.isBlank = g.isBlank) :
    R (negation f) (negation g) := by
  unfold SqlQuery.negation
  rw [hblank]
  split
  · exact hf
  · exact h.append (h.word _ (by decide)) (h.parenthesized hf)

theorem negatedComparison (h : Compositional R) (around : Bool) (hf : R f g) :
    R (negatedComparison around f) (negatedComparison around g) := by
  unfold SqlQuery.negatedComparison
  split
  · exact h.append (h.word _ (by decide)) (h.parenthesized hf)
  · exact hf

theorem notWord (h : Compositional R) (negated : Bool) : R (notWord negated) (notWord negated) := by
  cases negated with
  | false => exact h.nil
  | true => exact h.word _ (by decide)

theorem membership (h : Compositional R) (c : String) (negated : Bool) (hfs : List.Forall₂ R fs gs) :
    R (membership c negated fs) (membership c negated gs) := by
  unfold SqlQuery.membership
  cases hfs with
  | nil => cases negated <;> exact h.word _ (by decide)
  | cons hf hrest =>
    have hname := h.append (h.append (h.name c) (h.word " " (by decide))) (h.notWord negated)
    exact h.append (h.append hname (h.word _ (by decide)))
      (h.parenthesized (h.joined (by decide) (List.Forall₂.cons hf hrest)))

theorem procedureCall (h : Compositional R) (n : String) (hfs : List.Forall₂ R fs gs) :
    R (procedureCall n fs) (procedureCall n gs) :=
  h.append (h.append (h.name n) (h.word _ (by decide))) (h.parenthesized (h.joined (by decide) hfs))

theorem labelled (h : Compositional R) (hf : R f g) (label : Option String) :
    R (labelled f label) (labelled g label) := by
  cases label with
  | none => exact hf
  | some label => exact h.append (h.append hf (h.word _ (by decide))) (h.part label)

theorem join (h : Compositional R) (kind : JoinKind) (ht : R f g) (hon : R f' g') :
    R (kind.fragment f f') (kind.fragment g g') := by
  have hlateral : kind.keyword ++ " join lateral " ∈ wording := by cases kind <;> decide
  have hplain : kind.keyword ++ " join " ∈ wording := by cases kind <;> decide
  unfold JoinKind.fragment
  split
  · exact h.append (h.append (h.word _ hlateral) ht) (h.word _ (by decide))
  · split
    · exact h.append (h.word _ (by decide)) ht
    · exact h.append (h.append (h.append (h.word _ hplain) ht) (h.word _ (by decide))) hon

end Combinators

/-! ### Pieces without values -/

section Pieces

variable {lhs : Fragment}

theorem spacedSymbol (h : Compositional R) (op : Operator) : R op.spacedSymbol op.spacedSymbol :=
  h.word _ (List.mem_append_right _ (List.mem_map_of_mem (Operator.mem_all op)))

theorem ofColumn (h : Compositional R) (part : DatePart) (c : String) :
    R (part.ofColumn c) (part.ofColumn c) := by
  have hcast : " as " ++ part.keyword ++ ")" ∈ wording := by cases part <;> decide
  have hextract : "extract(" ++ part.keyword ++ " from " ∈ wording := by cases part <;> decide
  unfold DatePart.ofColumn
  split
  · exact h.append (h.append (h.word _ (by decide)) (h.name c)) (h.word _ hcast)
  · exact h.append (h.append (h.word _ hextract) (h.name c)) (h.word _ (by decide))

theorem compareNull (h : Compositional R) (hlhs : R lhs lhs) (op : Operator) :
    R (compareNull lhs op) (compareNull lhs op) := by
  have hop := h.append hlhs (h.spacedSymbol op)
  unfold SqlQuery.compareNull
  split
  · exact h.append hlhs (h.word _ (by decide))
  · exact h.append hlhs (h.word _ (by decide))
  · exact h.append hlhs (h.word _ (by decide))
  · split
    · exact h.append hop (h.word _ (by decide))
    · exact h.append hop h.null

theorem columns (h : Compositional R) (cs : List Column) : R (Column.list cs) (Column.list cs) := by
  have hcolumn : ∀ c : Column, R c.fragment c.fragment := by
    intro c
    cases c with
    | star => exact h.word _ (by decide)
    | named n => exact h.name n
    | aliased n label => exact h.append (h.append (h.name n) (h.word _ (by decide))) (h.part label)
    | raw sql => exact h.raw sql
  unfold Column.list
  split
  · exact h.word _ (by decide)
  · refine h.joined (by decide) (List.forall₂_map_left_iff.2 (List.forall₂_map_right_iff.2 ?_))
    exact List.forall₂_same.2 fun c _ => hcolumn c

theorem aggregate (h : Compositional R) (a : Aggregate) (distinct : Bool) :
    R (a.fragment distinct) (a.fragment distinct) := by
  have hfunc : a.func.keyword ++ "(" ∈ wording := by cases a.func <;> decide
  have hargument : R (a.argument distinct) (a.argument distinct) := by
    unfold Aggregate.argument
    split
    · exact h.word _ (by decide)
    · split
      · exact h.append (h.word _ (by decide)) (h.name _)
      · exact h.name _
  exact h.append (h.append (h.append (h.word _ hfunc) hargument) (h.word _ (by decide))) (h.part _)

theorem selection (h : Compositional R) (q : Query) (a : Option Aggregate) :
    R (q.selection a) (q.selection a) := by
  cases a with
  | some a => exact h.aggregate a q.distinct
  | none =>
    have hdistinct : R (if q.distinct then Fragment.word "distinct " else [])
        (if q.distinct then Fragment.word "distinct " else []) := by
      split
      · exact h.word _ (by decide)
      · exact h.nil
    exact h.append hdistinct (h.columns q.columns)

theorem ordering (h : Compositional R) (os : List OrderBy) : R (OrderBy.list os) (OrderBy.list os) := by
  have horder : ∀ o : OrderBy, R o.fragment o.fragment := by
    intro o
    cases o with
    | column c order => exact h.append (h.name c) (h.word _ (by cases order <;> decide))
    | raw sql => exact h.raw sql
    | random => exact h.word _ (by decide)
  refine h.joined (by decide) (List.forall₂_map_left_iff.2 (List.forall₂_map_right_iff.2 ?_))
  exact List.forall₂_same.2 fun o _ => horder o

theorem lock (h : Compositional R) (l : Lock) : R l.fragment l.fragment := by
  cases l with
  | forUpdate => exact h.word _ (by decide)
  | raw sql =>
    unfold Lock.fragment
    dsimp only
    split
    · exact h.nil
    · exact h.append (h.word _ (by decide)) (h.raw sql)

theorem grouping (h : Compositional R) (q : Query) : R q.grouping q.grouping := by
  unfold Query.grouping
  split
  · exact h.nil
  · exact h.append (h.word _ (by decide)) (h.columns _)

end Pieces

end Compositional

end SqlQuery
