import SqlQuery.Proofs.Acceptance.Silent
import SqlQuery.Proofs.Relational.Agreement

/-!
# The compiler keeps simulations

By induction on the description, one theorem for each function of the compiler: what it gives for a description
and for the rewritten one agrees in every simulation.

* `Filter.silent_rewritten` — the same trees have no text, so that the same clauses are left out;
* `Query.select_agree` — selects, at any depth;
* `Query.fragment_agree` — **statements of every kind**.
-/

namespace SqlQuery

open SqlQuery.Fragment SqlQuery.Text

variable {ρ : Rewriting} {p p' : Paging} {E : Error → Error → Prop} {R : Fragment → Fragment → Prop}

/-! ### Conditions without text -/

mutual

theorem Filter.silent_rewritten : ∀ c : Filter, (c.rewritten ρ).Silent ↔ c.Silent
  | .and cs => by
    have hparens := (Filter.and cs).needsParens_rewritten (ρ := ρ)
    rw [Filter.rewritten] at hparens ⊢
    rw [Filter.Silent, Filter.Silent, hparens, Filter.allSilent_rewritten cs]
  | .or cs => by
    have hparens := (Filter.or cs).needsParens_rewritten (ρ := ρ)
    rw [Filter.rewritten] at hparens ⊢
    rw [Filter.Silent, Filter.Silent, hparens, Filter.allSilent_rewritten cs]
  | .not c => by
    rw [Filter.rewritten, Filter.Silent, Filter.Silent]
    exact Filter.silent_rewritten c
  | .predicate _ => Iff.rfl
  | .raw _ _ => Iff.rfl

theorem Filter.allSilent_rewritten : ∀ cs : List Filter,
    Filter.AllSilent (Filter.allRewritten ρ cs) ↔ Filter.AllSilent cs
  | [] => Iff.rfl
  | c :: cs => by
    rw [Filter.allRewritten, Filter.AllSilent, Filter.AllSilent, Filter.silent_rewritten c,
      Filter.allSilent_rewritten cs]

end

theorem Filter.isBlank_rewritten {c : Filter} {f g : Fragment} (hf : c.fragment p = .ok f)
    (hg : (c.rewritten ρ).fragment p' = .ok g) : f.isBlank = g.isBlank := by
  rw [Bool.eq_iff_iff, Filter.isBlank_iff_silent c hf, Filter.isBlank_iff_silent _ hg, Filter.silent_rewritten]

theorem Filter.optional_isBlank_rewritten {c : Option Filter} {f g : Fragment}
    (hf : Filter.optional p c = .ok f) (hg : Filter.optional p' (Filter.optRewritten ρ c) = .ok g) :
    f.isBlank = g.isBlank := by
  cases c with
  | none =>
    cases hf
    cases hg
    rfl
  | some c => exact Filter.isBlank_rewritten hf hg

/-! ### The recursion -/

section Recursion

theorem Value.scalar_agree (h : Simulation ρ p p' E R) (part : Option DatePart) {v : Value}
    (hv : v.isScalar = true) : Agree E R (v.fragment p part) ((v.rewritten ρ).fragment p' part) := by
  rw [Value.rewritten_of_isScalar hv, Value.fragment_of_isScalar hv,
    Value.fragment_of_isScalar (ρ.isScalar_scalar v hv)]
  exact h.bound part hv

theorem Value.scalar_bounds_agree (part : Option DatePart) {v : Value} (hv : v.isScalar = true) :
    Option.Rel (Agree E fun a b => R a.1 b.1 ∧ R a.2 b.2) (v.bounds? p part)
      ((v.rewritten ρ).bounds? p' part) := by
  have hnone : ∀ {p : Paging} {w : Value}, w.isScalar = true → w.bounds? p part = none := by
    intro p w hw
    cases w with
    | list => exact nomatch hw
    | _ => rfl
  rw [Value.rewritten_of_isScalar hv, hnone hv, hnone (ρ.isScalar_scalar v hv)]
  exact .none

mutual

theorem Value.fragment_agree (h : Simulation ρ p p' E R) (part : Option DatePart) : ∀ v : Value,
    Agree E R (v.fragment p part) ((v.rewritten ρ).fragment p' part)
  | .raw sql => h.raw sql
  | .column c => h.name c
  | .list _ => h.malformed _
  | .subquery q => by
    rw [Value.rewritten, Value.fragment, Value.fragment]
    exact (Query.select_agree h q).map fun _ _ => h.parenthesized
  | .null | .bool _ | .int _ | .float _ | .string _ | .date _ | .time _ | .timestamp _ =>
    Value.scalar_agree h part rfl

theorem Value.bounds_agree (h : Simulation ρ p p' E R) (part : Option DatePart) : ∀ v : Value,
    Option.Rel (Agree E fun a b => R a.1 b.1 ∧ R a.2 b.2) (v.bounds? p part) ((v.rewritten ρ).bounds? p' part)
  | .list [low, high] => by
    refine .some ((Value.fragment_agree h part low).bind fun a b _ _ hab => ?_)
    exact (Value.fragment_agree h part high).map fun _ _ hcd => ⟨hab, hcd⟩
  | .list [] | .list [_] | .list (_ :: _ :: _ :: _) | .raw _ | .column _ | .subquery _ => .none
  | .null | .bool _ | .int _ | .float _ | .string _ | .date _ | .time _ | .timestamp _ =>
    Value.scalar_bounds_agree part rfl

theorem Value.fragments_agree (h : Simulation ρ p p' E R) : ∀ vs : List Value,
    Agree E (List.Forall₂ R) (Value.fragments p vs) (Value.fragments p' (Value.allRewritten ρ vs))
  | [] => List.Forall₂.nil
  | v :: vs => by
    rw [Value.allRewritten, Value.fragments, Value.fragments]
    refine (Value.fragment_agree h none v).bind fun a b _ _ hab => ?_
    exact (Value.fragments_agree h vs).map fun _ _ hvs => List.Forall₂.cons hab hvs

theorem TableRef.fragment_agree (h : Simulation ρ p p' E R) : ∀ t : TableRef,
    Agree E R (t.fragment p) ((t.rewritten ρ).fragment p')
  | .named n => (h.refused _).map fun _ _ _ => h.name n
  | .raw sql bindings => h.verbatim sql bindings
  | .subquery q label => by
    rw [TableRef.rewritten, TableRef.fragment, TableRef.fragment]
    refine (Query.select_agree h q).map fun _ _ hab => ?_
    exact h.labelled (h.parenthesized hab) label
  | .procedure n args => by
    rw [TableRef.rewritten, TableRef.fragment, TableRef.fragment]
    refine (h.refused _).bind fun _ _ _ _ _ => ?_
    exact (Value.fragments_agree h args).map fun _ _ => h.procedureCall n

theorem TableRef.optional_agree (h : Simulation ρ p p' E R) : ∀ t : Option TableRef,
    Agree E R (TableRef.optional p t) (TableRef.optional p' (TableRef.optRewritten ρ t))
  | none => h.nil
  | some t => TableRef.fragment_agree h t

theorem Join.fragment_agree (h : Simulation ρ p p' E R) : ∀ j : Join,
    Agree E R (j.fragment p) ((j.rewritten ρ).fragment p')
  | ⟨kind, table, on⟩ => by
    rw [Join.rewritten, Join.fragment, Join.fragment]
    refine (TableRef.fragment_agree h table).bind fun t t' _ _ ht => ?_
    cases hk : kind.takesCondition with
    | false => exact h.join kind ht h.nil
    | true =>
      refine (Filter.optional_agree h on).bind fun c c' hc hc' hcc => ?_
      dsimp only
      rw [Filter.optional_isBlank_rewritten hc hc']
      split
      · exact h.unjoined kind ht
      · exact h.join kind ht hcc

theorem Join.fragments_agree (h : Simulation ρ p p' E R) : ∀ js : List Join,
    Agree E R (Join.fragments p js) (Join.fragments p' (Join.allRewritten ρ js))
  | [] => h.nil
  | j :: js => by
    rw [Join.allRewritten, Join.fragments, Join.fragments]
    refine (Join.fragment_agree h j).bind fun _ _ _ _ hj => ?_
    exact (Join.fragments_agree h js).map fun _ _ hjs => h.append (h.append (h.word _ (by decide)) hj) hjs

theorem Filter.fragment_agree (h : Simulation ρ p p' E R) : ∀ c : Filter,
    Agree E R (c.fragment p) ((c.rewritten ρ).fragment p')
  | .and cs => by
    rw [Filter.rewritten, Filter.fragment, Filter.fragment]
    exact (Filter.group_agree h cs).map fun _ _ => h.joined (by decide)
  | .or cs => by
    rw [Filter.rewritten, Filter.fragment, Filter.fragment]
    exact (Filter.group_agree h cs).map fun _ _ => h.joined (by decide)
  | .not c => by
    rw [Filter.rewritten, Filter.fragment, Filter.fragment]
    refine (Filter.fragment_agree h c).bind fun _ _ hf hg hfg => ?_
    exact h.negation hfg (Filter.isBlank_rewritten hf hg)
  | .predicate c => Predicate.fragment_agree h c
  | .raw sql bindings => h.verbatim sql bindings

theorem Filter.group_agree (h : Simulation ρ p p' E R) : ∀ cs : List Filter,
    Agree E (List.Forall₂ R) (Filter.group p cs) (Filter.group p' (Filter.allRewritten ρ cs))
  | [] => List.Forall₂.nil
  | c :: cs => by
    rw [Filter.allRewritten, Filter.group, Filter.group, Filter.isEmpty_rewritten]
    split
    · exact Filter.group_agree h cs
    · refine (Filter.fragment_agree h c).bind fun _ _ _ _ hc => ?_
      refine (Filter.group_agree h cs).map fun _ _ hcs => List.Forall₂.cons ?_ hcs
      rw [Filter.needsParens_rewritten]
      split
      · exact h.parenthesized hc
      · exact hc

theorem Filter.optional_agree (h : Simulation ρ p p' E R) : ∀ c : Option Filter,
    Agree E R (Filter.optional p c) (Filter.optional p' (Filter.optRewritten ρ c))
  | none => h.nil
  | some c => Filter.fragment_agree h c

theorem Predicate.fragment_agree (h : Simulation ρ p p' E R) : ∀ c : Predicate,
    Agree E R (c.fragment p) ((c.rewritten ρ).fragment p')
  | .compare c op v negated => by
    rw [Predicate.rewritten, Predicate.fragment, Predicate.fragment]
    refine (h.resolve op).bind fun o o' _ _ ho => ?_
    subst ho
    refine (h.comparison (h.name c) _ v (Value.fragment_agree h none v) (Value.bounds_agree h none v)).map ?_
    exact fun _ _ => h.negatedComparison _
  | .isIn c vs negated => by
    rw [Predicate.rewritten, Predicate.fragment, Predicate.fragment]
    exact (Value.fragments_agree h vs).map fun _ _ => h.membership c negated
  | .inSelect c q negated => by
    rw [Predicate.rewritten, Predicate.fragment, Predicate.fragment]
    refine (Query.select_agree h q).map fun _ _ hq => ?_
    have hname := h.append (h.append (h.name c) (h.word " " (by decide))) (h.notWord negated)
    exact h.append (h.append hname (h.word _ (by decide))) (h.parenthesized hq)
  | .isNull c negated => by
    have hname := h.append (h.append (h.name c) (h.word " is " (by decide))) (h.notWord negated)
    exact h.append hname (h.word _ (by decide))
  | .datePart c part op v => by
    rw [Predicate.rewritten, Predicate.fragment, Predicate.fragment]
    refine (h.resolve op).bind fun o o' _ _ ho => ?_
    subst ho
    exact h.comparison (h.ofColumn part c) o v (Value.fragment_agree h (some part) v)
      (Value.bounds_agree h (some part) v)
  | .rowExists q negated => by
    rw [Predicate.rewritten, Predicate.fragment, Predicate.fragment]
    refine (Query.select_agree h q).map fun _ _ hq => ?_
    exact h.append (h.append (h.notWord negated) (h.word _ (by decide))) (h.parenthesized hq)

theorem Branch.fragments_agree (h : Simulation ρ p p' E R) : ∀ bs : List Branch,
    Agree E R (Branch.fragments p bs) (Branch.fragments p' (Branch.allRewritten ρ bs))
  | [] => h.nil
  | ⟨op, q⟩ :: bs => by
    have hop : " " ++ op.keyword ++ " " ∈ wording := by cases op <;> decide
    rw [Branch.allRewritten, Branch.fragments, Branch.fragments, q.rewritten_sameOutline.branchDefect?_eq]
    refine (h.refused _).bind fun _ _ _ _ _ => (Query.select_agree h q).bind fun _ _ _ _ hq => ?_
    exact (Branch.fragments_agree h bs).map fun _ _ hbs => h.append (h.append (h.word _ hop) hq) hbs

theorem Query.select_agree (h : Simulation ρ p p' E R) : ∀ q : Query,
    Agree E R (q.select p) ((q.rewritten ρ).select p')
  | ⟨action, table, distinct, columns, joins, filter, groups, having, orders, limit, offset, aggregate,
      branches, lock, assignments, returning⟩ => by
    have hq := Query.rewritten_sameOutline (ρ := ρ) ⟨action, table, distinct, columns, joins, filter, groups,
      having, orders, limit, offset, aggregate, branches, lock, assignments, returning⟩
    rw [Query.select_eq, Query.select_eq, hq.selectDefect?_eq]
    refine (h.checked _).bind fun _ _ hd hd' _ => ?_
    refine (TableRef.optional_agree h table).bind fun _ _ _ _ ht => ?_
    refine (Join.fragments_agree h joins).bind fun _ _ _ _ hj => ?_
    refine (Filter.optional_agree h filter).bind fun _ _ hw hw' hww => ?_
    refine (Filter.optional_agree h having).bind fun _ _ hg hg' hgg => ?_
    refine (Branch.fragments_agree h branches).map fun _ _ hb => ?_
    rw [hq.assembled_eq]
    exact h.assembled (refuse_eq_ok.1 hd) (refuse_eq_ok.1 hd') ht hj hww (Filter.optional_isBlank_rewritten hw hw')
      hgg (Filter.optional_isBlank_rewritten hg hg') hb

end

end Recursion

/-! ### Writes -/

section Writes

theorem Query.assignments_rewritten (q : Query) :
    (q.rewritten ρ).assignments = Assignment.allRewritten ρ q.assignments := by
  rw [q.rewritten_eq]

theorem Query.target_rewritten (q : Query) : (q.rewritten ρ).target = q.target := by
  rw [q.rewritten_eq]
  unfold Query.target
  dsimp only
  cases q.table with
  | none => rfl
  | some t => cases t <;> rfl

theorem Assignment.map_value_rewritten (as : List Assignment) :
    (Assignment.allRewritten ρ as).map Assignment.value = Value.allRewritten ρ (as.map Assignment.value) := by
  induction as with
  | nil => rfl
  | cons a as ih =>
    obtain ⟨c, v⟩ := a
    rw [Assignment.allRewritten, List.map_cons, List.map_cons, Value.allRewritten, ih]

theorem Assignment.map_column_rewritten (as : List Assignment) :
    (Assignment.allRewritten ρ as).map Assignment.column = as.map Assignment.column := by
  induction as with
  | nil => rfl
  | cons a as ih =>
    obtain ⟨c, v⟩ := a
    rw [Assignment.allRewritten, List.map_cons, List.map_cons, ih]

namespace Simulation

variable {q : Query}

theorem target (h : Simulation ρ p p' E R) (q : Query) : Agree E (· = ·) q.target (q.rewritten ρ).target := by
  rw [q.target_rewritten]
  unfold Query.target
  split
  · split
    · exact h.malformed _
    · rfl
  · exact h.malformed _
  · exact h.malformed _

theorem refuseReadClauses (h : Simulation ρ p p' E R) (q : Query) :
    Agree E (fun _ _ => True) q.refuseReadClauses (q.rewritten ρ).refuseReadClauses := by
  rw [q.rewritten_sameOutline.refuseReadClauses_eq]
  exact h.refused _

theorem assigned (h : Simulation ρ p p' E R) (q : Query) :
    Agree E (List.Forall₂ R) (q.assigned p) ((q.rewritten ρ).assigned p') := by
  rw [Query.assigned_eq, Query.assigned_eq, q.assignments_rewritten, Assignment.map_value_rewritten]
  exact Value.fragments_agree h _

theorem condition (h : Simulation ρ p p' E R) (q : Query) :
    Agree E R (q.condition p) ((q.rewritten ρ).condition p') := by
  unfold Query.condition
  rw [q.rewritten_eq]
  refine (Filter.optional_agree h q.filter).bind fun _ _ hf hg hfg => ?_
  exact h.clause (by decide) hfg (Filter.optional_isBlank_rewritten hf hg)

theorem names (h : Simulation ρ p p' E R) (ns : List String) :
    R (Fragment.joined ", " (ns.map Fragment.name)) (Fragment.joined ", " (ns.map Fragment.name)) := by
  refine h.joined (by decide) (List.forall₂_map_left_iff.2 (List.forall₂_map_right_iff.2 ?_))
  exact List.forall₂_same.2 fun n _ => h.name n

theorem givesBack (h : Simulation ρ p p' E R) (q : Query) : R q.givesBack (q.rewritten ρ).givesBack := by
  rw [q.rewritten_sameOutline.givesBack_eq]
  unfold Query.givesBack
  split
  · exact h.nil
  · exact h.append (h.word _ (by decide)) (h.names _)

/-- The columns of an insert, which no rewriting changes. -/
theorem columnNames (h : Simulation ρ p p' E R) (q : Query) :
    R (Fragment.joined ", " (q.assignments.map fun a => Fragment.name a.column))
      (Fragment.joined ", " ((q.rewritten ρ).assignments.map fun a => Fragment.name a.column)) := by
  have hnames : ∀ as : List Assignment,
      (as.map fun a => Fragment.name a.column) = (as.map Assignment.column).map Fragment.name :=
    fun as => by rw [List.map_map]; rfl
  rw [hnames, hnames, q.assignments_rewritten, Assignment.map_column_rewritten]
  exact h.names _

/-- The columns of an update with their new values. -/
theorem sets (h : Simulation ρ p p' E R) (as : List Assignment) {fs gs : List Fragment}
    (hfs : List.Forall₂ R fs gs) :
    List.Forall₂ R ((as.zip fs).map fun (a, v) => Fragment.name a.column ++ Fragment.word " = " ++ v)
      (((Assignment.allRewritten ρ as).zip gs).map fun (a, v) =>
        Fragment.name a.column ++ Fragment.word " = " ++ v) := by
  induction as generalizing fs gs with
  | nil => exact .nil
  | cons a as ih =>
    obtain ⟨c, v⟩ := a
    cases hfs with
    | nil => exact .nil
    | cons hf hrest =>
      exact .cons (h.append (h.append (h.name c) (h.word _ (by decide))) hf) (ih hrest)

theorem insertFragment (h : Simulation ρ p p' E R) (q : Query) :
    Agree E R (q.insertFragment p) ((q.rewritten ρ).insertFragment p') := by
  unfold Query.insertFragment
  refine (h.target q).bind fun n _ _ _ hn => (h.refuseReadClauses q).bind fun _ _ _ _ _ => ?_
  subst hn
  rw [q.rewritten_sameOutline.insertDefect?_eq]
  refine (h.refused _).bind fun _ _ _ _ _ => (h.assigned q).map fun _ _ hvs => ?_
  have hinto := h.append (h.append (h.word "insert into " (by decide)) (h.name n)) (h.word " " (by decide))
  have hcolumns := h.append (h.append hinto (h.parenthesized (h.columnNames q))) (h.word " values " (by decide))
  exact h.append (h.append hcolumns (h.parenthesized (h.joined (by decide) hvs))) (h.givesBack q)

theorem updateFragment (h : Simulation ρ p p' E R) (q : Query) :
    Agree E R (q.updateFragment p) ((q.rewritten ρ).updateFragment p') := by
  unfold Query.updateFragment
  refine (h.target q).bind fun n _ _ _ hn => (h.refuseReadClauses q).bind fun _ _ _ _ _ => ?_
  subst hn
  rw [q.rewritten_sameOutline.assignments]
  refine (h.refused _).bind fun _ _ _ _ _ => (h.assigned q).bind fun _ _ _ _ hvs => ?_
  refine (h.condition q).map fun _ _ hc => ?_
  rw [q.assignments_rewritten]
  have hset := h.append (h.append (h.word "update " (by decide)) (h.name n)) (h.word " set " (by decide))
  exact h.append (h.append (h.append hset (h.joined (by decide) (h.sets _ hvs))) hc) (h.givesBack q)

theorem deleteFragment (h : Simulation ρ p p' E R) (q : Query) :
    Agree E R (q.deleteFragment p) ((q.rewritten ρ).deleteFragment p') := by
  unfold Query.deleteFragment
  refine (h.target q).bind fun n _ _ _ hn => (h.refuseReadClauses q).bind fun _ _ _ _ _ => ?_
  subst hn
  rw [q.rewritten_sameOutline.assignments]
  refine (h.refused _).bind fun _ _ _ _ _ => (h.condition q).map fun _ _ hc => ?_
  exact h.append (h.append (h.append (h.word _ (by decide)) (h.name n)) hc) (h.givesBack q)

end Simulation

/-- **Statements in a simulation.**  What the compiler gives for a description agrees with what it gives for the
rewritten one. -/
theorem Query.fragment_agree (h : Simulation ρ p p' E R) (q : Query) :
    Agree E R (q.fragment p) ((q.rewritten ρ).fragment p') := by
  unfold Query.fragment
  rw [q.rewritten_sameOutline.action]
  split
  · exact Query.select_agree h q
  · exact h.insertFragment q
  · exact h.updateFragment q
  · exact h.deleteFragment q

end Writes

end SqlQuery
