import SqlQuery.Proofs.Reading.Filter
import SqlQuery.Query.Build

/-!
# Conditions put together step by step

A builder puts one tree of conditions after the other to those that it has, each under its own connective.  The
tree that comes out says what the steps say, taken from the left.

* `Filter.atoms`, `Filter.truth?` — the leaves of a tree in their order, SQL of the caller's own among them, and the
  truth value of the tree; an empty tree has no value (`Filter.truth?_eq_none_iff`), and a tree without such SQL has
  the one of its compiled text (`Filter.truth?_eq_value`);
* `Filter.Folds` — what some pushes make of an optional tree: its value, its leaves, and when it is empty;
* `Filter.folds_combine`, `Filter.folds_push` — one push, and by induction all of them;
* `conditions_fold` — **the conditions of queries and joins are the folds of the steps that added them**.
-/

namespace SqlQuery

/-! ### Values -/

/-- Two operands connected, of which either may be missing. -/
def Truth.join? (k : Connective) : Option Truth → Option Truth → Option Truth
  | none, b => b
  | a, none => a
  | some a, some b => some (a.join k b)

@[simp] theorem Truth.none_join? (k : Connective) (b : Option Truth) : Truth.join? k none b = b := by
  cases b <;> rfl

@[simp] theorem Truth.join?_none (k : Connective) (a : Option Truth) : Truth.join? k a none = a := by
  cases a <;> rfl

theorem Truth.join?_eq_none_iff {k : Connective} {a b : Option Truth} :
    Truth.join? k a b = none ↔ a = none ∧ b = none := by
  cases a <;> cases b <;> simp [Truth.join?]

namespace Filter

mutual

/-- The leaves of a tree, in their order: single conditions, and SQL of the caller's own. -/
def atoms : Filter → List Filter
  | and children => allAtoms children
  | or children => allAtoms children
  | not inner => inner.atoms
  | predicate c => [predicate c]
  | raw sql bindings => [raw sql bindings]

def allAtoms : List Filter → List Filter
  | [] => []
  | f :: fs => f.atoms ++ allAtoms fs

end

mutual

/-- The truth value of a tree whose leaves are numbered from `i`. -/
def truth? (ν : Nat → Truth) (i : Nat) : Filter → Option Truth
  | and children => groupTruth? ν .and none i children
  | or children => groupTruth? ν .or none i children
  | not inner => (inner.truth? ν i).map Truth.not
  | predicate _ | raw _ _ => some (ν i)

/-- The value `a` with the trees of a group connected to it from the left.  Empty trees are left out. -/
def groupTruth? (ν : Nat → Truth) (k : Connective) (a : Option Truth) (i : Nat) : List Filter → Option Truth
  | [] => a
  | f :: fs =>
    if f.isEmpty then groupTruth? ν k a i fs
    else groupTruth? ν k (Truth.join? k a (f.truth? ν i)) (i + f.atoms.length) fs

end

/-- The left-to-right reading of some pushes onto the value `a`.  Empty trees are left out. -/
def foldTruth? (ν : Nat → Truth) (a : Option Truth) (i : Nat) : List (Connective × Filter) → Option Truth
  | [] => a
  | (k, f) :: pushes =>
    if f.isEmpty then foldTruth? ν a i pushes
    else foldTruth? ν (Truth.join? k a (f.truth? ν i)) (i + f.atoms.length) pushes

/-- The leaves of an optional tree. -/
def optAtoms (f : Option Filter) : List Filter :=
  (f.map atoms).getD []

/-- The value of an optional tree. -/
def optTruth? (ν : Nat → Truth) (f : Option Filter) : Option Truth :=
  f.bind (truth? ν 0)

/-! ### Empty trees -/

mutual

theorem atoms_of_isEmpty : ∀ f : Filter, f.isEmpty = true → f.atoms = []
  | and fs, h | or fs, h => allAtoms_of_allEmpty fs h
  | not f, h => atoms_of_isEmpty f h
  | predicate _, h | raw _ _, h => nomatch h

theorem allAtoms_of_allEmpty : ∀ fs : List Filter, allEmpty fs = true → allAtoms fs = []
  | [], _ => rfl
  | f :: fs, h => by
    rw [allEmpty, Bool.and_eq_true] at h
    rw [allAtoms, atoms_of_isEmpty f h.1, allAtoms_of_allEmpty fs h.2]
    rfl

end

mutual

/-- The empty trees are those without a value. -/
theorem truth?_eq_none_iff (ν : Nat → Truth) : ∀ (f : Filter) (i : Nat), f.truth? ν i = none ↔ f.isEmpty = true
  | and fs, i => (groupTruth?_eq_none_iff ν .and fs none i).trans (and_iff_right rfl)
  | or fs, i => (groupTruth?_eq_none_iff ν .or fs none i).trans (and_iff_right rfl)
  | not f, i => by
    rw [truth?, Option.map_eq_none_iff, isEmpty]
    exact truth?_eq_none_iff ν f i
  | predicate _, _ | raw _ _, _ => by simp [truth?, isEmpty]

theorem groupTruth?_eq_none_iff (ν : Nat → Truth) (k : Connective) : ∀ (fs : List Filter) (a : Option Truth) (i : Nat),
    groupTruth? ν k a i fs = none ↔ a = none ∧ allEmpty fs = true
  | [], a, i => by simp [groupTruth?, allEmpty]
  | f :: fs, a, i => by
    rw [groupTruth?, allEmpty]
    cases hf : f.isEmpty with
    | true => simpa using groupTruth?_eq_none_iff ν k fs a i
    | false =>
      have hvalue : f.truth? ν i ≠ none := fun h => by
        rw [(truth?_eq_none_iff ν f i).1 h] at hf
        cases hf
      rw [if_neg Bool.false_ne_true, groupTruth?_eq_none_iff ν k fs, Truth.join?_eq_none_iff]
      simp [hvalue]

end

/-! ### The value of the compiled text -/

mutual

theorem atoms_of_plain : ∀ f : Filter, f.Plain → f.atoms = f.leaves.map predicate
  | and fs, h | or fs, h => allAtoms_of_allPlain fs h
  | not f, h => atoms_of_plain f h
  | predicate _, _ => rfl
  | raw _ _, h => h.elim

theorem allAtoms_of_allPlain : ∀ fs : List Filter, AllPlain fs → allAtoms fs = (allLeaves fs).map predicate
  | [], _ => rfl
  | f :: fs, h => by
    rw [allAtoms, atoms_of_plain f h.1, allAtoms_of_allPlain fs h.2, allLeaves, List.map_append]

end

mutual

/-- Without SQL of the caller's own, the value is the one that the compiled text is read with. -/
theorem truth?_eq_value (ν : Nat → Truth) : ∀ (f : Filter) (i : Nat), f.Plain → f.isEmpty = false →
    f.truth? ν i = some (f.value ν i)
  | and fs, i, hp, he => groupTruth?_eq_allValue ν .and fs i hp he
  | or fs, i, hp, he => groupTruth?_eq_allValue ν .or fs i hp he
  | not f, i, hp, he => by
    rw [truth?, truth?_eq_value ν f i hp he]
    rfl
  | predicate _, _, _, _ => rfl
  | raw _ _, _, hp, _ => hp.elim

theorem groupTruth?_eq_allValue (ν : Nat → Truth) (k : Connective) : ∀ (fs : List Filter) (i : Nat), AllPlain fs →
    allEmpty fs = false → groupTruth? ν k none i fs = some (allValue ν k i fs)
  | [], _, _, he => nomatch he
  | f :: fs, i, hp, he => by
    rw [groupTruth?, allValue, Truth.none_join?]
    rw [allEmpty] at he
    cases hf : f.isEmpty with
    | true =>
      rw [hf, Bool.true_and] at he
      exact groupTruth?_eq_allValue ν k fs i hp.2 he
    | false =>
      rw [if_neg Bool.false_ne_true, if_neg Bool.false_ne_true, truth?_eq_value ν f i hp.1 hf,
        atoms_of_plain f hp.1, List.length_map]
      exact groupTruth?_some_eq_allValue ν k fs _ hp.2 _

theorem groupTruth?_some_eq_allValue (ν : Nat → Truth) (k : Connective) : ∀ (fs : List Filter) (i : Nat),
    AllPlain fs → ∀ a, groupTruth? ν k (some a) i fs = some (a.join k (allValue ν k i fs))
  | [], _, _, a => by rw [groupTruth?, allValue, Truth.join_unit]
  | f :: fs, i, hp, a => by
    rw [groupTruth?, allValue]
    cases hf : f.isEmpty with
    | true => exact groupTruth?_some_eq_allValue ν k fs i hp.2 a
    | false =>
      rw [if_neg Bool.false_ne_true, if_neg Bool.false_ne_true, truth?_eq_value ν f i hp.1 hf,
        atoms_of_plain f hp.1, List.length_map, Truth.join?,
        groupTruth?_some_eq_allValue ν k fs _ hp.2, Truth.join_assoc]

end

/-! ### One push -/

theorem allAtoms_append_singleton (fs : List Filter) (f : Filter) :
    allAtoms (fs ++ [f]) = allAtoms fs ++ f.atoms := by
  induction fs with
  | nil => simp [allAtoms]
  | cons g fs ih => rw [List.cons_append, allAtoms, ih, allAtoms, List.append_assoc]

theorem groupTruth?_append_singleton (ν : Nat → Truth) (k : Connective) (a : Option Truth) (i : Nat)
    (fs : List Filter) (f : Filter) : groupTruth? ν k a i (fs ++ [f]) =
      if f.isEmpty then groupTruth? ν k a i fs
      else Truth.join? k (groupTruth? ν k a i fs) (f.truth? ν (i + (allAtoms fs).length)) := by
  induction fs generalizing a i with
  | nil => rfl
  | cons g fs ih =>
    rw [List.cons_append, groupTruth?, groupTruth?, allAtoms]
    split
    · next hg => rw [ih, atoms_of_isEmpty g hg, List.nil_append]
    · rw [ih, List.length_append, Nat.add_assoc]

/-- A group of two, the first of which may be empty. -/
theorem groupTruth?_pair (ν : Nat → Truth) (k : Connective) (i : Nat) (f g : Filter) :
    groupTruth? ν k none i [f, g] =
      if g.isEmpty then f.truth? ν i else Truth.join? k (f.truth? ν i) (g.truth? ν (i + f.atoms.length)) := by
  have hone : groupTruth? ν k none i [f] = f.truth? ν i := by
    rw [groupTruth?, groupTruth?, groupTruth?, Truth.none_join?]
    split
    · next hf => exact ((truth?_eq_none_iff ν f i).2 hf).symm
    · rfl
  have h := groupTruth?_append_singleton ν k none i [f] g
  rwa [hone, allAtoms, allAtoms, List.append_nil] at h

/-- The group of some trees under a connective. -/
def ofConnective : Connective → List Filter → Filter
  | .and => and
  | .or => or

section Groups

variable (k : Connective) (fs : List Filter)

theorem isEmpty_ofConnective : (ofConnective k fs).isEmpty = fs.all isEmpty := by
  cases k <;> exact allEmpty_eq_all fs

theorem atoms_ofConnective : (ofConnective k fs).atoms = allAtoms fs := by
  cases k <;> rfl

theorem truth?_ofConnective (ν : Nat → Truth) (i : Nat) :
    (ofConnective k fs).truth? ν i = groupTruth? ν k none i fs := by
  cases k <;> rfl

end Groups

/-- A group of the same kind takes the next tree as its last child; any other tree becomes its sibling. -/
theorem combine_cases (f : Filter) (k : Connective) (g : Filter) :
    (∃ fs, f = ofConnective k fs ∧ f.combine k g = ofConnective k (fs ++ [g])) ∨
      f.combine k g = ofConnective k [f, g] := by
  cases k <;> cases f <;> simp [combine, ofConnective]

/-- What some pushes make of an optional tree.  Whatever the values of the leaves are, its value is that of the
pushes read from the left; its leaves are those of all the trees in their order; and it is empty when all of them
are. -/
structure Folds (start : Option Filter) (pushes : List (Connective × Filter)) (result : Option Filter) : Prop where
  truth : ∀ ν, optTruth? ν result = foldTruth? ν (optTruth? ν start) (optAtoms start).length pushes
  atoms : optAtoms result = optAtoms start ++ pushes.flatMap (·.2.atoms)
  isEmpty : result.all isEmpty = (start.all isEmpty && pushes.all (·.2.isEmpty))

theorem folds_combine (f : Filter) (k : Connective) (g : Filter) :
    Folds (some f) [(k, g)] (some (f.combine k g)) := by
  rcases combine_cases f k g with ⟨fs, rfl, h⟩ | h
  · rw [h]
    refine ⟨fun ν => ?_, ?_, ?_⟩
    · simp [optTruth?, optAtoms, foldTruth?, truth?_ofConnective, groupTruth?_append_singleton,
        atoms_ofConnective]
    · simp [optAtoms, atoms_ofConnective, allAtoms_append_singleton]
    · simp [isEmpty_ofConnective]
  · rw [h]
    refine ⟨fun ν => ?_, ?_, ?_⟩
    · simp [optTruth?, optAtoms, foldTruth?, truth?_ofConnective, groupTruth?_pair]
    · simp [optAtoms, atoms_ofConnective, Filter.allAtoms]
    · simp [isEmpty_ofConnective]

theorem folds_push (f : Option Filter) (k : Connective) (g : Filter) : Folds f [(k, g)] (push f k g) := by
  cases f with
  | some f => exact folds_combine f k g
  | none =>
    refine ⟨fun ν => ?_, by simp [push, optAtoms], by simp [push]⟩
    cases hg : g.isEmpty with
    | true => simpa [push, optTruth?, foldTruth?, hg] using (truth?_eq_none_iff ν g 0).2 hg
    | false => simp [push, optTruth?, optAtoms, foldTruth?, hg]

/-! ### All of them -/

theorem foldTruth?_append (ν : Nat → Truth) (a : Option Truth) (i : Nat) (ps qs : List (Connective × Filter)) :
    foldTruth? ν a i (ps ++ qs) =
      foldTruth? ν (foldTruth? ν a i ps) (i + (ps.flatMap (·.2.atoms)).length) qs := by
  induction ps generalizing a i with
  | nil => rfl
  | cons p ps ih =>
    rw [List.cons_append, foldTruth?, foldTruth?, List.flatMap_cons]
    split
    · next hp => rw [ih, atoms_of_isEmpty p.2 hp, List.nil_append]
    · rw [ih, List.length_append, Nat.add_assoc]

namespace Folds

variable {start middle result : Option Filter} {ps qs : List (Connective × Filter)}

theorem refl (f : Option Filter) : Folds f [] f :=
  ⟨fun _ => rfl, (List.append_nil _).symm, (Bool.and_true _).symm⟩

theorem trans (h : Folds start ps middle) (h' : Folds middle qs result) : Folds start (ps ++ qs) result where
  truth ν := by rw [h'.truth, h.truth, foldTruth?_append, h.atoms, List.length_append]
  atoms := by rw [h'.atoms, h.atoms, List.flatMap_append, List.append_assoc]
  isEmpty := by rw [h'.isEmpty, h.isEmpty, List.all_append, Bool.and_assoc]

/-- A run of steps, each of which is one push or none, seen through the slot that they push onto. -/
theorem foldl {σ β : Type} (slot : σ → Option Filter) {apply : σ → β → σ} (push? : β → Option (Connective × Filter))
    (h : ∀ s b, Folds (slot s) (push? b).toList (slot (apply s b))) (s : σ) (bs : List β) :
    Folds (slot s) (bs.filterMap push?) (slot (bs.foldl apply s)) := by
  induction bs generalizing s with
  | nil => exact .refl _
  | cons b bs ih =>
    have hrun := (h s b).trans (ih (apply s b))
    cases hb : push? b with
    | none => simpa [List.filterMap_cons, hb] using hrun
    | some p => simpa [List.filterMap_cons, hb] using hrun

end Folds

end Filter

/-! ### Builders -/

/-- A step that adds a condition to a query, on its rows or on its groups. -/
inductive Query.ConditionStep where
  | filter (k : Connective) (f : Filter)
  | whereEq (column : String) (value : Value)
  | having (k : Connective) (f : Filter)

namespace Query.ConditionStep

def apply (q : Query) : ConditionStep → Query
  | filter k f => q.addFilter k f
  | whereEq column value => q.whereEq column value
  | having k f => q.addHaving k f

/-- What the step pushes onto the condition on rows. -/
def onRows? : ConditionStep → Option (Connective × Filter)
  | filter k f => some (k, f)
  | whereEq column value => some (.and, .eq column value)
  | having _ _ => none

/-- What the step pushes onto the condition on groups. -/
def onGroups? : ConditionStep → Option (Connective × Filter)
  | having k f => some (k, f)
  | _ => none

theorem folds_filter (q : Query) (step : ConditionStep) :
    Filter.Folds q.filter step.onRows?.toList (step.apply q).filter := by
  cases step with
  | filter k f => exact Filter.folds_push q.filter k f
  | whereEq column value => exact Filter.folds_push q.filter .and (.eq column value)
  | having k f => exact .refl q.filter

theorem folds_having (q : Query) (step : ConditionStep) :
    Filter.Folds q.having step.onGroups?.toList (step.apply q).having := by
  cases step with
  | having k f => exact Filter.folds_push q.having k f
  | filter | whereEq => exact .refl q.having

end Query.ConditionStep

/-- A step that adds a condition to a join. -/
inductive Join.ConditionStep where
  | condition (k : Connective) (f : Filter)
  | columns (k : Connective) (left op right : String)

namespace Join.ConditionStep

def apply (j : Join) : ConditionStep → Join
  | condition k f => j.addCondition k f
  | columns k left op right => j.addColumns k left op right

/-- What the step pushes onto the condition of the join. -/
def pushed : ConditionStep → Connective × Filter
  | condition k f => (k, f)
  | columns k left op right => (k, .columns left op right)

theorem folds_on (j : Join) (step : ConditionStep) : Filter.Folds j.on [step.pushed] (step.apply j).on := by
  cases step with
  | condition k f => exact Filter.folds_push j.on k f
  | columns k left op right => exact Filter.folds_push j.on k (.columns left op right)

end Join.ConditionStep

/-- **Conditions are the folds of the steps that added them.**  Whatever steps add conditions to a query or to a join,
and whatever conditions these had before, each of the three conditions has the value of its own steps read from the
left, empty trees left out; it has the leaves of the start and of the steps in their order, each of them once; and it
is empty when the start and all of its steps are. -/
theorem conditions_fold :
    (∀ (q : Query) (steps : List Query.ConditionStep),
      Filter.Folds q.filter (steps.filterMap (·.onRows?)) (steps.foldl (fun q s => s.apply q) q).filter ∧
      Filter.Folds q.having (steps.filterMap (·.onGroups?)) (steps.foldl (fun q s => s.apply q) q).having) ∧
    ∀ (j : Join) (steps : List Join.ConditionStep),
      Filter.Folds j.on (steps.map (·.pushed)) (steps.foldl (fun j s => s.apply j) j).on := by
  refine ⟨fun q steps => ⟨?_, ?_⟩, fun j steps => ?_⟩
  · exact .foldl Query.filter Query.ConditionStep.onRows? (fun q step => step.folds_filter q) q steps
  · exact .foldl Query.having Query.ConditionStep.onGroups? (fun q step => step.folds_having q) q steps
  · have h := Filter.Folds.foldl Join.on (fun s : Join.ConditionStep => some s.pushed)
      (fun j step => step.folds_on j) j steps
    rwa [List.filterMap_eq_map'] at h

/-- Connectives that take turns nest to the left. -/
example (a b c d : Predicate) :
    ([.filter .and (.predicate b), .filter .or (.predicate c), .filter .and (.predicate d)].foldl
        (fun q (s : Query.ConditionStep) => s.apply q) { filter := some (.predicate a) }).filter =
      some (.and [.or [.and [.predicate a, .predicate b], .predicate c], .predicate d]) := rfl

end SqlQuery
