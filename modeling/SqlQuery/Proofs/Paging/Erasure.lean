import Mathlib.Algebra.BigOperators.Group.List.Basic
import Mathlib.Data.List.Nodup
import SqlQuery.Paging
import SqlQuery.Proofs.Lexical.Quotes

/-!
# Texts without their paging clauses

A reader deletes the paging clauses of a statement: he goes through its text from the left, keeps track of the
double quotes, and wherever a clause starts outside of them he leaves it out together with the space before it.

* `Paging.forms`, `Paging.follows` — the clauses of a syntax, and where they can stand;
* `Paging.erased` — the text without its clauses;
* `startsCalm`, `staysCalm` — texts in which no clause starts, so that they are kept (`erasing_of_staysCalm`);
* `erasing_clauses` — clauses are left out.
-/

namespace SqlQuery

open SqlQuery.Text

/-! ### Reading a clause -/

/-- The form of a clause: what stands before its number and after it. -/
structure ClauseForm where
  opening : String
  closing : String
deriving DecidableEq

/-- The length of a clause of the form at the start of a text; zero if there is none. -/
def ClauseForm.length (e : ClauseForm) (s : List Char) : Nat :=
  let number := (s.drop e.opening.length).takeWhile Char.isDigit
  let clause := e.opening.toList ++ number ++ e.closing.toList
  if !number.isEmpty && clause.isPrefixOf s then clause.length else 0

/-- The clauses of a syntax with the space before them. -/
def Paging.forms : Paging → List ClauseForm
  | .legacy => [⟨" first ", ""⟩, ⟨" skip ", ""⟩]
  | .modern => [⟨" offset ", " rows"⟩, ⟨" fetch first ", " rows only"⟩]

/-- Whether a clause can stand after a text, given from its end: a legacy one only follows the word `select`. -/
def Paging.follows (p : Paging) (before : List Char) : Bool :=
  !p.isLegacy || "select".toList.reverse.isPrefixOf before

/-- The length of the paging clause at the start of a text; zero if there is none.  No two forms can stand at one
place.  `before` is the text before it, from its end and without the clauses in it. -/
def Paging.clauseLength (p : Paging) (before s : List Char) : Nat :=
  if p.follows before then (p.forms.map fun e => e.length s).foldr (· + ·) 0 else 0

/-- What is left of a text: after the text `before`, inside of double quotes or not, and with some characters of a
clause still to be left out. -/
def Paging.erasing (p : Paging) : List Char → Bool → Nat → List Char → List Char
  | _, _, _, [] => []
  | before, inside, n + 1, _ :: cs => p.erasing before inside n cs
  | before, inside, 0, c :: cs =>
    match if inside then 0 else p.clauseLength before (c :: cs) with
    | n + 1 => p.erasing before inside n cs
    | 0 => c :: p.erasing (c :: before) (if c = '"' then !inside else inside) 0 cs

/-- The text without the paging clauses outside of its double quotes. -/
def Paging.erased (p : Paging) (sql : String) : List Char := p.erasing [] false 0 sql.toList

example : String.ofList (Paging.legacy.erased "select first 3 skip 10 \"first 1\" from \"t\"") =
    "select \"first 1\" from \"t\"" := by decide +kernel

example : String.ofList (Paging.modern.erased "(select * from \"t\" offset 7 rows fetch first 3 rows only)") =
    "(select * from \"t\")" := by decide +kernel

/-! ### Where no clause starts -/

/-- The first two letters of the clauses. -/
def openingPairs : List (Char × Char) := [('f', 'i'), ('s', 'k'), ('o', 'f'), ('f', 'e')]

/-- Whether a text does not start like a clause, and will not with more calm text after it. -/
def startsCalm : List Char → Bool
  | [] => true
  | [c] => !(openingPairs.map Prod.fst).contains c
  | c :: d :: _ => !openingPairs.contains (c, d)

/-- Whether the text after each space outside of double quotes starts calm. -/
def staysCalm (inside : Bool) : List Char → Bool
  | [] => true
  | c :: cs => (inside || c != ' ' || startsCalm cs) && staysCalm (if c = '"' then !inside else inside) cs

section Calm

variable {s t : List Char} {inside : Bool}

theorem startsCalm_cons {c : Char} (h : c ∉ openingPairs.map Prod.fst) (cs : List Char) :
    startsCalm (c :: cs) = true := by
  cases cs with
  | nil => simpa [startsCalm] using h
  | cons d cs =>
    have hpair : (c, d) ∉ openingPairs := fun hmem => h (List.mem_map_of_mem (f := Prod.fst) hmem)
    simpa [startsCalm] using hpair

theorem startsCalm_append (hs : startsCalm s = true) (ht : startsCalm t = true) : startsCalm (s ++ t) = true := by
  match s with
  | [] => exact ht
  | [c] => exact startsCalm_cons (by simpa [startsCalm] using hs) t
  | c :: d :: s => exact hs

theorem staysCalm_cons {c : Char} {cs : List Char} : staysCalm inside (c :: cs) = true ↔
    (inside = false → c = ' ' → startsCalm cs = true) ∧
      staysCalm (if c = '"' then !inside else inside) cs = true := by
  rw [staysCalm, Bool.and_eq_true]
  refine and_congr_left fun _ => ?_
  cases inside <;> by_cases hc : c = ' ' <;> simp [hc]

theorem staysCalm_append (hs : staysCalm inside s = true) (ht : staysCalm (endsInside inside s) t = true)
    (hcalm : startsCalm t = true) : staysCalm inside (s ++ t) = true := by
  induction s generalizing inside with
  | nil => exact ht
  | cons c cs ih =>
    rw [staysCalm_cons] at hs
    rw [List.cons_append, staysCalm_cons]
    exact ⟨fun hi hc => startsCalm_append (hs.1 hi hc) hcalm, ih hs.2 ht⟩

theorem ClauseForm.length_eq_zero {e : ClauseForm} (h : ¬ e.opening.toList <+: s) : e.length s = 0 := by
  refine if_neg fun hclause => h ?_
  rw [Bool.and_eq_true, List.isPrefixOf_iff_prefix, List.append_assoc] at hclause
  exact (List.prefix_append _ _).trans hclause.2

/-- Every clause starts with a space and the letters of one of the pairs. -/
theorem forms_start : ∀ p : Paging, ∀ e ∈ p.forms, e.opening.toList.head? = some ' ' ∧
    startsCalm e.opening.toList.tail = false ∧ 2 ≤ e.opening.toList.tail.length := by
  intro p
  cases p <;> decide

theorem clauseLength_eq_zero {p : Paging} {before : List Char} {c : Char} {cs : List Char}
    (h : c = ' ' → startsCalm cs = true) : p.clauseLength before (c :: cs) = 0 := by
  have hforms : ∀ e ∈ p.forms, e.length (c :: cs) = 0 := by
    intro e he
    obtain ⟨hspace, hstart, hlength⟩ := forms_start p e he
    refine ClauseForm.length_eq_zero fun hstarts => ?_
    match hopening : e.opening.toList with
    | [] => simp [hopening] at hspace
    | [_] | [_, _] => simp [hopening] at hlength
    | d :: x :: y :: w =>
      rw [hopening] at hstarts hspace hstart
      obtain ⟨rfl, rest, rfl⟩ := List.cons_prefix_cons.1 hstarts
      have hcalm := h (Option.some.inj hspace)
      simp [startsCalm] at hcalm hstart
      exact hcalm hstart
  unfold Paging.clauseLength
  split
  · exact List.sum_eq_zero (List.forall_mem_map.2 hforms)
  · rfl

/-- **Calm text is kept**, when calm text follows. -/
theorem erasing_of_staysCalm {p : Paging} {before : List Char} (hs : staysCalm inside s = true)
    (ht : startsCalm t = true) : p.erasing before inside 0 (s ++ t) =
      s ++ p.erasing (s.reverse ++ before) (endsInside inside s) 0 t := by
  induction s generalizing before inside with
  | nil => rfl
  | cons c cs ih =>
    rw [staysCalm_cons] at hs
    have hnone : (if inside then 0 else p.clauseLength before (c :: (cs ++ t))) = 0 := by
      cases hi : inside with
      | true => rfl
      | false => exact clauseLength_eq_zero fun hc => startsCalm_append (hs.1 hi hc) ht
    rw [List.cons_append, Paging.erasing, hnone]
    dsimp only
    rw [ih hs.2, List.reverse_cons, List.append_assoc, endsInside]
    rfl

end Calm

/-! ### Clauses -/

/-- A clause of a syntax, around a number. -/
def Paging.IsClause (p : Paging) (s : List Char) : Prop :=
  ∃ e ∈ p.forms, ∃ n, s = e.opening.toList ++ Nat.toDigits 10 n ++ e.closing.toList

section Clauses

variable {p : Paging} {before t : List Char}

theorem erasing_length {w : List Char} {inside : Bool} :
    p.erasing before inside w.length (w ++ t) = p.erasing before inside 0 t := by
  induction w with
  | nil => rfl
  | cons c cs ih => exact ih

/-- A number ends where the text goes on without a digit. -/
theorem ClauseForm.length_clause (e : ClauseForm) (n : Nat)
    (hend : ∀ c ∈ (e.closing.toList ++ t).head?, c.isDigit = false) :
    e.length (e.opening.toList ++ Nat.toDigits 10 n ++ e.closing.toList ++ t) =
      (e.opening.toList ++ Nat.toDigits 10 n ++ e.closing.toList).length := by
  have hdigit : ∀ c ∈ Nat.toDigits 10 n, c.isDigit = true := fun c hc =>
    Nat.isDigit_of_mem_toDigits (by decide) (by decide) hc
  have hrest : (e.closing.toList ++ t).takeWhile Char.isDigit = [] := by
    cases hs : e.closing.toList ++ t with
    | nil => rfl
    | cons c cs =>
      rw [hs] at hend
      rw [List.takeWhile_cons, hend c rfl]
      rfl
  have hnumber : ((e.opening.toList ++ Nat.toDigits 10 n ++ e.closing.toList ++ t).drop e.opening.length).takeWhile
      Char.isDigit = Nat.toDigits 10 n := by
    rw [← String.length_toList, List.append_assoc, List.append_assoc, List.drop_left,
      List.takeWhile_append_of_pos hdigit, hrest, List.append_nil]
  have hstarts : (e.opening.toList ++ Nat.toDigits 10 n ++ e.closing.toList).isPrefixOf
      (e.opening.toList ++ Nat.toDigits 10 n ++ e.closing.toList ++ t) = true :=
    List.isPrefixOf_iff_prefix.2 (List.prefix_append _ t)
  have hne : (Nat.toDigits 10 n).isEmpty = false := List.isEmpty_eq_false_iff.2 Nat.toDigits_ne_nil
  unfold ClauseForm.length
  rw [hnumber]
  dsimp only
  rw [hstarts, hne]
  rfl

/-- The forms of a syntax are told apart by their first two characters. -/
theorem forms_differ : ∀ p : Paging, ∀ e ∈ p.forms, ∀ e' ∈ p.forms,
    e'.opening.toList.take 2 = e.opening.toList.take 2 → e' = e := by
  intro p
  cases p <;> decide

theorem forms_nodup (p : Paging) : p.forms.Nodup := by
  cases p <;> decide

/-- What stands after the number of a form does not go on with a digit, and only in legacy clauses there is
nothing. -/
theorem forms_end : ∀ p : Paging, ∀ e ∈ p.forms, e.closing.toList.head?.all (!·.isDigit) = true ∧
    (e.closing.toList = [] → p = .legacy) := by
  intro p
  cases p <;> decide

theorem clauseLength_clause {w : List Char} (hw : p.IsClause w) (hfollows : p.follows before = true)
    (ht : p = .legacy → ∀ c ∈ t.head?, c.isDigit = false) : p.clauseLength before (w ++ t) = w.length := by
  obtain ⟨e, he, n, rfl⟩ := hw
  have hend : ∀ c ∈ (e.closing.toList ++ t).head?, c.isDigit = false := by
    obtain ⟨hform, hlegacy⟩ := forms_end p e he
    cases hclosing : e.closing.toList with
    | nil => exact ht (hlegacy hclosing)
    | cons d ds =>
      rw [hclosing] at hform
      simpa using hform
  have hother : ∀ e' ∈ p.forms, e' ≠ e →
      e'.length (e.opening.toList ++ Nat.toDigits 10 n ++ e.closing.toList ++ t) = 0 := by
    intro e' he' hne
    refine ClauseForm.length_eq_zero fun hstarts => hne (forms_differ p e he e' he' ?_)
    have hlength : ∀ d ∈ p.forms, 2 ≤ d.opening.toList.length := by cases p <;> decide
    rw [List.append_assoc, List.append_assoc] at hstarts
    obtain ⟨rest, hrest⟩ := hstarts
    have htake := congrArg (List.take 2) hrest
    rwa [List.take_append_of_le_length (hlength e' he'), List.take_append_of_le_length (hlength e he)] at htake
  have hlength := e.length_clause n hend
  generalize e.opening.toList ++ Nat.toDigits 10 n ++ e.closing.toList ++ t = s at hother hlength ⊢
  calc p.clauseLength before s = (p.forms.map fun e' => e'.length s).sum := by
        rw [Paging.clauseLength, if_pos hfollows]
        rfl
    _ = p.forms.count e • e.length s := List.sum_map_eq_nsmul_single e _ fun e' hne he' => hother e' he' hne
    _ = e.length s := by rw [List.count_eq_one_of_mem (forms_nodup p) he, one_nsmul]
    _ = _ := hlength

/-- **A clause is left out.**  A legacy one ends with its number, so what follows must not go on with a digit. -/
theorem erasing_clause {w : List Char} (hw : p.IsClause w) (hfollows : p.follows before = true)
    (ht : p = .legacy → ∀ c ∈ t.head?, c.isDigit = false) :
    p.erasing before false 0 (w ++ t) = p.erasing before false 0 t := by
  have hlength := clauseLength_clause hw hfollows ht
  cases w with
  | nil => rfl
  | cons c cs =>
    rw [List.cons_append] at hlength ⊢
    rw [Paging.erasing, if_neg Bool.false_ne_true, hlength]
    exact erasing_length

/-- So are clauses one after the other. -/
theorem erasing_clauses {ws : List (List Char)} (hws : ∀ w ∈ ws, p.IsClause w) (hfollows : p.follows before = true)
    (ht : p = .legacy → ∀ c ∈ t.head?, c.isDigit = false) :
    p.erasing before false 0 (ws.flatten ++ t) = p.erasing before false 0 t := by
  induction ws with
  | nil => rfl
  | cons w ws ih =>
    rw [List.forall_mem_cons] at hws
    rw [List.flatten_cons, List.append_assoc, erasing_clause hws.1 hfollows ?_, ih hws.2]
    intro hp
    -- the next clause starts with a space
    match ws, hws.2 with
    | [], _ => exact ht hp
    | w' :: ws, hws' =>
      obtain ⟨e, he, n, rfl⟩ := hws' w' List.mem_cons_self
      have hspace := (forms_start p e he).1
      cases hopening : e.opening.toList with
      | nil => simp [hopening] at hspace
      | cons d ds =>
        rw [hopening] at hspace
        obtain rfl : d = ' ' := Option.some.inj hspace
        simp

end Clauses

end SqlQuery
