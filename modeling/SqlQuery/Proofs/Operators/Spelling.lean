import SqlQuery.Proofs.Comparison.Basic
import SqlQuery.Proofs.Operators.Written

/-!
# Spellings of operators

Operators are kept as the caller wrote them.  Two spellings with the same words in lower case name the same operator,
so a description may be spelled anew, at any depth, and its statement stays as it is: each operator is written as its
symbol, whatever the caller wrote.

* `Operator.spelled` — a spelling as its words in lower case, with one space between them;
* `Operator.ofText?_spelled` — it names the same operator; `Operator.spelled_eq_iff` — when two spellings have one;
* `Query.spelled` — the description with all its operators so spelled;
* `respelled_simulation` — the compiler writes the same for both, and no words but its own;
* `Query.compile_of_spelled_eq` — **the spelling of operators does not matter**.
-/

namespace SqlQuery

open SqlQuery.Fragment SqlQuery.Text

/-! ### One spelling for many -/

namespace Operator

variable {s t : String}

/-- The words of a spelling in lower case, with one space between them. -/
def spelled (text : String) : String :=
  String.ofList ([' '].intercalate (foldedWords text.toList))

theorem foldedWords_spelled (s : String) : foldedWords (spelled s).toList = foldedWords s.toList := by
  rw [spelled, String.toList_ofList, foldedWords_intercalate]

/-- Two spellings become one if and only if they have the same words in lower case. -/
theorem spelled_eq_iff : spelled s = spelled t ↔ foldedWords s.toList = foldedWords t.toList := by
  constructor
  · intro h
    rw [← foldedWords_spelled s, h, foldedWords_spelled]
  · intro h
    rw [spelled, h, spelled]

/-- No symbol has a sigma, so it does not matter which one stands in a spelling. -/
theorem symbol_eq_map_oneSigma (op : Operator) (s : List Char) :
    op.symbol.toList = s.map oneSigma ↔ op.symbol.toList = s := by
  have hsigma : 'σ' ∉ op.symbol.toList ∧ 'ς' ∉ op.symbol.toList := by cases op <;> decide
  have hself : ∀ c ∈ s, oneSigma c ∈ op.symbol.toList ∨ c ∈ op.symbol.toList → oneSigma c = c := by
    intro c _ h
    unfold oneSigma at h ⊢
    by_cases hc : c = 'ς'
    · subst hc
      exact absurd h (by simp [hsigma])
    · rw [if_neg hc]
  constructor
  · intro h
    rw [h]
    exact (List.map_congr_left fun c hc => hself c hc (Or.inl (h ▸ List.mem_map_of_mem hc))).trans (List.map_id' s)
  · intro h
    rw [h]
    exact ((List.map_congr_left fun c hc => hself c hc (Or.inr (h ▸ hc))).trans (List.map_id' s)).symm

/-- The operator is found by the words in lower case alone. -/
theorem ofText?_eq_find (text : String) :
    ofText? text = all.find? fun op => op.symbol.toList == [' '].intercalate (foldedWords text.toList) := by
  have hfolded : [' '].intercalate (foldedWords text.toList) = (normalized text).map oneSigma := by
    rw [foldedWords, ← folded_intercalate]
    rfl
  rw [ofText?, hfolded]
  refine congrArg (all.find? ·) (funext fun op => ?_)
  rw [Bool.eq_iff_iff, beq_iff_eq, beq_iff_eq, symbol_eq_map_oneSigma]

/-- **Spelled anew, a text names the same operator.** -/
theorem ofText?_spelled (text : String) : ofText? (spelled text) = ofText? text := by
  rw [ofText?_eq_find, ofText?_eq_find, foldedWords_spelled]

end Operator

/-- Every operator in its one spelling; values stay, and so does what the caller's own SQL binds. -/
def Rewriting.respelled : Rewriting :=
  { Rewriting.identity with
    spelling := Operator.spelled
    ofText?_spelling := Operator.ofText?_spelled }

/-- The query with all operators in their one spelling, at every depth. -/
def Query.spelled (q : Query) : Query := q.rewritten .respelled

/-! ### The words of a statement -/

/-- Words of the compiler's own, among them the clauses of a paging syntax. -/
def OwnWords (p : Paging) (f : Fragment) : Prop :=
  ∀ w, .word w ∈ f → w ∈ wording ∨ p.IsClause w.toList

section OwnWords

variable {p : Paging} {f g : Fragment}

theorem ownWords_nil : OwnWords p [] := by simp [OwnWords]

theorem OwnWords.append (hf : OwnWords p f) (hg : OwnWords p g) : OwnWords p (f ++ g) := by
  intro w hw
  rw [List.mem_append] at hw
  exact hw.elim (hf w) (hg w)

theorem ownWords_word {w : String} (h : w ∈ wording ∨ p.IsClause w.toList) : OwnWords p (word w) := by
  intro v hv
  obtain rfl := Piece.word.inj (List.mem_singleton.1 hv)
  exact h

theorem ownWords_spaced {cs : List String} (h : ∀ c ∈ cs, p.IsClause (" " ++ c).toList) : OwnWords p (spaced cs) := by
  induction cs with
  | nil => exact ownWords_nil
  | cons c cs ih =>
    rw [List.forall_mem_cons] at h
    exact (ownWords_word (Or.inr h.1)).append (ih h.2)

/-- **A word that spells an operator is its symbol** between two spaces. -/
theorem OwnWords.symbol (h : OwnWords p f) {w : String} (hw : .word w ∈ f) {op : Operator}
    (hop : Operator.ofText? w = some op) : w = " " ++ op.symbol ++ " " := by
  obtain hwording | hclause := h w hw
  · obtain hplain | ⟨o, rfl⟩ := mem_wording_cases hwording
    · rw [ofText?_plainWording w hplain] at hop
      exact nomatch hop
    · rw [o.ofText?_spaced, Option.some.injEq] at hop
      rw [hop]
  · rw [hclause.ofText?_eq_none] at hop
    exact nomatch hop

theorem ownWords_compositional (p : Paging) : Compositional fun f g => f = g ∧ OwnWords p f where
  nil := ⟨rfl, ownWords_nil⟩
  append := by
    rintro f g f' g' ⟨rfl, hf⟩ ⟨rfl, hf'⟩
    exact ⟨rfl, hf.append hf'⟩
  word w hw := ⟨rfl, ownWords_word (Or.inl hw)⟩
  name _ := ⟨rfl, by simp [OwnWords, name]⟩
  part _ := ⟨rfl, by simp [OwnWords, part]⟩
  raw _ := ⟨rfl, by simp [OwnWords]⟩
  null := ⟨rfl, by simp [OwnWords]⟩

end OwnWords

section Clauses

variable {p : Paging} {q : Query}

theorem Query.ownWords_head (h : q.selectDefect? p = none) (a : Option Aggregate) : OwnWords p (q.head p a) := by
  have hselect : OwnWords p (word "select") := ownWords_word (Or.inl (by decide))
  have hspace : OwnWords p (word " ") := ownWords_word (Or.inl (by decide))
  have hclauses := ownWords_spaced (Query.isClause_paging h).1
  have hselection := ((ownWords_compositional p).selection q a).2
  exact ((hselect.append hclauses).append hspace).append hselection

theorem Query.ownWords_tail (h : q.selectDefect? p = none) : OwnWords p (q.tail p) := by
  have horders : OwnWords p (if q.orders.isEmpty then [] else word " order by " ++ OrderBy.list q.orders) := by
    split
    · exact ownWords_nil
    · have hword : OwnWords p (word " order by ") := ownWords_word (Or.inl (by decide))
      exact hword.append ((ownWords_compositional p).ordering q.orders).2
  have hclauses := ownWords_spaced (Query.isClause_paging h).2
  unfold Query.tail
  refine (horders.append hclauses).append ?_
  cases q.lock with
  | none => exact ownWords_nil
  | some l => exact ((ownWords_compositional p).lock l).2

end Clauses

/-- The compiler writes the same for a description and for the one spelled anew, in its own words. -/
theorem respelled_simulation (p : Paging) : Simulation .respelled p p SameKind fun f g => f = g ∧ OwnWords p f where
  toCompositional := ownWords_compositional p
  malformed _ := rfl
  unsupported _ := rfl
  unjoined _ _ _ _ := rfl
  checked q := by
    cases q.selectDefect? p with
    | none => trivial
    | some d => exact rfl
  verbatim _ _ := ⟨rfl, by simp [OwnWords]⟩
  bound _ _ _ := ⟨rfl, by simp [OwnWords]⟩
  head _ a hq _ := ⟨rfl, Query.ownWords_head hq a⟩
  tail _ hq _ := ⟨rfl, Query.ownWords_tail hq⟩

/-- **The spelling of operators does not matter.**  Two descriptions that differ only in the letter case of their
operators and in the blanks around and between the words of them fail in one kind, or they compile to one statement.
Its operators are those of the description in their order, and no word spells an operator but as its symbol. -/
theorem Query.compile_of_spelled_eq {q r : Query} (h : q.spelled = r.spelled) (p : Paging) :
    (∃ e e', q.compile p = .error e ∧ r.compile p = .error e' ∧ e.kind = e'.kind) ∨
      ∃ f s, q.fragment p = .ok f ∧ r.fragment p = .ok f ∧ f.statement = s ∧
        q.compile p = .ok s ∧ r.compile p = .ok s ∧ symbols f = q.written ∧
        ∀ w, .word w ∈ f → (w ∈ wording ∨ p.IsClause w.toList) ∧
          ∀ op, Operator.ofText? w = some op → w = " " ++ op.symbol ++ " " := by
  have hq := (Query.fragment_agree (respelled_simulation p) q).ofSameKind
  have hr := (Query.fragment_agree (respelled_simulation p) r).ofSameKind
  rw [← Query.spelled] at hq hr
  rw [h] at hq
  obtain ⟨e, d, hqe, hd, hkind⟩ | ⟨f, g, hqf, hg, rfl, hown⟩ := hq
  · obtain ⟨e', d', hre, hd', hkind'⟩ | ⟨f', g', -, hg', -⟩ := hr
    · obtain rfl : d = d' := Except.error.inj (hd.symm.trans hd')
      exact Or.inl ⟨e, e', Query.compile_eq_error.2 hqe, Query.compile_eq_error.2 hre, hkind.trans hkind'.symm⟩
    · exact nomatch hd.symm.trans hg'
  · obtain ⟨e', d', -, hd', -⟩ | ⟨f', g', hrf, hg', rfl, -⟩ := hr
    · exact nomatch hg.symm.trans hd'
    · obtain rfl : f = f' := Except.ok.inj (hg.symm.trans hg')
      refine Or.inr ⟨f, f.statement, hqf, hrf, rfl, Query.compile_eq_ok.2 ⟨f, hqf, rfl⟩,
        Query.compile_eq_ok.2 ⟨f, hrf, rfl⟩, Query.symbols_fragment hqf, fun w hw => ⟨hown w hw, fun op hop => ?_⟩⟩
      exact hown.symbol hw hop

/-- The users of some years. -/
def visits (apart : String) : Query where
  table := some (.named "visits")
  columns := [.named "user_id"]
  filter := some (.datePart "day" .year apart (.list [.int 2020, .int 2024]))

/-- Operators in a join, below negations, in the condition of groups, and on a part of a date in a query
inside. -/
def report (eq like apart atLeast : String) : Query where
  table := some (.named "orders")
  columns := [.named "user_id"]
  joins := [⟨.left, .named "users", some (.columns "users.id" eq "user_id")⟩]
  filter := some (.and [.not (.or [.compare "note" like (.string "LIKE"), .raw "f(?)" [.null]]),
    .predicate (.compare "name" like (.string "A%") true), .inSelect "user_id" (visits apart)])
  groups := [.named "user_id"]
  having := some (.compare "total" atLeast (.int 10))

def plainReport : Query := report "=" "like" "not between" ">="

/-- The same in capitals, one of them the Kelvin sign, and with other blanks. -/
def shoutedReport : Query := report " =" "LI\u212AE" "\tNOT\u2003\u3000Between" ">=\n"

theorem compile_of_spelled_eq_reports : plainReport.spelled = shoutedReport.spelled ∧
    ∃ f s, plainReport.fragment .modern = .ok f ∧ shoutedReport.fragment .modern = .ok f ∧ f.statement = s ∧
      plainReport.compile .modern = .ok s ∧ shoutedReport.compile .modern = .ok s ∧
      symbols f = [.eq, .like, .notLike, .notBetween, .ge] ∧
      ∀ w, .word w ∈ f → (w ∈ wording ∨ Paging.modern.IsClause w.toList) ∧
        ∀ op, Operator.ofText? w = some op → w = " " ++ op.symbol ++ " " := by
  have heq : Operator.spelled "=" = Operator.spelled " =" := Operator.spelled_eq_iff.2 (by decide +kernel)
  have hlike : Operator.spelled "like" = Operator.spelled "LI\u212AE" := Operator.spelled_eq_iff.2 (by decide +kernel)
  have hapart : Operator.spelled "not between" = Operator.spelled "\tNOT\u2003\u3000Between" :=
    Operator.spelled_eq_iff.2 (by decide +kernel)
  have hatLeast : Operator.spelled ">=" = Operator.spelled ">=\n" := Operator.spelled_eq_iff.2 (by decide +kernel)
  have hreport : ∀ eq like apart atLeast, (report eq like apart atLeast).spelled = report (Operator.spelled eq)
      (Operator.spelled like) (Operator.spelled apart) (Operator.spelled atLeast) := fun _ _ _ _ => rfl
  have hspelled : plainReport.spelled = shoutedReport.spelled := by
    rw [plainReport, shoutedReport, hreport, hreport, heq, hlike, hapart, hatLeast]
  have hwritten : plainReport.written = [.eq, .like, .notLike, .notBetween, .ge] := by decide +kernel
  have hok : (plainReport.compile .modern).toOption.isSome = true := by decide +kernel
  rw [← hwritten]
  refine ⟨hspelled, ?_⟩
  obtain ⟨e, e', he, -⟩ | h := Query.compile_of_spelled_eq hspelled .modern
  · rw [he] at hok
    exact nomatch hok
  · exact h

end SqlQuery
