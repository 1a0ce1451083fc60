import SqlQuery.Proofs.Form.Basic
import SqlQuery.Proofs.Compiled

/-!
# Frames around a subquery

What the compiler does with a subquery: it compiles it as a select of its own, puts it in parentheses and writes
what stands around it, or fails.  A frame never looks into the subquery; only the text of one shows in a failure.

* `Around` — what stands around a subquery in parentheses, the same for all subqueries;
* `Answers` — the same, or a failure that knows the text of the subquery at most;
* `Framed` — a compilation that fails on its own, or compiles the subquery and answers.
-/

namespace SqlQuery

open SqlQuery.Fragment SqlQuery.Text

/-! ### What stands around a subquery -/

theorem Fragment.text_parenthesized (f : Fragment) : text (parenthesized f) = "(" ++ text f ++ ")" := by
  rw [parenthesized, text_append, text_append]
  rfl

/-- A fragment in which a subquery stands in parentheses. -/
def Around (k : Fragment → Fragment) : Prop := ∃ l r, ∀ g, k g = l ++ parenthesized g ++ r

/-- Fragments of which one is around the subquery, after `n` others. -/
def Among (n : Nat) (k : Fragment → List Fragment) : Prop :=
  ∃ fs gs h, fs.length = n ∧ Around h ∧ ∀ g, k g = fs ++ h g :: gs

namespace Around

variable {k : Fragment → Fragment}

theorem parentheses : Around parenthesized :=
  ⟨[], [], fun g => by rw [List.nil_append, List.append_nil]⟩

theorem append_left (h : Around k) (f : Fragment) : Around fun g => f ++ k g := by
  obtain ⟨l, r, hk⟩ := h
  exact ⟨f ++ l, r, fun g => by simp only [hk, List.append_assoc]⟩

theorem append_right (h : Around k) (f : Fragment) : Around fun g => k g ++ f := by
  obtain ⟨l, r, hk⟩ := h
  exact ⟨l, r ++ f, fun g => by simp only [hk, List.append_assoc]⟩

theorem parenthesized (h : Around k) : Around fun g => parenthesized (k g) :=
  (h.append_left _).append_right _

theorem isBlank (h : Around k) (g : Fragment) : (k g).isBlank = false := by
  obtain ⟨l, r, hk⟩ := h
  rw [hk, isBlank_append, isBlank_append, isBlank_parenthesized, Bool.and_false, Bool.false_and]

/-- Of the subquery, the text around it depends on its text only. -/
theorem text (h : Around k) : ∃ t : String → String, ∀ g, text (k g) = t (text g) := by
  obtain ⟨l, r, hk⟩ := h
  refine ⟨fun t => Fragment.text l ++ ("(" ++ t ++ ")") ++ Fragment.text r, fun g => ?_⟩
  rw [hk, text_append, text_append, text_parenthesized]

theorem clause (h : Around k) (w : String) : Around fun g => clause w (k g) := by
  have hclause : (fun g => Fragment.clause w (k g)) = fun g => word (" " ++ w ++ " ") ++ k g :=
    funext fun g => by rw [Fragment.clause, h.isBlank, if_neg Bool.false_ne_true]
  rw [hclause]
  exact h.append_left _

theorem negation (h : Around k) : Around fun g => negation (k g) := by
  have hnegation : (fun g => SqlQuery.negation (k g)) = fun g => word "not " ++ Fragment.parenthesized (k g) :=
    funext fun g => by rw [SqlQuery.negation, h.isBlank, if_neg Bool.false_ne_true]
  rw [hnegation]
  exact h.parenthesized.append_left _

theorem negatedComparison (h : Around k) (around : Bool) : Around fun g => negatedComparison around (k g) := by
  cases around with
  | false => exact h
  | true => exact h.parenthesized.append_left _

theorem grouped (h : Around k) (parens : Bool) :
    Around fun g => if parens then Fragment.parenthesized (k g) else k g := by
  cases parens with
  | false => exact h
  | true => exact h.parenthesized

theorem labelled (h : Around k) (label : Option String) : Around fun g => labelled (k g) label := by
  cases label with
  | none => exact h
  | some label => exact (h.append_right _).append_right _

theorem join_table (h : Around k) (kind : JoinKind) (on : Fragment) : Around fun g => kind.fragment (k g) on := by
  unfold JoinKind.fragment
  split
  · exact (h.append_left _).append_right _
  · split
    · exact h.append_left _
    · exact ((h.append_left _).append_right _).append_right _

theorem join_on (h : Around k) {kind : JoinKind} (hk : kind.takesCondition = true) (table : Fragment) :
    Around fun g => kind.fragment table (k g) := by
  rw [JoinKind.takesCondition, Bool.and_eq_true, Bool.not_eq_true', bne_iff_ne] at hk
  simp only [JoinKind.fragment, hk.1, hk.2, Bool.false_eq_true, if_false]
  exact h.append_left _

/-- The parts of a select. -/
theorem assembled (h : Around k) (p : Paging) (q : Query) (t j w v b : Fragment) :
    (Around fun g => q.assembled p (k g) j w v b) ∧ (Around fun g => q.assembled p t (k g) w v b) ∧
      (Around fun g => q.assembled p t j (k g) v b) ∧ (Around fun g => q.assembled p t j w (k g) b) ∧
      Around fun g => q.assembled p t j w v (k g) := by
  have hlayout : ∀ a, (Around fun g => q.layout p a (k g) j w v b) ∧ (Around fun g => q.layout p a t (k g) w v b) ∧
      (Around fun g => q.layout p a t j (k g) v b) ∧ (Around fun g => q.layout p a t j w (k g) b) ∧
      Around fun g => q.layout p a t j w v (k g) := by
    intro a
    have hwhere := h.clause "where"
    have hhaving := h.clause "having"
    unfold Query.layout
    refine ⟨?_, ?_, ?_, ?_, ?_⟩
    · exact ((((((h.append_left _).append_right _).append_right _).append_right _).append_right _).append_right
        _).append_right _
    · exact (((((h.append_left _).append_right _).append_right _).append_right _).append_right _).append_right _
    · exact ((((hwhere.append_left _).append_right _).append_right _).append_right _).append_right _
    · exact ((hhaving.append_left _).append_right _).append_right _
    · exact (h.append_left _).append_right _
  have hwrapped : ∀ a {k : Fragment → Fragment}, Around k → Around fun g => q.wrapped a (k g) := fun a k h =>
    ((h.parenthesized.append_left _).append_right _).append_right _
  unfold Query.assembled
  cases q.aggregate with
  | none => exact hlayout none
  | some a =>
    dsimp only
    split
    · obtain ⟨ht, hj, hw, hv, hb⟩ := hlayout none
      exact ⟨hwrapped a ht, hwrapped a hj, hwrapped a hw, hwrapped a hv, hwrapped a hb⟩
    · exact hlayout (some a)

end Around

namespace Among

variable {n : Nat} {k : Fragment → List Fragment}

theorem joined (h : Among n k) (w : String) : Around fun g => joined w (k g) := by
  obtain ⟨fs, gs, h, -, hh, hk⟩ := h
  obtain rfl : k = fun g => fs ++ h g :: gs := funext hk
  clear hk
  induction fs with
  | nil =>
    cases gs with
    | nil => simpa [Fragment.joined, List.intercalate] using hh
    | cons g' gs =>
      simp only [Fragment.joined, List.nil_append, intercalate_cons_cons]
      exact (hh.append_right _).append_right _
  | cons f fs ih =>
    have hcons : ∀ g, Fragment.joined w (f :: fs ++ h g :: gs) =
        f ++ word w ++ Fragment.joined w (fs ++ h g :: gs) := by
      intro g
      cases fs <;> exact intercalate_cons_cons _ _ _ _
    simp only [hcons]
    exact ih.append_left _

theorem membership (h : Among n k) (c : String) (negated : Bool) : Around fun g => membership c negated (k g) := by
  have hne : ∀ g, (k g).isEmpty = false := by
    obtain ⟨fs, gs, h, -, -, hk⟩ := h
    intro g
    rw [hk]
    cases fs <;> rfl
  simp only [SqlQuery.membership, hne, Bool.false_eq_true, if_false]
  exact (h.joined ", ").parenthesized.append_left _

theorem procedureCall (h : Among n k) (procedure : String) : Around fun g => procedureCall procedure (k g) :=
  (h.joined ", ").parenthesized.append_left _

end Among

/-! ### Answers -/

section Answers

variable {α β γ : Type} {A : (Fragment → α) → Prop} {B : (Fragment → β) → Prop}

/-- For every compiled subquery a result of one form, or for every one a failure that depends on its text. -/
def Answers (A : (Fragment → α) → Prop) (K : Fragment → Except Error α) : Prop :=
  (∃ e : String → Error, ∀ g, K g = .error (e (text g))) ∨ ∃ k, A k ∧ ∀ g, K g = .ok (k g)

theorem Answers.pure {k : Fragment → α} (h : A k) : Answers A fun g => pure (k g) := Or.inr ⟨k, h, fun _ => rfl⟩

theorem Answers.error (e : Error) : Answers A fun _ => .error e := Or.inl ⟨fun _ => e, fun _ => rfl⟩

/-- What else is compiled does not depend on the subquery. -/
theorem Answers.const_bind {x : Except Error γ} {K : Fragment → γ → Except Error α}
    (h : ∀ c, x = .ok c → Answers A fun g => K g c) : Answers A fun g => x >>= K g := by
  cases x with
  | error e => exact .error e
  | ok c => exact h c rfl

/-- A compilation that fails for every subquery, or compiles it and answers. -/
def Framed (p : Paging) (A : (Fragment → α) → Prop) (F : Query → Except Error α) : Prop :=
  (∃ e, ∀ s, F s = .error e) ∨ ∃ K, Answers A K ∧ ∀ s, F s = s.select p >>= K

variable {p : Paging}

theorem Framed.error (e : Error) : Framed p A fun _ => .error e := Or.inl ⟨e, fun _ => rfl⟩

theorem Framed.const_bind {x : Except Error γ} {F : Query → γ → Except Error α}
    (h : ∀ c, x = .ok c → Framed p A fun s => F s c) : Framed p A fun s => x >>= F s := by
  cases x with
  | error e => exact .error e
  | ok c => exact h c rfl

theorem Framed.bind {F : Query → Except Error α} {h : α → Except Error β} (hF : Framed p A F)
    (hh : ∀ k, A k → Answers B fun g => h (k g)) : Framed p B fun s => F s >>= h := by
  rcases hF with ⟨e, he⟩ | ⟨K, hK, hF⟩
  · simp only [he]
    exact .error e
  · refine Or.inr ⟨fun g => K g >>= h, ?_, fun s => by simp only [hF, bind_assoc]⟩
    rcases hK with ⟨e, he⟩ | ⟨k, hk, hK⟩
    · simp only [he]
      exact Or.inl ⟨e, fun _ => rfl⟩
    · simp only [hK]
      exact hh k hk

/-- A last step that cannot fail. -/
theorem Framed.map {F : Query → Except Error α} {h : α → β} (hF : Framed p A F)
    (hh : ∀ k, A k → B fun g => h (k g)) : Framed p B fun s => F s >>= fun a => Pure.pure (h a) :=
  hF.bind fun k hk => .pure (hh k hk)

end Answers

end SqlQuery
