import Mathlib.Data.List.Forall2
import SqlQuery.CommandLine.Run
import SqlQuery.Proofs.Form.Statement
import SqlQuery.Proofs.Lexical.Case
import SqlQuery.Proofs.Number.Reading

/-!
# The arguments of a procedure

A procedure that is called on the command line has one parameter for each argument, in their order. An integer of 64
bits is bound as it is and a longer one as the nearest double; a text without digits is bound as it is, unless it is a
word for a truth value, for null, or for a double that is not finite.

* `WordBinding`, `BoundAs` — what an argument is bound as;
* `boundAs_ofArgument` — the reading of one argument;
* `compileProcedure_scalars` — the call with values that are bound;
* `CommandLine.procedure_binds` — **the arguments of a procedure**;
* `CommandLine.keptAsTyped_iff` — which arguments keep what was typed.
-/

namespace SqlQuery

open SqlQuery.Number SqlQuery.Text

/-! ### One argument -/

/-- What a text without digits is bound as. -/
inductive WordBinding (a : String) : Value → Prop
  | true : a = "true" → WordBinding a (.bool true)
  | false : a = "false" → WordBinding a (.bool false)
  | null : sameLetters a "null" = true → WordBinding a .null
  /-- A word that a double is read from, which is no number. -/
  | notFinite {x : Float} : FloatWord a.toList x → exactValue? x = none → WordBinding a (.float x)
  | itself : a ≠ "true" → a ≠ "false" → sameLetters a "null" = false → (∀ x, ¬ FloatWord a.toList x) →
    WordBinding a (.string a)

/-- What an argument is bound as. -/
structure BoundAs (a : String) (v : Value) : Prop where
  /-- An integer of 64 bits is bound exactly. -/
  integer : ∀ n, IntegerText a.toList n → fitsInt64 n = true → v = .int n
  /-- Any other integer is bound as the nearest double. -/
  long : ∀ n, IntegerText a.toList n → fitsInt64 n = false → ∃ x, v = .float x ∧ RoundsTo n x
  word : (∀ c ∈ a.toList, c.isDigit = false) → WordBinding a v

section Argument

variable {a : String} {n : Int}

theorem ofArgument_integer (h : IntegerText a.toList n) (hn : fitsInt64 n = true) : Value.ofArgument a = .int n := by
  rw [Value.ofArgument, integer?_eq_some_iff.2 h, Option.filter_some_pos hn]

/-- A long integer is left to the reader of doubles. -/
theorem ofArgument_long (h : IntegerText a.toList n) (hn : fitsInt64 n = false) :
    ∃ x, Value.ofArgument a = .float x ∧ RoundsTo n x := by
  have hfilter : (integer? a.toList).filter fitsInt64 = none := by
    rw [integer?_eq_some_iff.2 h, Option.filter_some_neg (Bool.not_eq_true _ ▸ hn)]
  obtain ⟨negative, sign, ds, hsign, hs, hne, hds, rfl⟩ := h
  have hlong : 2 ^ 53 ≤ natOf 10 ds := by
    have hnot := mt fitsInt64_iff.2 (by rw [hn]; decide)
    cases negative <;> simp only [signed, Bool.false_eq_true, if_true, if_false] at hnot <;> omega
  refine ⟨signedFloat negative (nearest (natOf 10 ds) 0), ?_, roundsTo_nearest negative hlong⟩
  rw [Value.ofArgument, hfilter, hs, floatText?_of_isDigit hsign hne hds]

theorem wordBinding_ofArgument (h : ∀ c ∈ a.toList, c.isDigit = false) : WordBinding a (Value.ofArgument a) := by
  have hinteger : integer? a.toList = none := by
    rw [Option.eq_none_iff_forall_ne_some]
    intro n hn
    obtain ⟨c, hc, hdigit⟩ := (integer?_eq_some_iff.1 hn).exists_isDigit
    exact absurd hdigit (by rw [h c hc]; decide)
  unfold Value.ofArgument
  rw [hinteger, Option.filter_none]
  dsimp only
  cases hfloat : floatText? a.toList with
  | some x =>
    have hword : FloatWord a.toList x := (floatText?_eq_some_iff_of_digitless h).1 hfloat
    exact .notFinite hword hword.exactValue?_eq_none
  | none =>
    have hnoword : ∀ x, ¬ FloatWord a.toList x := by
      intro x hx
      rw [(floatText?_eq_some_iff_of_digitless h).2 hx] at hfloat
      cases hfloat
    dsimp only
    split
    case isTrue htrue => exact .true htrue
    case isFalse htrue =>
      split
      case isTrue hfalse => exact .false hfalse
      case isFalse hfalse =>
        split
        case isTrue hnull => exact .null hnull
        case isFalse hnull => exact .itself htrue hfalse (Bool.not_eq_true _ ▸ hnull) hnoword

/-- **One argument** is bound in the way that its text tells. -/
theorem boundAs_ofArgument (a : String) : BoundAs a (Value.ofArgument a) where
  integer _ := ofArgument_integer
  long _ := ofArgument_long
  word := wordBinding_ofArgument

theorem isScalar_ofArgument (a : String) : (Value.ofArgument a).isScalar = true := by
  unfold Value.ofArgument
  split
  · rfl
  split
  · rfl
  split
  · rfl
  split
  · rfl
  split <;> rfl

end Argument

/-! ### The call -/

section Call

variable {p : Paging} {vs : List Value}

theorem Value.fragments_of_isScalar (h : ∀ v ∈ vs, v.isScalar = true) :
    Value.fragments p vs = .ok (vs.map fun v => [.bound v]) := by
  induction vs with
  | nil => rfl
  | cons v vs ih =>
    obtain ⟨hv, hvs⟩ := List.forall_mem_cons.1 h
    exact Value.fragments_cons_eq_ok.2 ⟨_, _, Value.fragment_of_isScalar hv, ih hvs, rfl⟩

/-- The text of a call with as many placeholders as it has arguments. -/
def callText (name : String) (count : Nat) : String :=
  quote name ++ " (" ++ ", ".intercalate (List.replicate count "?") ++ ")"

/-- **A call with values that are bound** has one placeholder for each of them. -/
theorem compileProcedure_scalars {name : String} (hname : isBlankText name = false)
    (h : ∀ v ∈ vs, v.isScalar = true) :
    compileProcedure p name vs = .ok { sql := callText name vs.length, params := vs } := by
  have hparams : Fragment.params (Fragment.joined ", " (vs.map fun v => [.bound v])) = vs := by
    rw [Fragment.params_joined, List.flatMap_map]
    exact List.flatMap_singleton' vs
  have htext : Fragment.text (Fragment.joined ", " (vs.map fun v => [.bound v])) =
      ", ".intercalate (List.replicate vs.length "?") := by
    rw [Fragment.text_joined, List.map_map, ← List.map_const']
    exact congrArg _ (List.map_congr_left fun v _ => Fragment.text_singleton (.bound v))
  have hcall : (TableRef.procedure name vs).fragment p = .ok (procedureCall name (vs.map fun v => [.bound v])) :=
    TableRef.fragment_procedure_eq_ok.2 ⟨hname, _, Value.fragments_of_isScalar h, rfl⟩
  unfold compileProcedure
  rw [hcall]
  change Except.ok (procedureCall name (vs.map fun v => [.bound v])).statement = _
  have hspaced : " (" = " " ++ "(" := by decide
  have hquote : Fragment.text (Fragment.name name) = quote name := Fragment.text_singleton (.name name)
  unfold Fragment.statement procedureCall callText Fragment.parenthesized
  simp only [Fragment.params_append, Fragment.params_name, Fragment.params_word, hparams, List.nil_append,
    List.append_nil, Fragment.text_append, Fragment.text_word, hquote, htext, hspaced, String.append_assoc]

theorem compileProcedure_ofArgument {name : String} (hname : isBlankText name = false) (args : List String) :
    compileProcedure p name (args.map Value.ofArgument) =
      .ok { sql := callText name args.length, params := args.map Value.ofArgument } := by
  have hscalars : ∀ v ∈ args.map Value.ofArgument, v.isScalar = true :=
    List.forall_mem_map.2 fun a _ => isScalar_ofArgument a
  rw [compileProcedure_scalars hname hscalars, List.length_map]

end Call

/-! ### The command -/

namespace CommandLine

variable {m : Type → Type} [Monad m]

theorem foldlM_addOperand (s : Scan) (args : List String) :
    args.foldlM (Scan.addOperand none) s = .ok { s with operands := s.operands ++ args } := by
  induction args generalizing s with
  | nil =>
    rw [List.foldlM_nil, List.append_nil]
    rfl
  | cons a args ih =>
    have hadd : s.addOperand none a = .ok { s with operands := s.operands ++ [a] } := rfl
    rw [List.foldlM_cons, hadd]
    change args.foldlM (Scan.addOperand none) _ = _
    rw [ih, List.append_assoc]
    rfl

/-- Every list of arguments can be given: nothing behind the mark is taken for an option. -/
theorem ofArguments_procedure (name : String) (args : List String) :
    Invocation.ofArguments ("procedure" :: "--" :: name :: args) =
      .ok { config := none, format := none, command := .procedure name args } := by
  have hname : scan Invocation.spec {} ("procedure" :: "--" :: name :: args) =
      .ok { rest := "procedure" :: "--" :: name :: args } := rfl
  have hargs : scan (Command.spec [] none) {} ("--" :: name :: args) = .ok { operands := name :: args } :=
    foldlM_addOperand {} (name :: args)
  unfold Invocation.ofArguments
  rw [hname]
  change (Command.ofArguments "procedure" ("--" :: name :: args) >>= fun _ => _) = _
  unfold Command.ofArguments
  dsimp only
  rw [hargs]
  rfl

theorem run_procedure (host : Host m) (config : Config) (format : OutputFormat) {name : String} {args : List String}
    {s : Statement} (h : compileProcedure .modern name (args.map Value.ofArgument) = .ok s) :
    (Command.procedure name args).run host config format = pure { stdout := showStatement format s } := by
  change pure (printed (showStatement format) (compileProcedure .modern name (args.map Value.ofArgument))) = _
  rw [h]
  rfl

/-- **The arguments of a procedure** are the parameters of the statement that is printed, one for each and in their
order, and each is bound in the way that its text tells. -/
theorem procedure_binds (host : Host m) (config : Config) (format : OutputFormat) {name : String} (args : List String)
    (hname : isBlankText name = false) : ∃ s : Statement,
      compileProcedure .modern name (args.map Value.ofArgument) = .ok s ∧
        (Command.procedure name args).run host config format = pure { stdout := showStatement format s } ∧
        s.sql = callText name args.length ∧ List.Forall₂ BoundAs args s.params := by
  have hcompiled := compileProcedure_ofArgument (p := .modern) hname args
  refine ⟨_, hcompiled, run_procedure host config format hcompiled, rfl, ?_⟩
  exact List.forall₂_map_right_iff.2 (List.forall₂_same.2 fun a _ => boundAs_ofArgument a)

theorem procedure_binds_findCustomer : isBlankText "FIND_CUSTOMER" = false ∧ ∃ (s : Statement) (x : Float),
    (Command.procedure "FIND_CUSTOMER" ["-7", "Novak", "9223372036854775809"]).run
          (FileTree.ofFiles [] "").host {} .text = pure { stdout := showStatement .text s } ∧
      s.sql = "\"FIND_CUSTOMER\" (?, ?, ?)" ∧ s.params = [.int (-7), .string "Novak", .float x] ∧
      RoundsTo 9223372036854775809 x := by
  have hname : isBlankText "FIND_CUSTOMER" = false := by decide
  have hnone : floatText? "Novak".toList = none := rfl
  obtain ⟨⟨sql, params⟩, -, hrun, hsql, hbound⟩ := procedure_binds (FileTree.ofFiles [] "").host {} .text
    ["-7", "Novak", "9223372036854775809"] hname
  obtain _ | ⟨hseven, _ | ⟨hnovak, _ | ⟨hlong, _ | _⟩⟩⟩ := hbound
  obtain rfl := hseven.integer (-7) (integer?_eq_some_iff.1 (by decide)) (by decide)
  obtain ⟨x, rfl, hx⟩ := hlong.long 9223372036854775809 (integer?_eq_some_iff.1 (by decide)) (by decide)
  cases hnovak.word (by simp) with
  | true h => exact absurd h (by decide)
  | false h => exact absurd h (by decide)
  | null h => exact absurd h (by decide)
  | notFinite h =>
    rw [(floatText?_eq_some_iff_of_digitless (by simp)).2 h] at hnone
    cases hnone
  | itself => exact ⟨hname, _, x, hrun, hsql.trans (by decide), rfl, hx⟩

/-! ### Arguments that are kept -/

/-- The number that a value is. -/
def number? : Value → Option ℚ
  | .int n => some n
  | .float x => exactValue? x
  | _ => none

/-- An argument kept as it was typed: an integer is that number, and a text without digits is itself unless it is a
word for a truth value or for null. -/
structure KeptAsTyped (a : String) (v : Value) : Prop where
  integer : ∀ n, IntegerText a.toList n → number? v = some (n : ℚ)
  word : (∀ c ∈ a.toList, c.isDigit = false) → a ≠ "true" → a ≠ "false" → sameLetters a "null" = false →
    v = .string a

/-- A text that a double is read from is no other word. -/
theorem ne_word_of_floatWord {a : String} {x : Float} (h : FloatWord a.toList x) :
    a ≠ "true" ∧ a ≠ "false" ∧ sameLetters a "null" = false := by
  have hword {t : String} (hsign : '-' ∉ t.toList.map foldAscii ∧ '+' ∉ t.toList.map foldAscii)
      (ht : ∀ u ∈ ["inf", "infinity", "nan"], sameLetters u t = false) : sameLetters a t = false := by
    have hother := h.sameLetters_eq_false hsign ht
    rwa [String.ofList_toList] at hother
  refine ⟨?_, ?_, hword (by decide) (by decide)⟩
  · rintro rfl
    exact absurd (hword (t := "true") (by decide) (by decide)) (by decide)
  · rintro rfl
    exact absurd (hword (t := "false") (by decide) (by decide)) (by decide)

/-- **Which arguments are kept**: all but the long integers that are no double, and the words that a double is read
from. -/
theorem keptAsTyped_iff {a : String} : KeptAsTyped a (Value.ofArgument a) ↔
    (∀ n, IntegerText a.toList n → fitsInt64 n = false → IsDouble n) ∧
      ((∀ c ∈ a.toList, c.isDigit = false) → ∀ x, ¬ FloatWord a.toList x) := by
  constructor
  · intro h
    refine ⟨fun n hn hlong => ?_, fun hdigitless x hx => ?_⟩
    · obtain ⟨x, hx, hrounds⟩ := ofArgument_long hn hlong
      have hkept := h.integer n hn
      rw [hx] at hkept
      exact hrounds.exact.1 hkept
    · obtain ⟨htrue, hfalse, hnull⟩ := ne_word_of_floatWord hx
      have hkept := h.word hdigitless htrue hfalse hnull
      have hword := wordBinding_ofArgument hdigitless
      rw [hkept] at hword
      cases hword with
      | itself _ _ _ hnone => exact hnone x hx
  · rintro ⟨hinteger, hword⟩
    refine ⟨fun n hn => ?_, fun hdigitless htrue hfalse hnull => ?_⟩
    · cases hfits : fitsInt64 n with
      | true =>
        rw [ofArgument_integer hn hfits]
        rfl
      | false =>
        obtain ⟨x, hx, hrounds⟩ := ofArgument_long hn hfits
        rw [hx]
        exact hrounds.exact.2 (hinteger n hn hfits)
    · have hbinding := wordBinding_ofArgument hdigitless
      generalize Value.ofArgument a = v at hbinding
      cases hbinding with
      | true h => exact absurd h htrue
      | false h => exact absurd h hfalse
      | null h => exact absurd h (by rw [hnull]; decide)
      | notFinite h => exact absurd h (hword hdigitless _)
      | itself => rfl

theorem not_keptAsTyped_nan : ¬ KeptAsTyped "Nan" (Value.ofArgument "Nan") := by
  intro h
  have hword : FloatWord "Nan".toList (signedFloat false (0 / 0)) := .mk .none rfl (.nan (by decide))
  exact (keptAsTyped_iff.1 h).2 (by simp) _ hword

theorem not_keptAsTyped_long : ¬ KeptAsTyped "9223372036854775809" (Value.ofArgument "9223372036854775809") := by
  intro h
  have htext : IntegerText "9223372036854775809".toList 9223372036854775809 := integer?_eq_some_iff.1 (by decide)
  exact not_isDouble_of_odd (by decide) (by decide) ((keptAsTyped_iff.1 h).1 _ htext (by decide))

theorem exists_not_kept {a : String} (h : ¬ KeptAsTyped a (Value.ofArgument a)) : ∃ s : Statement,
    compileProcedure .modern "FIND_CUSTOMER" ([a].map Value.ofArgument) = .ok s ∧
      (Command.procedure "FIND_CUSTOMER" [a]).run (FileTree.ofFiles [] "").host {} .text =
        pure { stdout := showStatement .text s } ∧ ¬ List.Forall₂ KeptAsTyped [a] s.params := by
  have hname : isBlankText "FIND_CUSTOMER" = false := by decide
  have hcompiled := compileProcedure_ofArgument (p := .modern) hname [a]
  refine ⟨_, hcompiled, run_procedure _ _ _ hcompiled, fun hkept => h ?_⟩
  exact (List.forall₂_cons.1 hkept).1

/-- **Arguments are not kept as they were typed**: not every name, and not every integer. -/
theorem procedure_retypes :
    (∃ s : Statement, compileProcedure .modern "FIND_CUSTOMER" (["Nan"].map Value.ofArgument) = .ok s ∧
      (Command.procedure "FIND_CUSTOMER" ["Nan"]).run (FileTree.ofFiles [] "").host {} .text =
        pure { stdout := showStatement .text s } ∧ ¬ List.Forall₂ KeptAsTyped ["Nan"] s.params) ∧
    ∃ s : Statement, compileProcedure .modern "FIND_CUSTOMER" (["9223372036854775809"].map Value.ofArgument) = .ok s ∧
      (Command.procedure "FIND_CUSTOMER" ["9223372036854775809"]).run (FileTree.ofFiles [] "").host {} .text =
        pure { stdout := showStatement .text s } ∧ ¬ List.Forall₂ KeptAsTyped ["9223372036854775809"] s.params :=
  ⟨exists_not_kept not_keptAsTyped_nan, exists_not_kept not_keptAsTyped_long⟩

end CommandLine

end SqlQuery
