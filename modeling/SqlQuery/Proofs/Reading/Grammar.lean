import SqlQuery.Keyword

/-!
# Reading conditions

How SQL reads a condition: parentheses bind first, then `not`, then `and`, then `or`; and a condition is true,
false or unknown.

* `Truth` — the three truth values with their connectives;
* `Token`, `Formula` — a condition as a list of words, and as a tree;
* `Reads` — the grammar, one level for each strength of binding;
* `Reads.unique` — **a list of words has at most one reading**, shown by a machine with a stack that every reading
  follows (`Reads.parses`).
-/

namespace SqlQuery

/-! ### Truth values -/

/-- The truth values of SQL. -/
inductive Truth where
  | yes | no | unknown
deriving DecidableEq

namespace Truth

def not : Truth → Truth
  | yes => no
  | no => yes
  | unknown => unknown

/-- Two truth values connected: `no` decides a conjunction, `yes` a disjunction, and without them both values
have to be known. -/
def join : Connective → Truth → Truth → Truth
  | .and, no, _ | .and, _, no => no
  | .and, yes, yes => yes
  | .or, yes, _ | .or, _, yes => yes
  | .or, no, no => no
  | _, _, _ => unknown

/-- The value of a connective without operands. -/
def unit : Connective → Truth
  | .and => yes
  | .or => no

theorem join_assoc (k : Connective) (a b c : Truth) : (a.join k b).join k c = a.join k (b.join k c) := by
  cases k <;> cases a <;> cases b <;> cases c <;> rfl

theorem join_unit (k : Connective) (a : Truth) : a.join k (unit k) = a := by
  cases k <;> cases a <;> rfl

end Truth

/-! ### Words and trees -/

/-- A word of a condition; atoms are numbered in their order. -/
inductive Token where
  | atom (i : Nat)
  | not
  | lparen
  | rparen
  | connective (k : Connective)

/-- A condition as a tree over numbered atoms. -/
inductive Formula where
  | atom (i : Nat)
  | not (e : Formula)
  | join (k : Connective) (d e : Formula)

/-- The value of a condition, given the values of its atoms. -/
def Formula.value (ν : Nat → Truth) : Formula → Truth
  | atom i => ν i
  | not e => (e.value ν).not
  | join k d e => (d.value ν).join k (e.value ν)

/-! ### The grammar -/

/-- How strongly a condition holds together. -/
inductive Level where
  | primary | negation | conjunction | disjunction

/-- The level of the conditions that a connective puts together. -/
def Connective.level : Connective → Level
  | and => .conjunction
  | or => .disjunction

/-- What a list of words says, read at a level.  Connectives of one kind group from the left. -/
inductive Reads : Level → List Token → Formula → Prop
  | atom (i : Nat) : Reads .primary [.atom i] (.atom i)
  | parens {ts : List Token} {e : Formula} :
      Reads .disjunction ts e → Reads .primary (.lparen :: ts ++ [.rparen]) e
  | primary {ts : List Token} {e : Formula} : Reads .primary ts e → Reads .negation ts e
  | not {ts : List Token} {e : Formula} : Reads .negation ts e → Reads .negation (.not :: ts) (.not e)
  | negation {ts : List Token} {e : Formula} : Reads .negation ts e → Reads .conjunction ts e
  | and {ts us : List Token} {d e : Formula} : Reads .conjunction ts d → Reads .negation us e →
      Reads .conjunction (ts ++ .connective .and :: us) (.join .and d e)
  | conjunction {ts : List Token} {e : Formula} : Reads .conjunction ts e → Reads .disjunction ts e
  | or {ts us : List Token} {d e : Formula} : Reads .disjunction ts d → Reads .conjunction us e →
      Reads .disjunction (ts ++ .connective .or :: us) (.join .or d e)

/-! ### The machine -/

/-- One open parenthesis: the disjunction and the conjunction before the next operand, and the negations that wait
for it. -/
structure Frame where
  disj : Option Formula := none
  conj : Option Formula := none
  nots : Nat := 0

/-- A formula under some negations. -/
def Formula.nots : Nat → Formula → Formula
  | 0, e => e
  | n + 1, e => nots n (.not e)

/-- A formula after what stands before it. -/
def Formula.after (k : Connective) : Option Formula → Formula → Formula
  | none, e => e
  | some d, e => .join k d e

namespace Frame

/-- The frame with its next operand. -/
def take (fr : Frame) (e : Formula) : Frame :=
  { disj := fr.disj, conj := some (.after .and fr.conj (.nots fr.nots e)) }

/-- What the frame has read. -/
def close (fr : Frame) : Option Formula :=
  fr.conj.map (.after .or fr.disj)

end Frame

/-- One word read, the innermost parenthesis first.  The machine takes words as they come; only what it does on
conditions of the grammar matters. -/
def Token.step : List Frame → Token → List Frame
  | fr :: st, .atom i => fr.take (.atom i) :: st
  | fr :: st, .not => { fr with nots := fr.nots + 1 } :: st
  | st, .lparen => {} :: st
  | fr :: outer :: st, .rparen => (fr.close.map outer.take).toList ++ st
  | fr :: st, .connective .and => fr :: st
  | fr :: st, .connective .or => { disj := fr.close } :: st
  | _, _ => []

/-- The frames after some words. -/
def run (st : List Frame) (ts : List Token) : List Frame := ts.foldl Token.step st

theorem run_append (st : List Frame) (ts us : List Token) : run st (ts ++ us) = run (run st ts) us :=
  List.foldl_append

theorem run_cons (st : List Frame) (t : Token) (ts : List Token) : run st (t :: ts) = run (t.step st) ts := rfl

/-- What the machine does on a condition of a level. -/
def Level.Parses : Level → List Token → Formula → Prop
  | .primary, ts, e | .negation, ts, e => ∀ fr st, run (fr :: st) ts = fr.take e :: st
  | .conjunction, ts, e => ∀ d st, run ({ disj := d } :: st) ts = { disj := d, conj := some e } :: st
  | .disjunction, ts, e => ∀ st, ∃ d c, run ({} :: st) ts = { disj := d, conj := some c } :: st ∧
      Formula.after .or d c = e

/-- The machine follows every reading. -/
theorem Reads.parses {l : Level} {ts : List Token} {e : Formula} (h : Reads l ts e) : l.Parses ts e := by
  induction h with
  | atom i => exact fun _ _ => rfl
  | parens _ ih =>
    intro fr st
    obtain ⟨d, c, hrun, he⟩ := ih (fr :: st)
    rw [List.cons_append, run_cons, run_append, Token.step, hrun, run_cons, Token.step, Frame.close,
      Option.map_some, he]
    rfl
  | primary _ ih => exact ih
  | not _ ih =>
    intro fr st
    rw [run_cons, Token.step, ih]
    rfl
  | negation _ ih =>
    intro d st
    rw [ih]
    rfl
  | and _ _ ihd ihe =>
    intro d st
    rw [run_append, ihd, run_cons, Token.step, ihe]
    rfl
  | conjunction _ ih =>
    intro st
    exact ⟨none, _, ih none st, rfl⟩
  | or _ _ ihd ihe =>
    intro st
    obtain ⟨d, c, hrun, he⟩ := ihd st
    refine ⟨some _, _, ?_, rfl⟩
    rw [run_append, hrun, run_cons, Token.step, Frame.close, Option.map_some, he, ihe]

/-- What is read at some level can be read at the weakest. -/
theorem Reads.loosen {l : Level} {ts : List Token} {e : Formula} (h : Reads l ts e) :
    Reads .disjunction ts e := by
  cases l with
  | primary => exact .conjunction (.negation (.primary h))
  | negation => exact .conjunction (.negation h)
  | conjunction => exact .conjunction h
  | disjunction => exact h

/-- **A list of words has at most one reading.** -/
theorem Reads.unique {l l' : Level} {ts : List Token} {d e : Formula} (h : Reads l ts d) (h' : Reads l' ts e) :
    d = e := by
  obtain ⟨b, c, hrun, rfl⟩ := h.loosen.parses []
  obtain ⟨b', c', hrun', rfl⟩ := h'.loosen.parses []
  rw [hrun] at hrun'
  cases hrun'
  rfl

/-! ### Operands one after the other -/

theorem Reads.toLevel {ts : List Token} {e : Formula} (k : Connective) (h : Reads .negation ts e) :
    Reads k.level ts e := by
  cases k with
  | and => exact .negation h
  | or => exact .conjunction (.negation h)

/-- Two conditions connected, also where the second is itself put together by the same connective: the words then
group from the left, which changes the tree but not its value. -/
theorem Reads.append {l : Level} {k : Connective} {us : List Token} {e : Formula} (h : Reads l us e)
    (hl : l = k.level) {ts : List Token} {d : Formula} (hd : Reads k.level ts d) :
    ∃ f, Reads k.level (ts ++ .connective k :: us) f ∧
      ∀ ν, f.value ν = (d.value ν).join k (e.value ν) := by
  induction h generalizing ts d with
  | atom | parens | primary | not => cases k <;> exact nomatch hl
  | negation he _ =>
    cases k with
    | and => exact ⟨_, .and hd he, fun _ => rfl⟩
    | or => exact nomatch hl
  | and hc he ih _ =>
    cases k with
    | and =>
      obtain ⟨f, hf, hv⟩ := ih rfl hd
      refine ⟨_, List.append_assoc _ _ _ ▸ Reads.and hf he, fun ν => ?_⟩
      rw [Formula.value, hv, Truth.join_assoc]
      rfl
    | or => exact nomatch hl
  | conjunction he _ =>
    cases k with
    | and => exact nomatch hl
    | or => exact ⟨_, .or hd he, fun _ => rfl⟩
  | or hc he ih _ =>
    cases k with
    | and => exact nomatch hl
    | or =>
      obtain ⟨f, hf, hv⟩ := ih rfl hd
      refine ⟨_, List.append_assoc _ _ _ ▸ Reads.or hf he, fun ν => ?_⟩
      rw [Formula.value, hv, Truth.join_assoc]
      rfl

end SqlQuery
