import SqlQuery.Calendar.Reader

/-!
# Times of day

* `Time` — a time of day to the nanosecond; second 60 is a leap second;
* `Time.read?` — `H:M`, `H:M:S` or `H:M:S.F`, digits of the fraction beyond the ninth dropped;
* `Time.text` — `HH:MM:SS`, with a fraction of three, six or nine digits, the fewest that are exact.
-/

namespace SqlQuery.Calendar

open SqlQuery.Text SqlQuery.Number

/-- A time of day. -/
structure Time where
  hour : Nat
  minute : Nat
  second : Nat
  nano : Nat
  inRange : hour < 24 ∧ minute < 60 ∧ second ≤ 60 ∧ nano < 1000000000
deriving DecidableEq

namespace Time

/-- The time that four numbers name. -/
def ofNumbers? (hour minute second nano : Nat) : Option Time :=
  if h : hour < 24 ∧ minute < 60 ∧ second ≤ 60 ∧ nano < 1000000000 then
    some ⟨hour, minute, second, nano, h⟩
  else none

/-- The time without its fraction, `HH:MM:SS`. -/
def clock (t : Time) : List Char :=
  padded 2 t.hour ++ ':' :: padded 2 t.minute ++ ':' :: padded 2 t.second

/-- Nothing, or a point and the fewest of three, six or nine digits that are exact. -/
def fraction (nano : Nat) : List Char :=
  if nano = 0 then []
  else if nano % 1000000 = 0 then '.' :: padded 3 (nano / 1000000)
  else if nano % 1000 = 0 then '.' :: padded 6 (nano / 1000)
  else '.' :: padded 9 nano

/-- The time with its fraction. -/
def text (t : Time) : List Char :=
  t.clock ++ fraction t.nano

/-! ### Reading -/

/-- A fraction after its point: at least one digit, of which nine count. -/
def nanos? (s : List Char) : Option (Nat × List Char) :=
  let (ds, rest) := spanDigits s
  if ds = [] then none else some (natOf 10 ((ds.take 9).rightpad 9 '0'), rest)

/-- Seconds with an optional fraction, after the colon before them. -/
def readSeconds? (s : List Char) : Option ((Nat × Nat) × List Char) := do
  let s ← separator? ':' s
  let (second, s) ← number? 2 s
  match s with
  | '.' :: s =>
    let (nano, s) ← nanos? s
    return ((second, nano), s)
  | s => return ((second, 0), s)

/-- Hours and minutes, and the rest of the text. -/
def readMinutes? (s : List Char) : Option ((Nat × Nat) × List Char) := do
  let (hour, s) ← number? 2 s
  let s ← separator? ':' s
  let (minute, s) ← number? 2 s
  return ((hour, minute), s)

/-- The text read as one time, blanks allowed after it; seconds may be missing unless `strict`. -/
def read? (s : List Char) (strict : Bool) : Option Time := do
  let ((hour, minute), s) ← readMinutes? s
  let ((second, nano), s) ←
    match readSeconds? s with
    | some r => some r
    | none => if strict then none else some ((0, 0), s)
  if onlyBlanks s then ofNumbers? hour minute second nano else none

end Time

end SqlQuery.Calendar
