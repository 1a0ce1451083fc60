import SqlQuery.Calendar.Reader

/-!
# Dates

* `Date` — a day of the proleptic Gregorian calendar (year 0 exists and is a leap year) between the
  years −262143 and 262142; the type carries its validity;
* `Date.read?` — `Y-M-D`, months and days of one or two digits;
* `Date.text` — `YYYY-MM-DD`, a year outside 0…9999 with its sign.
-/

namespace SqlQuery.Calendar

open SqlQuery.Text SqlQuery.Number

/-- Every fourth year, but of the hundreds only every fourth. -/
def isLeapYear (year : Int) : Bool :=
  year % 4 == 0 && (year % 100 != 0 || year % 400 == 0)

/-- The length of a month; 0 where there is no such month. -/
def daysInMonth (year : Int) (month : Nat) : Nat :=
  match month with
  | 1 | 3 | 5 | 7 | 8 | 10 | 12 => 31
  | 4 | 6 | 9 | 11 => 30
  | 2 => if isLeapYear year then 29 else 28
  | _ => 0

/-- Whether the three numbers name a day of the calendar. -/
def isDay (year : Int) (month day : Nat) : Bool :=
  -262143 ≤ year && year ≤ 262142 && 1 ≤ day && day ≤ daysInMonth year month

/-- A day of the calendar. -/
structure Date where
  year : Int
  month : Nat
  day : Nat
  isDay : Calendar.isDay year month day = true
deriving DecidableEq

namespace Date

/-- The day that three numbers name. -/
def ofNumbers? (year : Int) (month day : Nat) : Option Date :=
  if h : Calendar.isDay year month day = true then some ⟨year, month, day, h⟩ else none

/-- The year with four digits, or with a sign and at least four digits. -/
def yearText (year : Int) : List Char :=
  if 0 ≤ year ∧ year ≤ 9999 then padded 4 year.toNat
  else (if year < 0 then '-' else '+') :: padded 4 year.natAbs

/-- The date as `YYYY-MM-DD`. -/
def text (d : Date) : List Char :=
  yearText d.year ++ '-' :: padded 2 d.month ++ '-' :: padded 2 d.day

/-- Year, month and day, and the rest of the text. -/
def readPart? (s : List Char) : Option (Date × List Char) := do
  let (year, s) ← year? s
  let s ← separator? '-' s
  let (month, s) ← number? 2 s
  let s ← separator? '-' s
  let (day, s) ← number? 2 s
  return (← ofNumbers? year month day, s)

/-- The text read as one date; blanks may follow it. -/
def read? (s : List Char) : Option Date := do
  let (date, s) ← readPart? s
  if onlyBlanks s then some date else none

end Date

end SqlQuery.Calendar
