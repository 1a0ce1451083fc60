import SqlQuery.Calendar.Date
import SqlQuery.Calendar.Time

/-!
# Timestamps

A date and a time of day without a zone, written with a `T` between them. Reading requires the
seconds.
-/

namespace SqlQuery.Calendar

open SqlQuery.Text SqlQuery.Number

/-- A date and a time of day. -/
structure Timestamp where
  date : Date
  time : Time
deriving DecidableEq

namespace Timestamp

/-- The timestamp as `YYYY-MM-DDTHH:MM:SS`, with the fraction of the time. -/
def text (t : Timestamp) : List Char :=
  t.date.text ++ 'T' :: t.time.text

/-- The text read as one timestamp; blanks may follow it. -/
def read? (s : List Char) : Option Timestamp := do
  let (date, s) ← Date.readPart? s
  let s ← separator? 'T' s
  return ⟨date, ← Time.read? s true⟩

end Timestamp

end SqlQuery.Calendar
