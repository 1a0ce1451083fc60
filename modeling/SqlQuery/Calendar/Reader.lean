import SqlQuery.Number.Digits
import SqlQuery.Text.Blank

/-!
# Leaves of the readers of dates and times

Each function takes a text apart from the left and returns what it read with the rest, or nothing.
Blanks may stand before every number and before every separator.
-/

namespace SqlQuery.Calendar

open SqlQuery.Text SqlQuery.Number

/-- Blanks, then an unsigned number of at most `width` digits. -/
def number? (width : Nat) (s : List Char) : Option (Nat × List Char) :=
  let s := trimStart s
  let ds := (s.take width).takeWhile Char.isDigit
  if ds = [] then none else some (natOf 10 ds, s.drop ds.length)

/-- Blanks, then a year: up to four digits, or a sign and any number of digits. -/
def year? (s : List Char) : Option (Int × List Char) :=
  match trimStart s with
  | '-' :: s => (signedDigits? s).map fun (n, rest) => (-n, rest)
  | '+' :: s => (signedDigits? s).map fun (n, rest) => (n, rest)
  | s => (number? 4 s).map fun (n, rest) => (n, rest)
where
  signedDigits? (s : List Char) : Option (Nat × List Char) :=
    let (ds, rest) := spanDigits s
    if ds = [] then none else some (natOf 10 ds, rest)

/-- The character `c`, with nothing before it. -/
def literal? (c : Char) : List Char → Option (List Char)
  | [] => none
  | d :: s => if d = c then some s else none

/-- Blanks, then the character `c`. -/
def separator? (c : Char) (s : List Char) : Option (List Char) :=
  literal? c (trimStart s)

end SqlQuery.Calendar
