import SqlQuery.Json.Basic
import SqlQuery.Number.FloatReader

/-!
# Reading JSON

A strict reader: one value and nothing after it, no comments, and no control characters in strings.

* `Json.stringBody?`, `Json.ofUnits?` — a string after its opening quote, and its characters;
* `Json.number?` — a number; without point and exponent it is whole if sixty-four bits hold it;
* `Json.read?` — a whole text. The recursion is bounded by the length of the text, which no reading
  exceeds.
-/

namespace SqlQuery.Json

open SqlQuery.Number

/-- The text without the spaces at its start. -/
def skipSpace (s : List Char) : List Char :=
  s.dropWhile fun c => c == ' ' || c == '\t' || c == '\n' || c == '\r'

/-! ### Strings -/

/-- What a single character after a backslash stands for. -/
def escape? : Char → Option Char
  | '"' => some '"'
  | '\\' => some '\\'
  | '/' => some '/'
  | 'b' => some '\x08'
  | 'f' => some '\x0C'
  | 'n' => some '\n'
  | 'r' => some '\r'
  | 't' => some '\t'
  | _ => none

/-- The number that four digits of base sixteen spell. -/
def unit? (ds : List Char) : Option Nat :=
  if ds.all isHexDigit then some (natOf 16 ds) else none

def isHighSurrogate (n : Nat) : Bool := 0xD800 ≤ n && n < 0xDC00

def isLowSurrogate (n : Nat) : Bool := 0xDC00 ≤ n && n < 0xE000

/-- The character of a surrogate pair. -/
def ofPair (high low : Nat) : Char :=
  Char.ofNat (0x10000 + (high - 0xD800) * 0x400 + (low - 0xDC00))

/-- The units of a string after its opening quote, and what follows the closing one. A unit is a
character or half of a surrogate pair. -/
def stringBody? : List Char → Option (List Nat × List Char)
  | [] => none
  | '"' :: rest => some ([], rest)
  | '\\' :: 'u' :: a :: b :: c :: d :: rest => do
    let unit ← unit? [a, b, c, d]
    let (units, rest) ← stringBody? rest
    return (unit :: units, rest)
  | '\\' :: c :: rest => do
    let c ← escape? c
    let (units, rest) ← stringBody? rest
    return (c.toNat :: units, rest)
  | c :: rest => do
    guard (0x20 ≤ c.toNat)
    let (units, rest) ← stringBody? rest
    return (c.toNat :: units, rest)

/-- The characters of a string, unless half of a surrogate pair stands alone in it. -/
def ofUnits? : List Nat → Option (List Char)
  | [] => some []
  | [unit] => if isHighSurrogate unit || isLowSurrogate unit then none else some [Char.ofNat unit]
  | high :: low :: rest =>
    if isHighSurrogate high && isLowSurrogate low then
      (ofUnits? rest).map (ofPair high low :: ·)
    else if isHighSurrogate high || isLowSurrogate high then none
    else (ofUnits? (low :: rest)).map (Char.ofNat high :: ·)

/-- The string of these units. -/
def ofUnits (units : List Nat) : Json :=
  match ofUnits? units with
  | some cs => string (String.ofList cs)
  | none => unreadable

/-- The object of these members, each with its key as far as that is a text. -/
def ofMembers (members : List (Option String × Json)) : Json :=
  match members.mapM fun (key, value) => key.map fun key => Member.mk key value with
  | some members => object members
  | none => unreadable

/-! ### Numbers -/

/-- Digits before a point, without a zero in front of others. -/
def wholeDigits? (s : List Char) : Option (List Char × List Char) :=
  match spanDigits s with
  | ([], _) => none
  | ('0' :: _ :: _, _) => none
  | (ds, rest) => some (ds, rest)

/-- The digits after a point, if there is a point. -/
def fractionDigits? : List Char → Option (Option (List Char) × List Char)
  | '.' :: s =>
    match spanDigits s with
    | ([], _) => none
    | (ds, rest) => some (some ds, rest)
  | s => some (none, s)

/-- An exponent, if there is one. -/
def exponent? : List Char → Option (Option Int × List Char)
  | c :: s =>
    if c = 'e' ∨ c = 'E' then
      let (negative, s) := spanSign s
      match spanDigits s with
      | ([], _) => none
      | (ds, rest) => some (some (signed negative (natOf 10 ds)), rest)
    else some (none, c :: s)
  | [] => some (none, [])

/-- The double of a significand; infinite if it is too large. -/
def ofSignificand (negative : Bool) (s : Significand) : Json :=
  let x := s.toFloat?.getD (1 / 0)
  float (if negative then -x else x)

/-- A number without point and exponent. Zero with a minus sign is a double, since no whole number is
its like. -/
def ofWhole (negative : Bool) (ds : List Char) : Json :=
  let n := natOf 10 ds
  if negative then
    if 0 < n ∧ fitsInt64 (-n) then int (-n) else ofSignificand true (.whole ds)
  else if n < UInt64.size then int n
  else ofSignificand false (.whole ds)

/-- A number, and what follows it. -/
def number? (s : List Char) : Option (Json × List Char) := do
  let (negative, s) := match s with
    | '-' :: s => (true, s)
    | s => (false, s)
  let (whole, s) ← wholeDigits? s
  let (fraction, s) ← fractionDigits? s
  let (exponent, s) ← exponent? s
  match fraction, exponent with
  | none, none => return (ofWhole negative whole, s)
  | _, _ =>
    let significand := (Significand.whole whole).fraction (fraction.getD [])
    let scaled := { significand with exponent := significand.exponent + exponent.getD 0 }
    return (ofSignificand negative scaled, s)

/-! ### Values -/

mutual

/-- A value, and what follows it. -/
def value? : Nat → List Char → Option (Json × List Char)
  | 0, _ => none
  | fuel + 1, s =>
    match skipSpace s with
    | 'n' :: 'u' :: 'l' :: 'l' :: rest => some (null, rest)
    | 't' :: 'r' :: 'u' :: 'e' :: rest => some (bool true, rest)
    | 'f' :: 'a' :: 'l' :: 's' :: 'e' :: rest => some (bool false, rest)
    | '"' :: rest => (stringBody? rest).map fun (units, rest) => (ofUnits units, rest)
    | '[' :: rest =>
      match skipSpace rest with
      | ']' :: rest => some (array [], rest)
      | rest => (itemsAfter? fuel rest).map fun (items, rest) => (array items, rest)
    | '{' :: rest =>
      match skipSpace rest with
      | '}' :: rest => some (object [], rest)
      | rest => (membersAfter? fuel rest).map fun (members, rest) => (ofMembers members, rest)
    | s => number? s

/-- The items of an array after its bracket; there is at least one. -/
def itemsAfter? : Nat → List Char → Option (List Json × List Char)
  | 0, _ => none
  | fuel + 1, s => do
    let (item, s) ← value? fuel s
    match skipSpace s with
    | ',' :: s =>
      let (items, s) ← itemsAfter? fuel s
      return (item :: items, s)
    | ']' :: s => return ([item], s)
    | _ => none

/-- The members of an object after its brace; there is at least one. -/
def membersAfter? : Nat → List Char → Option (List (Option String × Json) × List Char)
  | 0, _ => none
  | fuel + 1, s => do
    match skipSpace s with
    | '"' :: s =>
      let (units, s) ← stringBody? s
      let key := (ofUnits? units).map String.ofList
      match skipSpace s with
      | ':' :: s =>
        let (value, s) ← value? fuel s
        match skipSpace s with
        | ',' :: s =>
          let (members, s) ← membersAfter? fuel s
          return ((key, value) :: members, s)
        | '}' :: s => return ([(key, value)], s)
        | _ => none
      | _ => none
    | _ => none

end

/-- A text that holds one value. Every call of the recursion but one for each level takes a
character. -/
def read? (text : String) : Option Json :=
  let s := text.toList
  match value? (2 * s.length + 2) s with
  | some (j, rest) => if (skipSpace rest).isEmpty then some j else none
  | none => none

end SqlQuery.Json
