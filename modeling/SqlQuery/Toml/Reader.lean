import SqlQuery.Calendar.Date
import SqlQuery.Number.FloatReader
import SqlQuery.Toml.Basic

/-!
# Reading TOML

The grammar of TOML 1.0: comments, keys, the four kinds of strings, numbers, dates and times, arrays
and tables in braces.

* `Toml.text?` — a string of any kind; `Toml.keyPath?` — a dotted key;
* `Toml.number?`, `Toml.dateTime?` — the other scalars;
* `Toml.value?` — a value, with a bound on arrays and tables inside each other;
* `Toml.lines?` — the lines of a document; `Toml.read?` — a whole document.

Each reader takes a text apart from the left. The recursions that do not follow the text itself are
bounded by its length.
-/

namespace SqlQuery.Toml

open SqlQuery.Number SqlQuery.Calendar

/-! ### Blanks, comments and line ends -/

/-- A character that may stand for itself: a tab, or no control character. -/
def isPlain (c : Char) : Bool :=
  c == '\t' || (0x20 ≤ c.toNat && c.toNat ≠ 0x7F)

/-- The text without the spaces and tabs at its start. -/
def skipBlank (s : List Char) : List Char :=
  s.dropWhile fun c => c == ' ' || c == '\t'

/-- The text after a line end. -/
def newline? : List Char → Option (List Char)
  | '\n' :: s => some s
  | '\r' :: '\n' :: s => some s
  | _ => none

/-- The text without a comment at its start. -/
def skipComment : List Char → List Char
  | '#' :: s => s.dropWhile isPlain
  | s => s

/-- What stands on the next line, if only blanks and a comment are left on this one. -/
def lineEnd? (s : List Char) : Option (List Char) :=
  match skipComment (skipBlank s) with
  | [] => some []
  | s => newline? s

/-- The text without the blanks, comments and line ends at its start. -/
def skipTrivia : Nat → List Char → List Char
  | 0, s => s
  | fuel + 1, s =>
    let s := skipComment (skipBlank s)
    match newline? s with
    | some s => skipTrivia fuel s
    | none => s

/-! ### Strings -/

/-- The character with a number, which is no surrogate. -/
def scalar? (ds : List Char) : Option Char :=
  let n := natOf 16 ds
  if ds.all isHexDigit ∧ n.isValidChar then some (Char.ofNat n) else none

/-- An escape after its backslash. -/
def escape? : List Char → Option (Char × List Char)
  | 'b' :: s => some ('\x08', s)
  | 't' :: s => some ('\t', s)
  | 'n' :: s => some ('\n', s)
  | 'f' :: s => some ('\x0C', s)
  | 'r' :: s => some ('\r', s)
  | '"' :: s => some ('"', s)
  | '\\' :: s => some ('\\', s)
  | 'u' :: a :: b :: c :: d :: s => (scalar? [a, b, c, d]).map fun c => (c, s)
  | 'U' :: a :: b :: c :: d :: e :: f :: g :: h :: s =>
    (scalar? [a, b, c, d, e, f, g, h]).map fun c => (c, s)
  | _ => none

/-- A string in double quotes on one line, after its opening quote. -/
def basicBody? : Nat → List Char → Option (List Char × List Char)
  | 0, _ => none
  | fuel + 1, s =>
    match s with
    | [] => none
    | '"' :: s => some ([], s)
    | '\\' :: s => do
      let (c, s) ← escape? s
      let (cs, s) ← basicBody? fuel s
      return (c :: cs, s)
    | c :: s =>
      if isPlain c then (basicBody? fuel s).map fun (cs, s) => (c :: cs, s) else none

/-- A string in single quotes on one line, after its opening quote. -/
def literalBody? (s : List Char) : Option (List Char × List Char) :=
  let body := s.takeWhile fun c => isPlain c && c != '\''
  match s.drop body.length with
  | '\'' :: s => some (body, s)
  | _ => none

/-- What a run of quotes means in a string over several lines: three close it, up to two more before
them belong to it, and fewer than three all do. -/
def quoteRun (quote : Char) (s : List Char) : Bool × List Char × List Char :=
  let run := (s.takeWhile (· == quote)).length
  if run < 3 then (false, List.replicate run quote, s.drop run)
  else
    let inside := min (run - 3) 2
    (true, List.replicate inside quote, s.drop (inside + 3))

/-- The text after blanks and at least one line end, which a backslash joins to what is before. -/
def joinedLine? (fuel : Nat) (s : List Char) : Option (List Char) :=
  (newline? (skipBlank s)).map (skipLines fuel)
where
  skipLines : Nat → List Char → List Char
    | 0, s => s
    | fuel + 1, s =>
      match newline? (skipBlank s) with
      | some s => skipLines fuel s
      | none => skipBlank s

/-- A string over several lines, after its opening quotes. Only one in double quotes has escapes. -/
def multilineBody? (quote : Char) : Nat → List Char → Option (List Char × List Char)
  | 0, _ => none
  | fuel + 1, s =>
    match s with
    | [] => none
    | c :: rest =>
      if c = quote then
        let (closes, quotes, rest) := quoteRun quote s
        if closes then some (quotes, rest)
        else (multilineBody? quote fuel rest).map fun (cs, s) => (quotes ++ cs, s)
      else if c = '\\' ∧ quote = '"' then
        match joinedLine? fuel rest with
        | some rest => multilineBody? quote fuel rest
        | none => do
          let (c, rest) ← escape? rest
          let (cs, rest) ← multilineBody? quote fuel rest
          return (c :: cs, rest)
      else
        match newline? s with
        | some rest => (multilineBody? quote fuel rest).map fun (cs, s) => ('\n' :: cs, s)
        | none =>
          if isPlain c then (multilineBody? quote fuel rest).map fun (cs, s) => (c :: cs, s)
          else none

/-- A string over several lines, after its opening quotes; a line end directly after them does not
count. -/
def multiline? (quote : Char) (s : List Char) : Option (List Char × List Char) :=
  let s := (newline? s).getD s
  multilineBody? quote (s.length + 1) s

/-- A string on one line. -/
def lineText? : List Char → Option (List Char × List Char)
  | '"' :: s => basicBody? (s.length + 1) s
  | '\'' :: s => literalBody? s
  | _ => none

/-- A string of any of the four kinds. -/
def text? : List Char → Option (List Char × List Char)
  | '"' :: '"' :: '"' :: s => multiline? '"' s
  | '\'' :: '\'' :: '\'' :: s => multiline? '\'' s
  | s => lineText? s

/-! ### Keys -/

/-- The characters of a key without quotes. -/
def isKeyChar (c : Char) : Bool :=
  c.isAlphanum || c == '-' || c == '_'

/-- One part of a key. -/
def keyPart? (s : List Char) : Option (String × List Char) :=
  match lineText? s with
  | some (cs, s) => some (String.ofList cs, s)
  | none =>
    let cs := s.takeWhile isKeyChar
    if cs.isEmpty then none else some (String.ofList cs, s.drop cs.length)

/-- A dotted key, blanks allowed around its parts. -/
def keyParts? : Nat → List Char → Option (List String × List Char)
  | 0, _ => none
  | fuel + 1, s => do
    let (part, s) ← keyPart? (skipBlank s)
    match skipBlank s with
    | '.' :: s =>
      let (parts, s) ← keyParts? fuel s
      return (part :: parts, s)
    | s => return ([part], s)

/-- How many arrays, tables in braces, or parts of a key may follow inside each other. -/
def nestingLimit : Nat := 79

/-- A dotted key. -/
def keyPath? (s : List Char) : Option (List String × List Char) :=
  keyParts? nestingLimit s

/-! ### Dates and times -/

/-- Exactly `width` digits with a value in a range. -/
def fixedDigits? (width low high : Nat) (s : List Char) : Option (Nat × List Char) :=
  let ds := s.take width
  let n := natOf 10 ds
  if ds.length = width ∧ ds.all Char.isDigit ∧ low ≤ n ∧ n ≤ high then some (n, s.drop width)
  else none

/-- A day of the calendar, `YYYY-MM-DD`. -/
def fullDate? (s : List Char) : Option (List Char) := do
  let (year, s) ← fixedDigits? 4 0 9999 s
  let s ← literal? '-' s
  let (month, s) ← fixedDigits? 2 1 12 s
  let s ← literal? '-' s
  let (day, s) ← fixedDigits? 2 1 31 s
  if isDay year month day then some s else none

/-- A time of day, `HH:MM:SS`, with an optional fraction. -/
def partialTime? (s : List Char) : Option (List Char) := do
  let (_, s) ← fixedDigits? 2 0 23 s
  let s ← literal? ':' s
  let (_, s) ← fixedDigits? 2 0 59 s
  let s ← literal? ':' s
  let (_, s) ← fixedDigits? 2 0 60 s
  match s with
  | '.' :: s =>
    let (ds, s) := spanDigits s
    if ds.isEmpty then none else some s
  | s => some s

/-- An offset, `Z` or a sign and `HH:MM`. -/
def offset? : List Char → Option (List Char)
  | 'Z' :: s => some s
  | 'z' :: s => some s
  | c :: s =>
    if c = '+' ∨ c = '-' then do
      let (_, s) ← fixedDigits? 2 0 23 s
      let s ← literal? ':' s
      let (_, s) ← fixedDigits? 2 0 59 s
      some s
    else none
  | [] => none

/-- Whether a text begins as a date or as a time does. -/
def beginsMoment (s : List Char) : Bool :=
  let digits := (s.takeWhile Char.isDigit).length
  (digits == 4 && s[4]? == some '-') || (digits == 2 && s[2]? == some ':')

/-- What follows a date, a time, or both with an optional offset. -/
def moment? (s : List Char) : Option (List Char) :=
  match fullDate? s with
  | none => partialTime? s
  | some rest =>
    match rest with
    | c :: s =>
      if c = 'T' ∨ c = 't' ∨ c = ' ' then
        match partialTime? s with
        | some s => some ((offset? s).getD s)
        | none => if c = ' ' then some rest else none
      else some rest
    | [] => some []

/-- A date or time as it is written. -/
def dateTime? (s : List Char) : Option (Toml × List Char) :=
  (moment? s).map fun rest =>
    (.dateTime (String.ofList (s.take (s.length - rest.length))), rest)

/-! ### Numbers -/

/-- Digits of a kind, with single underscores between them; the underscores are dropped. -/
def grouped (isDigit : Char → Bool) : List Char → List Char × List Char
  | '_' :: c :: s => if isDigit c then let (ds, s) := grouped isDigit s; (c :: ds, s) else ([], '_' :: c :: s)
  | c :: s => if isDigit c then let (ds, s) := grouped isDigit s; (c :: ds, s) else ([], c :: s)
  | [] => ([], [])

/-- Digits as `grouped` takes them, of which the first is one. -/
def groupedDigits? (isDigit : Char → Bool) (s : List Char) : Option (List Char × List Char) :=
  match s with
  | c :: _ => if isDigit c then some (grouped isDigit s) else none
  | [] => none

/-- A whole number of 64 bits. -/
def wholeNumber? (n : Int) : Option Toml :=
  if fitsInt64 n then some (.int n) else none

/-- A number in another base, after `0` and the letter of the base. -/
def based? (base : Nat) (isDigit : Char → Bool) (s : List Char) : Option (Toml × List Char) := do
  let (ds, s) ← groupedDigits? isDigit s
  return (← wholeNumber? (natOf base ds), s)

/-- The digits before a point: a zero alone, or digits that do not begin with one. -/
def unsigned? (s : List Char) : Option (List Char × List Char) :=
  match s with
  | '0' :: s => some (['0'], s)
  | s => groupedDigits? Char.isDigit s

/-- The digits after a point, if there is a point. -/
def fraction? : List Char → Option (Option (List Char) × List Char)
  | '.' :: s => (groupedDigits? Char.isDigit s).map fun (ds, s) => (some ds, s)
  | s => some (none, s)

/-- An exponent, if there is one. -/
def exponent? : List Char → Option (Option Int × List Char)
  | c :: s =>
    if c = 'e' ∨ c = 'E' then
      let (negative, s) := spanSign s
      (groupedDigits? Char.isDigit s).map fun (ds, s) => (some (signed negative (natOf 10 ds)), s)
    else some (none, c :: s)
  | [] => some (none, [])

/-- A double; one above all doubles is refused. -/
def double? (negative : Bool) (ds fraction : List Char) (exponent : Int) : Option Toml :=
  let x := nearest (natOf 10 (ds ++ fraction)) (exponent - fraction.length)
  if x.isInf && !negative then none else some (.float (if negative then -x else x))

/-- A decimal number with an optional sign, or a word for what is no finite number. -/
def decimal? (s : List Char) : Option (Toml × List Char) := do
  let (negative, s) := spanSign s
  match s with
  | 'i' :: 'n' :: 'f' :: s => return (.float (if negative then -(1 / 0) else 1 / 0), s)
  | 'n' :: 'a' :: 'n' :: s => return (.float (0 / 0), s)
  | s =>
    let (ds, s) ← unsigned? s
    let (fraction, s) ← fraction? s
    let (exponent, s) ← exponent? s
    match fraction, exponent with
    | none, none => return (← wholeNumber? (signed negative (natOf 10 ds)), s)
    | _, _ => return (← double? negative ds (fraction.getD []) (exponent.getD 0), s)

/-- A number. -/
def number? : List Char → Option (Toml × List Char)
  | '0' :: 'x' :: s => based? 16 isHexDigit s
  | '0' :: 'o' :: s => based? 8 (fun c => '0' ≤ c && c ≤ '7') s
  | '0' :: 'b' :: s => based? 2 (fun c => c == '0' || c == '1') s
  | s => decimal? s

/-- A value that holds no others. -/
def scalarValue? (s : List Char) : Option (Toml × List Char) :=
  match s with
  | 't' :: 'r' :: 'u' :: 'e' :: s => some (.bool true, s)
  | 'f' :: 'a' :: 'l' :: 's' :: 'e' :: s => some (.bool false, s)
  | c :: _ =>
    if c = '"' ∨ c = '\'' then (text? s).map fun (cs, s) => (.string (String.ofList cs), s)
    else if beginsMoment s then dateTime? s
    else number? s
  | [] => none

/-! ### Values -/

/-- The table in braces with these lines. -/
def inlineTable? (pairs : List (List String × Toml)) : Option Toml :=
  pairs.foldlM (fun t (path, value) =>
    match t with
    | .table origin entries => assign path value origin entries
    | _ => none) (.table .inline [])

mutual

/-- A value; `room` is how many arrays and tables in braces may still stand inside each other. -/
def value? (room : Nat) : Nat → List Char → Option (Toml × List Char)
  | 0, _ => none
  | fuel + 1, s =>
    match s with
    | '[' :: s =>
      if room = 0 then none
      else (items? (room - 1) fuel s).map fun (items, s) => (.array items, s)
    | '{' :: s =>
      if room = 0 then none
      else
        match skipBlank s with
        | '}' :: s => some (.table .inline [], s)
        | s => do
          let (pairs, s) ← pairs? (room - 1) fuel s
          return (← inlineTable? pairs, s)
    | s => scalarValue? s

/-- The items of an array after its bracket or after a comma; a comma may stand after the last. -/
def items? (room : Nat) : Nat → List Char → Option (List Toml × List Char)
  | 0, _ => none
  | fuel + 1, s =>
    match skipTrivia (fuel + 1) s with
    | ']' :: s => some ([], s)
    | s => do
      let (item, s) ← value? room fuel s
      match skipTrivia (fuel + 1) s with
      | ',' :: s =>
        let (items, s) ← items? room fuel s
        return (item :: items, s)
      | ']' :: s => return ([item], s)
      | _ => none

/-- The pairs of a table in braces; there is at least one, and no comma after the last. -/
def pairs? (room : Nat) : Nat → List Char → Option (List (List String × Toml) × List Char)
  | 0, _ => none
  | fuel + 1, s => do
    let (path, s) ← keyPath? s
    match s with
    | '=' :: s =>
      let (value, s) ← value? room fuel (skipBlank s)
      match skipBlank s with
      | ',' :: s =>
        let (pairs, s) ← pairs? room fuel s
        return ((path, value) :: pairs, s)
      | '}' :: s => return ([(path, value)], s)
      | _ => none
    | _ => none

end

/-! ### Documents -/

/-- A key with its value. -/
def assignment? (s : List Char) : Option (Line × List Char) := do
  let (path, s) ← keyPath? s
  match s with
  | '=' :: s =>
    let s := skipBlank s
    let (value, s) ← value? nestingLimit (2 * s.length + 2) s
    return (.assign path value, s)
  | _ => none

/-- A header, or a key with its value. -/
def line? : List Char → Option (Line × List Char)
  | '[' :: '[' :: s => do
    let (path, s) ← keyPath? s
    match s with
    | ']' :: ']' :: s => some (.tables path, s)
    | _ => none
  | '[' :: s => do
    let (path, s) ← keyPath? s
    match s with
    | ']' :: s => some (.table path, s)
    | _ => none
  | s => assignment? s

/-- The lines of a document that say something. -/
def lines? : Nat → List Char → Option (List Line)
  | 0, _ => none
  | fuel + 1, s =>
    match skipTrivia (fuel + 1) s with
    | [] => some []
    | s => do
      let (line, s) ← line? s
      let s ← lineEnd? s
      return line :: (← lines? fuel s)

/-- The table that a document describes. A byte order mark may stand at its start. -/
def read? (text : String) : Option (List Entry) := do
  let s := match text.toList with
    | '\uFEFF' :: s => s
    | s => s
  ofLines? (← lines? (s.length + 1) s)

end SqlQuery.Toml
