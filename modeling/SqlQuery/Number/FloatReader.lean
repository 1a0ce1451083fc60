import SqlQuery.Number.Digits

/-!
# Reading decimals as doubles

* `nearest` — the double nearest to `digits · 10^exponent`, an infinity where there is none;
* `Significand` — the digits of a decimal that fit sixty-four bits, and the power of ten that the
  others stand for;
* `Significand.toFloat?` — the value by one multiplication or division with a power of ten (two
  divisions where one power would not be finite); it may miss the nearest double by one, and a value
  that is too large is refused;
* `floatText?` — the text of a double: digits with a point and an exponent, or a word for what is
  not finite.
-/

namespace SqlQuery.Number

/-- The double nearest to `n · 10^exponent`. The exponents at which the answer is known are not
computed. -/
def nearest (n : Nat) (exponent : Int) : Float :=
  let size : Int := (digits n).length + exponent
  if n = 0 ∨ size < -400 then 0
  else if 400 < size then 1 / 0
  else Float.ofScientific n (exponent < 0) exponent.natAbs

/-- The double nearest to a power of ten. -/
def powerOfTen (k : Nat) : Float :=
  Float.ofScientific 1 false k

/-! ### Significands of sixty-four bits -/

/-- The number `value · 10^exponent`, the value below `2^64`. -/
structure Significand where
  value : Nat := 0
  exponent : Int := 0

namespace Significand

/-- Appends digits as long as they fit: the value, and how many digits are left over. -/
def fill (n : Nat) : List Char → Nat × Nat
  | [] => (n, 0)
  | c :: cs =>
    let next := n * 10 + digitValue c
    if next < UInt64.size then fill next cs else (n, cs.length + 1)

/-- The digits before the point: each that is left over counts ten. -/
def whole (ds : List Char) : Significand :=
  let (value, left) := fill 0 ds
  { value, exponent := left }

/-- The digits after the point: those left over are dropped. -/
def fraction (s : Significand) (ds : List Char) : Significand :=
  let (value, left) := fill s.value ds
  { value, exponent := s.exponent - (ds.length - left : Nat) }

/-- The double, by one rounding for each step of scaling. -/
def toFloat? (s : Significand) : Option Float :=
  let x := s.value.toUInt64.toFloat
  let e := s.exponent
  if 308 < e then if s.value = 0 then some 0 else none
  else if 0 ≤ e then
    let y := x * powerOfTen e.toNat
    if y.isInf then none else some y
  else if -308 ≤ e then some (x / powerOfTen (-e).toNat)
  else if -616 ≤ e then some (x / powerOfTen 308 / powerOfTen (-e - 308).toNat)
  else some 0

end Significand

/-! ### Words and numerals -/

/-- Digits with at most one point among them, of which at least one is a digit. -/
def mantissa? (s : List Char) : Option ((List Char × List Char) × List Char) :=
  let (whole, rest) := spanDigits s
  let (fraction, rest) :=
    match rest with
    | '.' :: rest => spanDigits rest
    | rest => ([], rest)
  if whole = [] ∧ fraction = [] then none else some ((whole, fraction), rest)

/-- An exponent part that ends the text, or no text. -/
def exponentPart? : List Char → Option Int
  | [] => some 0
  | c :: cs => if c = 'e' ∨ c = 'E' then integer? cs else none

/-- The text read as a double: an optional sign, then `inf`, `infinity` or `nan` in any case, or
digits with an optional point and an optional exponent. -/
def floatText? (s : List Char) : Option Float := do
  let (negative, s) := spanSign s
  let word := String.ofList (s.map Char.toLower)
  let x ←
    if word = "inf" ∨ word = "infinity" then some (1 / 0)
    else if word = "nan" then some (0 / 0)
    else do
      let ((whole, fraction), rest) ← mantissa? s
      let exponent ← exponentPart? rest
      some (nearest (natOf 10 (whole ++ fraction)) (exponent - fraction.length))
  return if negative then -x else x

end SqlQuery.Number
