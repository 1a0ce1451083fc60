import SqlQuery.Number.Digits
import SqlQuery.Number.Shortest

/-!
# The text of a double

* `FloatStyle` — what a format decides: ties, which exponents are written positionally, whether a
  whole number keeps a fraction digit, and the texts of what is not finite;
* `FloatStyle.plain` — the style of values shown to people, `FloatStyle.json` — the style of JSON;
* `FloatStyle.text` — a double in a style.
-/

namespace SqlQuery.Number

/-- The decisions of a format for doubles. -/
structure FloatStyle where
  tie : Tie
  /-- Least and greatest decimal exponent written without an exponent part; all if none are given. -/
  positional : Option (Int × Int)
  /-- A whole number is written with `.0`. -/
  keepFraction : Bool
  nan : String
  infinity : String
  negInfinity : String

namespace FloatStyle

/-- Never an exponent, and no fraction on a whole number. -/
def plain : FloatStyle :=
  { tie := .up, positional := none, keepFraction := false, nan := "NaN", infinity := "inf"
    negInfinity := "-inf" }

/-- Positional from `10^-5` to below `10^16`, then with a signed exponent; what is not finite has no
number, and is `null`. -/
def json : FloatStyle :=
  { tie := .even, positional := some (-5, 15), keepFraction := true, nan := "null"
    infinity := "null", negInfinity := "null" }

/-- Digits with the decimal point where the exponent puts it. -/
def positionalText (style : FloatStyle) (d : Decimal) : List Char :=
  let ds := digits d.digits
  let point : Int := ds.length + d.exponent
  if 0 ≤ d.exponent then
    ds ++ List.replicate d.exponent.toNat '0' ++ (if style.keepFraction then ['.', '0'] else [])
  else if 0 < point then ds.take point.toNat ++ '.' :: ds.drop point.toNat
  else '0' :: '.' :: List.replicate (-point).toNat '0' ++ ds

/-- One digit, the others after a point, and the exponent with its sign. -/
def scientificText (d : Decimal) : List Char :=
  let ds := digits d.digits
  let e : Int := ds.length + d.exponent - 1
  let fraction := if ds.length = 1 then [] else '.' :: ds.drop 1
  ds.take 1 ++ fraction ++ 'e' :: (if e < 0 then '-' else '+') :: digits e.natAbs

/-- A magnitude in the style. -/
def magnitude (style : FloatStyle) (d : Decimal) : List Char :=
  let e : Int := (digits d.digits).length + d.exponent - 1
  match style.positional with
  | none => style.positionalText d
  | some (low, high) =>
    if low ≤ e ∧ e ≤ high then style.positionalText d else scientificText d

/-- A double in the style. -/
def text (style : FloatStyle) (x : Float) : String :=
  let negative := x.toBits ≥ 0x8000000000000000
  match Binary.ofBits x.toBits with
  | none =>
    if x.isNaN then style.nan else if negative then style.negInfinity else style.infinity
  | some b =>
    let m := style.magnitude (b.shortest style.tie)
    String.ofList (if negative then '-' :: m else m)

end FloatStyle

end SqlQuery.Number
