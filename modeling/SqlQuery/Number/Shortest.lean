/-!
# Shortest decimals of binary fractions

A finite double is `m · 2^q`, and the reals that round to it form an interval around it. `shortest`
finds the decimal with the fewest digits in that interval, and of those the nearest:

* `Binary` — `m` and `q`, with the width of the interval below; `Binary.ofBits` decodes sixty-four bits;
* `Binary.holds` — whether `c · 10^k` lies in the interval, in exact arithmetic on integers;
* `Binary.hit?` — the multiple of `10^k` in the interval that is nearest to the value, if there is one;
* `Binary.shortest` — the hit on the coarsest grid.

If a grid has a point in the interval, one of the two neighbours of the value on that grid lies in it, so
only those two are tried.
-/

namespace SqlQuery.Number

/-- The number `digits · 10^exponent`. -/
structure Decimal where
  digits : Nat
  exponent : Int
deriving DecidableEq

/-- The magnitude `m · 2^q` of a finite double. -/
structure Binary where
  m : Nat
  q : Int
  /-- The neighbour below is only half as far away as the one above. -/
  closeBelow : Bool

/-- Which of two decimals that are equally near is taken. -/
inductive Tie where
  | up
  | even
deriving DecidableEq

namespace Binary

/-- The leading bit of a significand, `2^52`, which normal doubles do not store. -/
def leadingBit : Nat := 0x10000000000000

/-- The magnitude of the double with these bits; nothing for infinities and for what is no number. -/
def ofBits (bits : UInt64) : Option Binary :=
  let field : Nat := bits.toNat / leadingBit % 2048
  let mantissa : Nat := bits.toNat % leadingBit
  if field = 2047 then none
  else if field = 0 then some ⟨mantissa, -1074, false⟩
  else some ⟨leadingBit + mantissa, (field : Int) - 1075, mantissa == 0 && 1 < field⟩

/-- The numbers `a · 2^e₂` and `b · 10^e₁₀`, made whole by one common factor. -/
def scaled (a : Nat) (e₂ : Int) (b : Nat) (e₁₀ : Int) : Nat × Nat :=
  (a * Nat.pow 2 e₂.toNat * Nat.pow 10 (-e₁₀).toNat,
    b * Nat.pow 10 e₁₀.toNat * Nat.pow 2 (-e₂).toNat)

/-- Whether `c · 10^k` rounds to the value: between the midpoints to the neighbours, which
themselves round to it when `m` is even. -/
def holds (b : Binary) (c : Nat) (k : Int) : Bool :=
  let (low, c₁) := scaled (4 * b.m - (if b.closeBelow then 1 else 2)) (b.q - 2) c k
  let (high, c₂) := scaled (4 * b.m + 2) (b.q - 2) c k
  if b.m % 2 = 0 then low ≤ c₁ && c₂ ≤ high else low < c₁ && c₂ < high

/-- The multiple of `10^k` nearest to the value, if it or its neighbour on the other side of the
value rounds to the value. -/
def hit? (tie : Tie) (b : Binary) (k : Int) : Option Decimal :=
  let (v, unit) := scaled b.m b.q 1 k
  let c := v / unit
  let rest := v % unit
  match b.holds c k, b.holds (c + 1) k with
  | false, false => none
  | true, false => some ⟨c, k⟩
  | false, true => some ⟨c + 1, k⟩
  | true, true =>
    if 2 * rest < unit then some ⟨c, k⟩
    else if unit < 2 * rest then some ⟨c + 1, k⟩
    else
      match tie with
      | .up => some ⟨c + 1, k⟩
      | .even => some ⟨if c % 2 = 0 then c else c + 1, k⟩

/-- The shortest decimal that rounds to the value. The grids are tried from the coarsest; every
double lies on one of those up to `10^-1074`, so the search does not fail on a magnitude above 0. -/
def shortest (tie : Tie) (b : Binary) : Decimal :=
  if b.m = 0 then ⟨0, 0⟩
  else ((List.range 1400).findSome? fun (i : Nat) => b.hit? tie (309 - (i : Int))).getD ⟨0, 0⟩

end Binary

end SqlQuery.Number
