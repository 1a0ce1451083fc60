/-!
# Digits

* `natOf base ds` — the number that a list of digits spells; `digits n` — the decimal digits of `n`;
* `spanDigits` — the digits at the start of a text and what follows them;
* `padded width n` — the digits of `n` with zeros in front up to a width;
* `integer?` — an optional sign and digits.
-/

namespace SqlQuery.Number

/-- The value of a digit in a base up to sixteen; letters of either case. -/
def digitValue (c : Char) : Nat :=
  if c.isDigit then c.toNat - '0'.toNat
  else if 'a' ≤ c ∧ c ≤ 'f' then c.toNat - 'a'.toNat + 10
  else if 'A' ≤ c ∧ c ≤ 'F' then c.toNat - 'A'.toNat + 10
  else 0

/-- A digit of base sixteen. -/
def isHexDigit (c : Char) : Bool :=
  c.isDigit || ('a' ≤ c && c ≤ 'f') || ('A' ≤ c && c ≤ 'F')

/-- The number that digits spell, the most significant first. -/
def natOf (base : Nat) (ds : List Char) : Nat :=
  ds.foldl (fun n c => n * base + digitValue c) 0

theorem natOf_append_singleton (base : Nat) (ds : List Char) (c : Char) :
    natOf base (ds ++ [c]) = natOf base ds * base + digitValue c := by
  simp [natOf]

/-- The decimal digits of a number. -/
def digits (n : Nat) : List Char :=
  Nat.toDigits 10 n

/-- The decimal digits of a number with zeros in front up to `width`. -/
def padded (width n : Nat) : List Char :=
  (digits n).leftpad width '0'

/-- The digits at the start of a text, and the rest. -/
def spanDigits (s : List Char) : List Char × List Char :=
  (s.takeWhile Char.isDigit, s.dropWhile Char.isDigit)

theorem spanDigits_append (s : List Char) : (spanDigits s).1 ++ (spanDigits s).2 = s :=
  List.takeWhile_append_dropWhile

/-- A sign, if there is one, and the rest: `true` stands for `-`. -/
def spanSign : List Char → Bool × List Char
  | '-' :: cs => (true, cs)
  | '+' :: cs => (false, cs)
  | cs => (false, cs)

/-- The number `n` with a sign. -/
def signed (negative : Bool) (n : Nat) : Int :=
  if negative then -n else n

/-- The text read as one integer: an optional sign and at least one digit. -/
def integer? (s : List Char) : Option Int :=
  let (negative, ds) := spanSign s
  if ds ≠ [] ∧ ds.all Char.isDigit then some (signed negative (natOf 10 ds)) else none

/-! ### Sixty-four bits -/

/-- The least and the greatest integer of 64 bits. -/
def int64Min : Int := -0x8000000000000000

@[inherit_doc int64Min]
def int64Max : Int := 0x7FFFFFFFFFFFFFFF

/-- Whether an integer has 64 bits. -/
def fitsInt64 (n : Int) : Bool :=
  int64Min ≤ n && n ≤ int64Max

/-- The integer of 64 bits nearest to `n`. -/
def clampInt64 (n : Int) : Int :=
  max int64Min (min int64Max n)

theorem fitsInt64_iff {n : Int} :
    fitsInt64 n = true ↔ -9223372036854775808 ≤ n ∧ n ≤ 9223372036854775807 := by
  unfold fitsInt64
  rw [Bool.and_eq_true, decide_eq_true_iff, decide_eq_true_iff]
  rfl

theorem fitsInt64_clampInt64 (n : Int) : fitsInt64 (clampInt64 n) = true := by
  have h₁ : int64Min = -9223372036854775808 := rfl
  have h₂ : int64Max = 9223372036854775807 := rfl
  rw [fitsInt64_iff]
  simp only [clampInt64, h₁, h₂]
  omega

theorem clampInt64_of_fitsInt64 {n : Int} (h : fitsInt64 n = true) : clampInt64 n = n := by
  have h₁ : int64Min = -9223372036854775808 := rfl
  have h₂ : int64Max = 9223372036854775807 := rfl
  rw [fitsInt64_iff] at h
  simp only [clampInt64, h₁, h₂]
  omega

end SqlQuery.Number
