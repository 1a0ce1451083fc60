import Mathlib.Data.Int.Cast.Lemmas
import SqlQuery.Proofs.Lexical.Digits
import SqlQuery.Proofs.Number.Double

/-!
# The double of an integer

An integer of more than 53 binary digits becomes the nearest number that has no more, and of two such numbers the
one whose significand is even. The digits that do not fit are shifted out one by one; two bits remember what they were.

* `evenQuotient`, `roundedMantissa_shiftRight` — the nearest integer to a quotient, and that shifting finds it;
* `doubleNear` — the nearest number of 53 digits;
* `doubleNear_nearest`, `doubleNear_eq_iff` — no double is nearer, and when the number is the integer itself;
* `IsDouble`, `RoundsTo`, `roundsTo_nearest` — **the double of a long integer**.
-/

namespace SqlQuery.Number

open Float.Model (Format totalExponent UnpackedFloat)
open Float.Model.UnpackedFloat

/-! ### Quotients -/

/-- The integer nearest to `n / 2 ^ k`, of two the even one. -/
def evenQuotient (n k : Nat) : Nat :=
  if 2 * (n % 2 ^ k) < 2 ^ k then n / 2 ^ k
  else if 2 * (n % 2 ^ k) = 2 ^ k then n / 2 ^ k + n / 2 ^ k % 2
  else n / 2 ^ k + 1

/-- Zeros at the end of both do not count. -/
theorem evenQuotient_scaled (n k j : Nat) : evenQuotient (n * 2 ^ j) (k + j) = evenQuotient n k := by
  have hpos : 0 < 2 ^ j := Nat.two_pow_pos j
  have hrest : 2 * (n % 2 ^ k * 2 ^ j) = 2 * (n % 2 ^ k) * 2 ^ j := (Nat.mul_assoc ..).symm
  simp only [evenQuotient, Nat.pow_add, Nat.mul_mod_mul_right, Nat.mul_div_mul_right _ _ hpos, hrest,
    Nat.mul_lt_mul_right hpos, Nat.mul_left_inj hpos.ne']

theorem evenQuotient_cases (n k : Nat) :
    evenQuotient n k = n / 2 ^ k ∧ 2 * (n % 2 ^ k) ≤ 2 ^ k ∨
      evenQuotient n k = n / 2 ^ k + 1 ∧ 2 ^ k ≤ 2 * (n % 2 ^ k) := by
  unfold evenQuotient
  split
  · left
    omega
  · split <;> omega

theorem evenQuotient_of_dvd {n k : Nat} (h : 2 ^ k ∣ n) : evenQuotient n k * 2 ^ k = n := by
  obtain ⟨q, rfl⟩ := h
  rw [evenQuotient, Nat.mul_mod_right, if_pos (Nat.two_pow_pos k), Nat.mul_div_cancel_left _ (Nat.two_pow_pos k),
    Nat.mul_comm]

/-- No multiple of `2 ^ k` is nearer. -/
theorem evenQuotient_nearest (n k j : Nat) :
    |((evenQuotient n k * 2 ^ k : Nat) : Int) - n| ≤ |((j * 2 ^ k : Nat) : Int) - n| := by
  have hn : 2 ^ k * (n / 2 ^ k) + n % 2 ^ k = n := Nat.div_add_mod n (2 ^ k)
  have hlt : n % 2 ^ k < 2 ^ k := Nat.mod_lt _ (Nat.two_pow_pos k)
  have hsucc : (n / 2 ^ k + 1) * 2 ^ k = 2 ^ k * (n / 2 ^ k) + 2 ^ k := by
    rw [Nat.add_one_mul, Nat.mul_comm]
  have hfar : j * 2 ^ k ≤ 2 ^ k * (n / 2 ^ k) ∨ 2 ^ k * (n / 2 ^ k) + 2 ^ k ≤ j * 2 ^ k := by
    rcases Nat.lt_or_ge (n / 2 ^ k) j with h | h
    · exact .inr (hsucc ▸ Nat.mul_le_mul_right _ h)
    · exact .inl (Nat.mul_comm j _ ▸ Nat.mul_le_mul_left _ h)
  rw [Int.abs_eq_natAbs, Int.abs_eq_natAbs]
  rcases evenQuotient_cases n k with ⟨h, hhalf⟩ | ⟨h, hhalf⟩
  · rw [h, Nat.mul_comm (n / 2 ^ k)]
    omega
  · rw [h, hsucc]
    omega

/-! ### Shifting -/

/-- What is left of a number without its last `k` bits: the quotient, the bit behind it, and whether any other bit
was set. -/
theorem shiftRight_eq (m k : Nat) : ExtendedMantissa.mk m false false >>> k =
    ⟨m / 2 ^ k, decide (2 ^ k ≤ 2 * (m % 2 ^ k)), decide (2 * (m % 2 ^ k) % 2 ^ k ≠ 0)⟩ := by
  induction k with
  | zero =>
    change ExtendedMantissa.mk m false false = _
    simp [Nat.mod_one]
  | succ k ih =>
    have hlt : m % 2 ^ k < 2 ^ k := Nat.mod_lt _ (Nat.two_pow_pos k)
    have hdiv : m / 2 ^ k / 2 = m / 2 ^ (k + 1) := by rw [Nat.div_div_eq_div_mul, Nat.pow_succ]
    have hbit : m / 2 ^ k % 2 ≠ 0 ↔ 2 ^ (k + 1) ≤ 2 * (m % 2 ^ (k + 1)) := by
      rw [Nat.mod_pow_succ, Nat.pow_succ]
      rcases Nat.mod_two_eq_zero_or_one (m / 2 ^ k) with h | h <;> rw [h] <;> omega
    have hdouble : 2 * (m % 2 ^ (k + 1)) % 2 ^ (k + 1) = 2 * (m % 2 ^ k) := by
      rw [Nat.pow_succ, Nat.mul_comm (2 ^ k) 2, Nat.mul_mod_mul_left, Nat.mod_mul_left_mod]
    have hrest : 2 ^ k ≤ 2 * (m % 2 ^ k) ∨ 2 * (m % 2 ^ k) % 2 ^ k ≠ 0 ↔ 2 * (m % 2 ^ k) ≠ 0 := by
      rcases Nat.lt_or_ge (2 * (m % 2 ^ k)) (2 ^ k) with h | h
      · rw [Nat.mod_eq_of_lt h]
        omega
      · omega
    change (ExtendedMantissa.mk m false false >>> k).shiftRightOne = _
    rw [ih]
    simp only [ExtendedMantissa.shiftRightOne, ExtendedMantissa.mk.injEq]
    refine ⟨hdiv, ?_, ?_⟩
    · rw [Bool.eq_iff_iff, bne_iff_ne, decide_eq_true_iff, hbit]
    · rw [Bool.eq_iff_iff, Bool.or_eq_true, decide_eq_true_iff, decide_eq_true_iff, decide_eq_true_iff, hdouble,
        hrest]

/-- Rounding what was shifted gives the nearest integer. -/
theorem roundedMantissa_shiftRight (m k : Nat) :
    (ExtendedMantissa.mk m false false >>> k).roundedMantissa = evenQuotient m k := by
  have hlt : m % 2 ^ k < 2 ^ k := Nat.mod_lt _ (Nat.two_pow_pos k)
  rw [shiftRight_eq, evenQuotient]
  by_cases hlow : 2 * (m % 2 ^ k) < 2 ^ k
  · rw [if_pos hlow, decide_eq_false (Nat.not_le.2 hlow)]
    cases decide (2 * (m % 2 ^ k) % 2 ^ k ≠ 0) <;> rfl
  · rw [if_neg hlow, decide_eq_true (Nat.le_of_not_lt hlow)]
    have hrest : 2 * (m % 2 ^ k) % 2 ^ k = 2 * (m % 2 ^ k) - 2 ^ k := by
      rw [Nat.mod_eq_sub_mod (Nat.le_of_not_lt hlow), Nat.mod_eq_of_lt (by omega)]
    by_cases htie : 2 * (m % 2 ^ k) = 2 ^ k
    · rw [if_pos htie, decide_eq_false (by omega)]
      rfl
    · rw [if_neg htie, decide_eq_true (by omega)]
      rfl

theorem shiftToTargetExponent_eq {m k : Nat} {e : Int} (he : -1074 ≤ e + k) (h : m.log2 = 52 + k) :
    shiftToTargetExponent Format.binary64 m e .exact = (ExtendedMantissa.mk m false false >>> k, e + k) := by
  have htarget : Format.binary64.targetExponent (totalExponent m e) = e + k := by
    change max ((m.log2 : Int) + 1 + e - 53) (-1074) = e + k
    omega
  have hshift : (e + k - e).toNat = k := by omega
  rw [shiftToTargetExponent, htarget, shiftToExponent, hshift]
  rfl

/-! ### Rounding to 53 digits -/

/-- The number of 53 binary digits that is nearest to `n`, of two the one with the even significand. -/
def doubleNear (n : Nat) : Nat :=
  evenQuotient n (n.log2 - 52) * 2 ^ (n.log2 - 52)

theorem le_log2 {n : Nat} (h : 2 ^ 53 ≤ n) : 53 ≤ n.log2 :=
  (Nat.le_log2 (by omega)).2 h

/-- Rounding up may carry, and then the significand is the least number of 54 digits. -/
theorem evenQuotient_log2 {n : Nat} (h : 2 ^ 53 ≤ n) :
    IsSignificand (evenQuotient n (n.log2 - 52)) ∨ evenQuotient n (n.log2 - 52) = 2 ^ 53 := by
  have hlow : 2 ^ n.log2 ≤ n := Nat.log2_self_le (by omega)
  have hhigh : n < 2 ^ (n.log2 + 1) := Nat.lt_log2_self
  obtain ⟨k, hk⟩ := Nat.exists_eq_add_of_le (Nat.le_trans (by decide : 52 ≤ 53) (le_log2 h))
  rw [hk, Nat.add_sub_cancel_left]
  rw [hk, Nat.pow_add] at hlow
  rw [hk, Nat.add_right_comm, Nat.pow_add] at hhigh
  have hquotient : 2 ^ 52 ≤ n / 2 ^ k := (Nat.le_div_iff_mul_le (Nat.two_pow_pos k)).2 hlow
  have hquotient' : n / 2 ^ k < 2 ^ 53 := (Nat.div_lt_iff_lt_mul (Nat.two_pow_pos k)).2 hhigh
  rcases evenQuotient_cases n k with ⟨heq, -⟩ | ⟨heq, -⟩ <;> rw [heq]
  · exact .inl ⟨hquotient, hquotient'⟩
  · rcases Nat.lt_or_ge (n / 2 ^ k + 1) (2 ^ 53) with hlt | hge
    · exact .inl ⟨by omega, hlt⟩
    · exact .inr (by omega)

theorem log2_mul_two_pow {n : Nat} (h : n ≠ 0) (j : Nat) : (n * 2 ^ j).log2 = n.log2 + j := by
  induction j with
  | zero => rw [Nat.pow_zero, Nat.mul_one, Nat.add_zero]
  | succ j ih =>
    have hpos : n * 2 ^ j ≠ 0 := Nat.mul_ne_zero h (Nat.two_pow_pos j).ne'
    rw [Nat.pow_succ, ← Nat.mul_assoc, Nat.mul_comm _ 2, Nat.log2_two_mul hpos, ih, Nat.add_assoc]

/-- **Rounding** gives the nearest number of 53 digits. It is given a number with 53 zeros behind it, which are
shifted out again. -/
theorem roundWithAccuracy_eq (sign : Sign) {n : Nat} (h : 2 ^ 53 ≤ n) : ∃ (m e : Nat) (hm : IsSignificand m),
    n.log2 ≤ e + 52 ∧ doubleNear n = m * 2 ^ e ∧
      roundWithAccuracy Format.binary64 sign (n * 2 ^ 53) (-53) .exact = .finite sign m e hm.pos := by
  have hlog : 53 ≤ n.log2 := le_log2 h
  have hscaled : (n * 2 ^ 53).log2 = 52 + (n.log2 + 1) := by
    rw [log2_mul_two_pow (by omega)]
    omega
  have hexponent : (-53 : Int) + ((n.log2 + 1 : Nat) : Int) = ((n.log2 - 52 : Nat) : Int) := by omega
  have hshift : n.log2 + 1 = n.log2 - 52 + 53 := by omega
  unfold roundWithAccuracy
  rw [shiftToTargetExponent_eq (by omega) hscaled]
  dsimp only
  rw [roundedMantissa_shiftRight, hexponent, hshift, evenQuotient_scaled]
  rcases evenQuotient_log2 h with hm | hcarry
  · rw [shiftToTargetExponent_eq (k := 0) (by omega) hm.log2]
    exact ⟨_, n.log2 - 52, hm, by omega, rfl, dif_neg hm.pos.ne'⟩
  · have hdigits : (2 ^ 53 : Nat).log2 = 52 + 1 := Nat.log2_two_pow
    have hnear : doubleNear n = 2 ^ 52 * 2 ^ (n.log2 - 52 + 1) := by
      rw [doubleNear, hcarry, ← Nat.pow_add, ← Nat.pow_add]
      congr 1
      omega
    rw [hcarry, shiftToTargetExponent_eq (by omega) hdigits]
    exact ⟨2 ^ 52, n.log2 - 52 + 1, ⟨le_rfl, by decide⟩, by omega, hnear, rfl⟩

/-- **No double is nearer.** Below the first power of two the numbers of 53 digits lie closer, but are farther away
than that power; above it they are all multiples of the last digit. -/
theorem doubleNear_nearest {n : Nat} (h : 2 ^ 53 ≤ n) {q : ℚ} (hq : IsShort q) :
    |(doubleNear n : ℚ) - n| ≤ |q - n| := by
  have hlog : 53 ≤ n.log2 := le_log2 h
  have hmultiple (j : Nat) : |(doubleNear n : ℚ) - n| ≤ |((j * 2 ^ (n.log2 - 52) : Nat) : ℚ) - n| := by
    exact_mod_cast evenQuotient_nearest n (n.log2 - 52) j
  rcases lt_or_ge q (2 ^ n.log2) with hlow | hhigh
  · have hself : (2 : ℚ) ^ n.log2 ≤ n := by exact_mod_cast Nat.log2_self_le (by omega)
    have hpow : ((2 ^ 52 * 2 ^ (n.log2 - 52) : Nat) : ℚ) = 2 ^ n.log2 := by
      rw [← Nat.pow_add, Nat.add_sub_of_le (by omega)]
      norm_cast
    calc |(doubleNear n : ℚ) - n| ≤ |2 ^ n.log2 - (n : ℚ)| := hpow ▸ hmultiple (2 ^ 52)
      _ ≤ |q - n| := abs_le_abs_of_nonpos (sub_nonpos.2 hself) (sub_le_sub_right hlow.le _)
  · obtain ⟨m, e, hm, rfl⟩ := hq
    have hpow (k : Int) : (0 : ℚ) < 2 ^ k := zpow_pos (by norm_num) k
    have hsign : (0 : ℚ) < m :=
      (mul_pos_iff_of_pos_right (hpow e)).1 ((pow_pos (by norm_num) n.log2).trans_le hhigh)
    have hlt : (m : ℚ) < 2 ^ (53 : Int) := by exact_mod_cast (abs_lt.1 hm).2
    have hexponent : ((n.log2 - 52 : Nat) : Int) ≤ e := by
      by_contra hnot
      have hless : (m : ℚ) * 2 ^ e < 2 ^ n.log2 := by
        calc (m : ℚ) * 2 ^ e < 2 ^ (53 : Int) * 2 ^ e := mul_lt_mul_of_pos_right hlt (hpow e)
          _ = 2 ^ (53 + e) := (zpow_add₀ (by norm_num) 53 e).symm
          _ ≤ 2 ^ (n.log2 : Int) := zpow_le_zpow_right₀ (by norm_num) (by omega)
          _ = 2 ^ n.log2 := zpow_natCast 2 n.log2
      exact absurd hhigh (not_le.2 hless)
    obtain ⟨j, rfl⟩ := Int.le.dest hexponent
    obtain ⟨d, rfl⟩ := Int.eq_ofNat_of_zero_le (Int.cast_pos.1 hsign).le
    have hvalue : ((d : Int) : ℚ) * 2 ^ (((n.log2 - 52 : Nat) : Int) + j) =
        ((d * 2 ^ j * 2 ^ (n.log2 - 52) : Nat) : ℚ) := by
      rw [zpow_add₀ (by norm_num), zpow_natCast, zpow_natCast, mul_comm (2 ^ _), ← mul_assoc]
      norm_cast
    rw [hvalue]
    exact hmultiple (d * 2 ^ j)

/-- A number is its own nearest one when 53 binary digits and zeros behind them write it. -/
theorem doubleNear_eq_iff {n : Nat} (h : 2 ^ 53 ≤ n) :
    doubleNear n = n ↔ ∃ m k : Nat, m < 2 ^ 53 ∧ n = m * 2 ^ k := by
  constructor
  · intro hself
    obtain ⟨m, e, hm, -, hnear, -⟩ := roundWithAccuracy_eq .positive h
    exact ⟨m, e, hm.high, hself ▸ hnear⟩
  · rintro ⟨m, k, hm, hn⟩
    have hlt : n < 2 ^ (53 + k) := by
      rw [hn, Nat.pow_add]
      exact Nat.mul_lt_mul_of_pos_right hm (Nat.two_pow_pos k)
    have hlog : n.log2 < 53 + k := (Nat.log2_lt (by omega)).2 hlt
    have hdvd : 2 ^ (n.log2 - 52) ∣ n := by
      calc 2 ^ (n.log2 - 52) ∣ 2 ^ k := Nat.pow_dvd_pow 2 (by omega)
        _ ∣ m * 2 ^ k := Nat.dvd_mul_left _ _
        _ = n := hn.symm
    exact evenQuotient_of_dvd hdvd

/-! ### The double that is read -/

theorem toModel_nearest {n : Nat} (h : 2 ^ 53 ≤ n) (hdigits : (digits n).length ≤ 400) :
    (nearest n 0).toModel = .pack (roundWithAccuracy Format.binary64 .positive (n * 2 ^ 53) (-53) .exact) := by
  have hpos : 0 < n := by omega
  have hsmall : ¬ (n = 0 ∨ ((digits n).length : Int) + 0 < -400) := by omega
  have hlarge : ¬ 400 < ((digits n).length : Int) + 0 := by omega
  have hslow : ¬ (n < 2 ^ 53 ∧ (0 : Int).natAbs ≤ 22) := by omega
  have hlow : ¬ (0 : Int) < -((2 ^ Format.binary64.exponentBits : Int) + n.log2) := by
    change ¬ (0 : Int) < -(2048 + n.log2)
    omega
  unfold nearest
  dsimp only
  rw [if_neg hsmall, if_neg hlarge, Float.ofScientific, dif_neg hslow]
  change Float.Model.ofScientific n 0 = _
  rw [Float.Model.ofScientific, ofScientific, dif_neg hpos.ne', if_neg (by decide), if_neg hlow, if_pos le_rfl]
  change Float.Model.pack (roundWithAccuracy Format.binary64 .positive (n <<< 53 * 1) (-53) .exact) = _
  rw [Nat.shiftLeft_eq, Nat.mul_one]

theorem nearest_of_lt_length {n : Nat} (hdigits : 400 < (digits n).length) : nearest n 0 = 1 / 0 := by
  have hsmall : ¬ (n = 0 ∨ ((digits n).length : Int) + 0 < -400) := by
    rintro (rfl | h)
    · exact absurd hdigits (by decide)
    · omega
  have hlarge : 400 < ((digits n).length : Int) + 0 := by omega
  unfold nearest
  dsimp only
  rw [if_neg hsmall, if_pos hlarge]

theorem le_log2_of_lt_length {n k : Nat} (hk : 0 < k) (h : k < (digits n).length) : 3 * k ≤ n.log2 := by
  have hlong : 10 ^ k ≤ n :=
    Nat.le_of_not_lt fun hlt => Nat.not_le.2 h ((Nat.length_toDigits_le_iff (by decide) hk).2 hlt)
  have hpos : 0 < 10 ^ k := Nat.pow_pos (by decide)
  rw [Nat.le_log2 (by omega), Nat.pow_mul]
  exact Nat.le_trans (Nat.pow_le_pow_left (by decide) k) hlong

/-- A number with very many digits is not computed, and would be an infinity. -/
theorem isPacked_nearest {n : Nat} (h : 2 ^ 53 ≤ n) : ∃ (m e : Nat) (hm : IsSignificand m),
    doubleNear n = m * 2 ^ e ∧ IsPacked (nearest n 0) .positive e hm := by
  obtain ⟨m, e, hm, hexponent, hnear, hround⟩ := roundWithAccuracy_eq .positive h
  refine ⟨m, e, hm, hnear, ?_⟩
  rcases Nat.lt_or_ge 400 (digits n).length with hlong | hshort
  · have hlog : 3 * 400 ≤ n.log2 := le_log2_of_lt_length (by decide) hlong
    rw [nearest_of_lt_length hlong]
    exact isPacked_infinity (by omega)
  · have hmodel : nearest n 0 = .ofModel (.pack (.finite .positive m e hm.pos)) := by
      rw [← hround, ← toModel_nearest h hshort]
    rw [hmodel]
    exact isPacked_ofModel_pack .positive e hm

/-- A double with a sign. -/
def signedFloat (negative : Bool) (x : Float) : Float :=
  if negative then -x else x

/-- An integer that is a double: 53 binary digits and zeros behind them write it, and the doubles have not ended. -/
def IsDouble (n : Int) : Prop :=
  (∃ m k : Nat, m < 2 ^ 53 ∧ n.natAbs = m * 2 ^ k) ∧ n.natAbs < doubleEnd

/-- The last digit of an odd number has to be kept. -/
theorem not_isDouble_of_odd {n : Int} (h : 2 ^ 53 ≤ n.natAbs) (hodd : n.natAbs % 2 = 1) : ¬ IsDouble n := by
  rintro ⟨⟨m, k, hm, hn⟩, -⟩
  cases k with
  | zero => omega
  | succ k =>
    rw [Nat.pow_succ, ← Nat.mul_assoc] at hn
    omega

/-- The double that stands for an integer of more than 53 digits. -/
structure RoundsTo (n : Int) (x : Float) : Prop where
  value : exactValue? x =
    if doubleNear n.natAbs < doubleEnd then some ((n.sign * doubleNear n.natAbs : Int) : ℚ) else none
  nearest : ∀ v, exactValue? x = some v → ∀ y q, exactValue? y = some q → |v - n| ≤ |q - n|
  exact : exactValue? x = some (n : ℚ) ↔ IsDouble n

theorem exactValue?_nearest (negative : Bool) {n : Nat} (h : 2 ^ 53 ≤ n) :
    exactValue? (signedFloat negative (nearest n 0)) =
      if doubleNear n < doubleEnd then some ((signed negative (doubleNear n) : Int) : ℚ) else none := by
  obtain ⟨m, e, hm, hnear, hpacked⟩ := isPacked_nearest h
  rw [hnear]
  cases negative with
  | false => exact hpacked.exactValue?
  | true => exact hpacked.neg.exactValue?

theorem natAbs_signed (negative : Bool) (n : Nat) : (signed negative n).natAbs = n := by
  cases negative with
  | false => rfl
  | true => exact Int.natAbs_neg n

theorem sign_signed_mul (negative : Bool) {n : Nat} (h : 0 < n) (d : Nat) :
    (signed negative n).sign * d = signed negative d := by
  have hsign : (n : Int).sign = 1 := Int.sign_natCast_of_ne_zero h.ne'
  cases negative with
  | false =>
    change (n : Int).sign * d = d
    rw [hsign, one_mul]
  | true =>
    change (-(n : Int)).sign * d = -d
    rw [Int.sign_neg, hsign, neg_one_mul]

/-- Numbers lie around a negative number as the opposite ones around the positive. -/
theorem signed_nearest (negative : Bool) {n : Nat} (h : 2 ^ 53 ≤ n) {q : ℚ} (hq : IsShort q) :
    |((signed negative (doubleNear n) : Int) : ℚ) - (signed negative n : Int)| ≤ |q - (signed negative n : Int)| := by
  cases negative with
  | false =>
    change |((doubleNear n : Int) : ℚ) - (n : Int)| ≤ |q - (n : Int)|
    rw [Int.cast_natCast, Int.cast_natCast]
    exact doubleNear_nearest h hq
  | true =>
    have hleft : ((-(doubleNear n : Int) : Int) : ℚ) - (-(n : Int) : Int) = -((doubleNear n : ℚ) - n) := by
      push_cast
      rw [sub_neg_eq_add, neg_sub', sub_neg_eq_add]
    have hright : q - ((-(n : Int) : Int) : ℚ) = -(-q - n) := by
      push_cast
      rw [sub_neg_eq_add, neg_sub', neg_neg, sub_neg_eq_add]
    change |((-(doubleNear n : Int) : Int) : ℚ) - (-(n : Int) : Int)| ≤ |q - (-(n : Int) : Int)|
    rw [hleft, hright, abs_neg, abs_neg]
    exact doubleNear_nearest h hq.neg

theorem signed_inj (negative : Bool) {n d : Nat} : signed negative d = signed negative n ↔ d = n := by
  cases negative with
  | false => exact Int.natCast_inj
  | true => exact neg_inj.trans Int.natCast_inj

/-- **The double of a long integer** is the nearest one, and no number where the doubles have ended. -/
theorem roundsTo_nearest (negative : Bool) {n : Nat} (h : 2 ^ 53 ≤ n) :
    RoundsTo (signed negative n) (signedFloat negative (nearest n 0)) where
  value := by rw [natAbs_signed, sign_signed_mul negative (by omega), exactValue?_nearest negative h]
  nearest v hv y q hy := by
    rw [exactValue?_nearest negative h, Option.ite_none_right_eq_some, Option.some_inj] at hv
    obtain ⟨-, rfl⟩ := hv
    exact signed_nearest negative h (isShort_of_exactValue? hy)
  exact := by
    rw [exactValue?_nearest negative h, Option.ite_none_right_eq_some, Option.some_inj, Int.cast_inj, IsDouble,
      natAbs_signed, signed_inj, ← doubleNear_eq_iff h]
    constructor
    · rintro ⟨hlt, hself⟩
      exact ⟨hself, hself ▸ hlt⟩
    · rintro ⟨hself, hlt⟩
      exact ⟨hself.symm ▸ hlt, hself⟩

end SqlQuery.Number
