import Mathlib.Algebra.Order.Field.Power
import Mathlib.Algebra.Order.Field.Rat
import SqlQuery.Number.FloatReader

/-!
# Doubles as numbers

A finite double is a sign, a significand of at most 53 binary digits and a power of two. Packing a number and
unpacking it again gives it back if its significand has all the 53 digits and its exponent is one that a double has.

* `exactValue?` — the number that a double is;
* `IsShort`, `isShort_of_exactValue?` — numbers of at most 53 binary digits, and that every double is one;
* `IsSignificand`, `doubleEnd` — significands of 53 digits, and where the doubles end;
* `unpack_pack`, `unpack_neg` — packing, and a minus sign.
-/

namespace SqlQuery.Number

open Float.Model (Format UnpackedFloat)
open Float.Model.UnpackedFloat

/-! ### The number that a double is -/

/-- The number that a double is; none for an infinity and for what is no number. -/
def exactValue? (x : Float) : Option ℚ :=
  match x.toModel.unpack with
  | .zero _ => some 0
  | .finite sign m e _ => some (sign.apply m * 2 ^ e)
  | .infinity _ | .notANumber => none

/-- A number of at most 53 binary digits, with a point or with zeros behind them. -/
def IsShort (q : ℚ) : Prop :=
  ∃ m e : Int, |m| < 2 ^ 53 ∧ q = m * 2 ^ e

theorem IsShort.neg {q : ℚ} (h : IsShort q) : IsShort (-q) := by
  obtain ⟨m, e, hm, rfl⟩ := h
  exact ⟨-m, e, by rwa [abs_neg], by rw [Int.cast_neg, neg_mul]⟩

theorem abs_apply (sign : Sign) (n : Nat) : |sign.apply n| = n := by
  cases sign with
  | negative => exact (abs_neg _).trans (Nat.abs_cast n)
  | positive => exact Nat.abs_cast n

theorem lt_of_unpack {b : BitVec 64} {sign : Sign} {m : Nat} {e : Int} {hm : 0 < m}
    (h : unpack Format.binary64 b = .finite sign m e hm) : m < 2 ^ 53 := by
  unfold unpack at h
  dsimp only at h
  by_cases hones : @unpackExponent Format.binary64 b = -1#11
  · rw [if_pos hones] at h
    by_cases hmantissa : @unpackMantissa Format.binary64 b = 0#52
    · rw [if_pos hmantissa] at h
      cases h
    · rw [if_neg hmantissa] at h
      cases h
  rw [if_neg hones] at h
  by_cases hzero : @unpackExponent Format.binary64 b = 0#11
  · rw [if_pos hzero] at h
    by_cases hmantissa : @unpackMantissa Format.binary64 b = 0#52
    · rw [dif_pos hmantissa] at h
      cases h
    -- The first digit of a subnormal number is not there.
    · rw [dif_neg hmantissa] at h
      cases h
      exact Nat.lt_trans (BitVec.isLt _) (by decide)
  · rw [if_neg hzero] at h
    cases h
    exact BitVec.isLt _

/-- **Every double** has at most 53 binary digits. -/
theorem isShort_of_exactValue? {x : Float} {q : ℚ} (h : exactValue? x = some q) : IsShort q := by
  unfold exactValue? at h
  split at h
  case h_1 =>
    cases h
    exact ⟨0, 0, by decide, by rw [Int.cast_zero, zero_mul]⟩
  case h_2 sign m e hm hunpack =>
    cases h
    refine ⟨sign.apply m, e, ?_, rfl⟩
    rw [abs_apply]
    exact_mod_cast lt_of_unpack hunpack
  all_goals cases h

/-! ### Significands of 53 digits -/

/-- A significand that has all its 53 digits. -/
structure IsSignificand (m : Nat) : Prop where
  low : 2 ^ 52 ≤ m
  high : m < 2 ^ 53

theorem IsSignificand.pos {m : Nat} (h : IsSignificand m) : 0 < m :=
  Nat.lt_of_lt_of_le (by decide) h.low

theorem IsSignificand.log2 {m : Nat} (h : IsSignificand m) : m.log2 = 52 :=
  (Nat.log2_eq_iff h.pos.ne').2 ⟨h.low, h.high⟩

/-- The power of two at which the doubles end: 53 digits behind the greatest exponent. -/
def doubleEnd : Nat := 2 ^ (53 + 971)

theorem IsSignificand.mul_two_pow_lt_iff {m : Nat} (h : IsSignificand m) (e k : Nat) :
    m * 2 ^ e < 2 ^ (53 + k) ↔ e ≤ k := by
  rw [Nat.pow_add]
  constructor
  · intro hlt
    by_contra hlarge
    have hpow : 2 ^ (k + 1) ≤ 2 ^ e := Nat.pow_le_pow_right (by decide) (by omega)
    have hle : 2 ^ 53 * 2 ^ k ≤ m * 2 ^ e := by
      calc 2 ^ 53 * 2 ^ k = 2 ^ 52 * 2 ^ (k + 1) := by
            rw [Nat.pow_succ 2 k, Nat.mul_comm (2 ^ k), ← Nat.mul_assoc]
            rfl
        _ ≤ m * 2 ^ e := Nat.mul_le_mul h.low hpow
    exact Nat.not_lt.2 hle hlt
  · intro he
    have hpow : 2 ^ e ≤ 2 ^ k := Nat.pow_le_pow_right (by decide) he
    exact Nat.mul_lt_mul_of_lt_of_le h.high hpow (Nat.two_pow_pos k)

/-! ### Packing -/

theorem ofBitVec_toBitVec (sign : Sign) : Sign.ofBitVec sign.toBitVec = sign := by
  cases sign <;> rfl

theorem unpackSign_packComponents (sign : Sign) (e : BitVec 11) (m : BitVec 52) :
    unpackSign (packComponents Format.binary64 sign e m) = sign.toBitVec := by
  change (sign.toBitVec ++ e ++ m).extractLsb' 63 1 = sign.toBitVec
  rw [BitVec.extractLsb'_append_eq_of_le (by decide), BitVec.extractLsb'_append_eq_of_le (by decide)]
  exact BitVec.extractLsb'_eq_self

theorem finite_congr {sign sign' : Sign} {m m' : Nat} {e e' : Int} {hm : 0 < m} (hm' : 0 < m')
    (hsign : sign = sign') (hmantissa : m = m') (hexponent : e = e') :
    UnpackedFloat.finite sign m e hm = .finite sign' m' e' hm' := by
  subst hsign hmantissa hexponent
  rfl

theorem unpack_packedInfinity (sign : Sign) :
    unpack Format.binary64 (packedInfinity Format.binary64 sign) = .infinity sign := by
  have hmantissa : unpackMantissa (packComponents Format.binary64 sign (-1#11) 0) = 0#52 :=
    unpackMantissa_packComponents
  unfold unpack packedInfinity
  dsimp only
  rw [if_pos unpackExponent_packComponents, if_pos hmantissa, unpackSign_packComponents, ofBitVec_toBitVec]

theorem unpack_packComponents (sign : Sign) {e m : Nat} (he : 0 < e) (he' : e < 2047) (hm : IsSignificand m) :
    unpack Format.binary64 (packComponents Format.binary64 sign (BitVec.ofNat 11 e) (BitVec.ofNat 52 m)) =
      .finite sign m (e - 1075) hm.pos := by
  have hexponent : (BitVec.ofNat 11 e).toNat = e := Nat.mod_eq_of_lt (by omega)
  -- The first digit, which is left out, is put back in front of the others.
  have hmantissa : (1#1 ++ BitVec.ofNat 52 m).toNat = m := by
    have hlow := hm.low
    have hhigh := hm.high
    change 2 ^ 52 ||| m % 2 ^ 52 = m
    rw [Nat.or_comm, Nat.or_two_pow_eq_add_of_lt (Nat.mod_lt _ (by decide))]
    omega
  have hzero : BitVec.ofNat 11 e ≠ 0#11 := by
    intro h
    have hnat := congrArg BitVec.toNat h
    rw [hexponent] at hnat
    exact he.ne' hnat
  have hones : BitVec.ofNat 11 e ≠ -1#11 := by
    intro h
    have hnat := congrArg BitVec.toNat h
    rw [hexponent] at hnat
    exact he'.ne hnat
  unfold unpack
  dsimp only
  rw [if_neg (unpackExponent_packComponents ▸ hones), if_neg (unpackExponent_packComponents ▸ hzero)]
  refine finite_congr hm.pos ?_ ?_ ?_
  · rw [unpackSign_packComponents, ofBitVec_toBitVec]
  · rw [unpackMantissa_packComponents, hmantissa]
  · rw [unpackExponent_packComponents, hexponent]
    rfl

/-- **A number that is packed** is unpacked as it was; past the greatest exponent it is an infinity. -/
theorem unpack_pack (sign : Sign) {m e : Nat} (hm : IsSignificand m) :
    unpack Format.binary64 (pack Format.binary64 (.finite sign m e hm.pos)) =
      if e ≤ 971 then .finite sign m e hm.pos else .infinity sign := by
  have hpack : pack Format.binary64 (.finite sign m e hm.pos) =
      if 2048 ≤ ((e : Int) + 1023 + 52).toNat + 1 then packedInfinity Format.binary64 sign
      else if m.log2 + 1 = 53 then
        packComponents Format.binary64 sign (BitVec.ofNat 11 ((e : Int) + 1023 + 52).toNat) (BitVec.ofNat 52 m)
      else packComponents Format.binary64 sign 0#11 (BitVec.ofNat 52 m) := rfl
  have hbias : ((e : Int) + 1023 + 52).toNat = e + 1075 := by omega
  have hdigits : m.log2 + 1 = 53 := by rw [hm.log2]
  rw [hpack, hbias, if_pos hdigits]
  by_cases hlarge : e ≤ 971
  · have hback : ((e + 1075 : Nat) : Int) - 1075 = e := by omega
    rw [if_neg (by omega), if_pos hlarge, unpack_packComponents sign (by omega) (by omega) hm]
    exact finite_congr hm.pos rfl rfl hback
  · rw [if_pos (by omega), if_neg hlarge, unpack_packedInfinity]

/-- A double that is packed from a significand and an exponent. -/
def IsPacked (x : Float) (sign : Sign) {m : Nat} (e : Nat) (hm : IsSignificand m) : Prop :=
  x.toModel.unpack = if e ≤ 971 then .finite sign m e hm.pos else .infinity sign

section Packed

variable {x : Float} {sign : Sign} {m e : Nat} {hm : IsSignificand m}

theorem unpack_model_pack (u : UnpackedFloat) :
    (Float.Model.pack u).unpack = unpack Format.binary64 (pack Format.binary64 u) :=
  rfl

theorem isPacked_ofModel_pack (sign : Sign) (e : Nat) (hm : IsSignificand m) :
    IsPacked (.ofModel (.pack (.finite sign m e hm.pos))) sign e hm := by
  rw [IsPacked, unpack_model_pack, unpack_pack sign hm]

theorem isPacked_infinity (he : 971 < e) : IsPacked (1 / 0) .positive e hm := by
  rw [IsPacked, if_neg (Nat.not_le.2 he)]
  rfl

/-- A minus sign changes the sign and nothing else. -/
theorem IsPacked.neg (h : IsPacked x sign e hm) : IsPacked (-x) (-sign) e hm := by
  have hneg : (-x).toModel = .pack x.toModel.unpack.neg := rfl
  rw [IsPacked, hneg, unpack_model_pack, h]
  by_cases he : e ≤ 971
  · rw [if_pos he, if_pos he]
    exact (unpack_pack (-sign) hm).trans (if_pos he)
  · rw [if_neg he, if_neg he]
    exact unpack_packedInfinity _

theorem IsPacked.exactValue? (h : IsPacked x sign e hm) :
    exactValue? x = if m * 2 ^ e < doubleEnd then some ((sign.apply (m * 2 ^ e : Nat) : Int) : ℚ) else none := by
  have hvalue : ((sign.apply (m * 2 ^ e : Nat) : Int) : ℚ) = sign.apply m * 2 ^ (e : Int) := by
    cases sign with
    | negative =>
      change ((-((m * 2 ^ e : Nat) : Int) : Int) : ℚ) = ((-(m : Int) : Int) : ℚ) * 2 ^ (e : Int)
      push_cast
      rw [zpow_natCast, neg_mul]
    | positive =>
      change (((m * 2 ^ e : Nat) : Int) : ℚ) = ((m : Int) : ℚ) * 2 ^ (e : Int)
      push_cast
      rw [zpow_natCast]
  rw [doubleEnd, if_congr (hm.mul_two_pow_lt_iff e 971) rfl rfl, hvalue]
  unfold Number.exactValue?
  by_cases he : e ≤ 971
  · have hunpack : x.toModel.unpack = .finite sign m e hm.pos := h.trans (if_pos he)
    rw [if_pos he, hunpack]
  · have hunpack : x.toModel.unpack = .infinity sign := h.trans (if_neg he)
    rw [if_neg he, hunpack]

end Packed

end SqlQuery.Number
