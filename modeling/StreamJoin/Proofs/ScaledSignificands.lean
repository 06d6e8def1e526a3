import Mathlib.Algebra.Order.Field.Power
import StreamJoin.Json.Number
import StreamJoin.Proofs.RationalRounding

namespace StreamJoin

/-!
# Significands that are scaled by a power of ten

A number is read by rounding its significand and a power of ten and then rounding
their product or quotient.  A significand of at most 53 bits and a power of ten up
to the 22nd are not changed by that, and then only the result is rounded
(`scaleSignificand?_of_exact`).  Otherwise the result is that of rounding a number
slightly beside the scaled significand (`exists_scaled`, `exists_scaledTwice`).
-/

open BinaryFormat (double)

section Errors

variable {left right leftExact rightExact leftError rightError : ℚ}

/-- What two relative errors make of a product or a quotient. -/
def combinedError (leftError rightError : ℚ) : ℚ :=
  (leftError + rightError) * (1 + 1 / 2 ^ 50)

/-- The relative errors of two factors combine in the product. -/
theorem abs_mul_sub_le
    (leftNonneg : 0 ≤ leftExact)
    (rightNonneg : 0 ≤ rightExact)
    (leftErrorNonneg : 0 ≤ leftError)
    (rightErrorNonneg : 0 ≤ rightError)
    (small : rightError ≤ 1 / 2 ^ 53)
    (leftNear : |left - leftExact| ≤ leftError * leftExact)
    (rightNear : |right - rightExact| ≤ rightError * rightExact) :
    |left * right - leftExact * rightExact| ≤
      combinedError leftError rightError * (leftExact * rightExact) := by
  have rightSize : |right| ≤ (1 + 1 / 2 ^ 53) * rightExact := by
    have := abs_sub_abs_le_abs_sub right rightExact
    rw [abs_of_nonneg rightNonneg] at this
    nlinarith
  have split :
      left * right - leftExact * rightExact =
        (left - leftExact) * right + leftExact * (right - rightExact) := by
    ring
  calc
    |left * right - leftExact * rightExact|
      ≤ |left - leftExact| * |right| + leftExact * |right - rightExact| := by
        rw [split]
        refine (abs_add_le _ _).trans ?_
        rw [abs_mul, abs_mul, abs_of_nonneg leftNonneg]
    _ ≤ leftError * leftExact * ((1 + 1 / 2 ^ 53) * rightExact) +
          leftExact * (rightError * rightExact) :=
        add_le_add
          (mul_le_mul leftNear rightSize (abs_nonneg _)
            (mul_nonneg leftErrorNonneg leftNonneg))
          (mul_le_mul_of_nonneg_left rightNear leftNonneg)
    _ ≤ combinedError leftError rightError * (leftExact * rightExact) := by
        have product := mul_nonneg leftNonneg rightNonneg
        unfold combinedError
        nlinarith [mul_nonneg leftErrorNonneg product,
          mul_nonneg rightErrorNonneg product]

/-- The relative errors of a dividend and a divisor combine in the quotient. -/
theorem abs_div_sub_le
    (leftNonneg : 0 ≤ leftExact)
    (rightPositive : 0 < rightExact)
    (leftErrorNonneg : 0 ≤ leftError)
    (rightErrorNonneg : 0 ≤ rightError)
    (small : rightError ≤ 1 / 2 ^ 53)
    (leftNear : |left - leftExact| ≤ leftError * leftExact)
    (rightNear : |right - rightExact| ≤ rightError * rightExact) :
    |left / right - leftExact / rightExact| ≤
      combinedError leftError rightError * (leftExact / rightExact) := by
  have rightSize : (1 - 1 / 2 ^ 53) * rightExact ≤ right := by
    have := (abs_le.mp rightNear).1
    nlinarith
  have positive : 0 < right := lt_of_lt_of_le (by positivity) rightSize
  have split :
      left / right - leftExact / rightExact =
        ((left - leftExact) * rightExact - leftExact * (right - rightExact)) /
          (right * rightExact) := by
    field_simp
    ring
  have numerator :
      |(left - leftExact) * rightExact - leftExact * (right - rightExact)| ≤
        (leftError + rightError) * (leftExact * rightExact) := by
    refine (abs_sub _ _).trans ?_
    rw [abs_mul, abs_mul, abs_of_pos rightPositive, abs_of_nonneg leftNonneg]
    nlinarith
  rw [split, abs_div, abs_of_pos (mul_pos positive rightPositive),
    div_le_iff₀ (mul_pos positive rightPositive)]
  calc
    |(left - leftExact) * rightExact - leftExact * (right - rightExact)|
      ≤ (leftError + rightError) * (leftExact * rightExact) := numerator
    _ ≤ (leftError + rightError) * leftExact * ((1 + 1 / 2 ^ 50) * right) := by
        have factor : rightExact ≤ (1 + 1 / 2 ^ 50) * right := by
          nlinarith
        have weight : 0 ≤ (leftError + rightError) * leftExact :=
          mul_nonneg (add_nonneg leftErrorNonneg rightErrorNonneg) leftNonneg
        calc
          _ = (leftError + rightError) * leftExact * rightExact := by ring
          _ ≤ _ := mul_le_mul_of_nonneg_left factor weight
    _ = combinedError leftError rightError * (leftExact / rightExact) *
      (right * rightExact) := by
        unfold combinedError
        field_simp

end Errors

/-- As a rational number, the hidden bit of a double is 2 ^ 52. -/
theorem cast_hiddenBit_double : (double.hiddenBit : ℚ) = 2 ^ 52 := by
  norm_num [BinaryFormat.hiddenBit, double]

/-- A number up to the largest power of ten is rounded to a finite word. -/
theorem lt_infinityWord_of_le
    {exact : ℚ}
    {word : Nat}
    (rounds : double.RoundsTo exact word)
    (bounded : exact ≤ 10 ^ largestTenPower) :
    word < double.infinityWord := by
  have largest :
      10 ^ largestTenPower * double.unitsPerOne ≤
        double.units (double.infinityWord - 1) := by
    decide +kernel
  have positive : 0 < double.infinityWord := by decide
  have notAbove : exact ≤ double.number (double.infinityWord - 1) := by
    refine bounded.trans ?_
    rw [BinaryFormat.number, le_div_iff₀ double.unitsPerOne_cast_pos]
    exact_mod_cast largest
  exact (rounds.le (Nat.sub_le _ _) notAbove).trans_lt (Nat.sub_lt positive one_pos)

/-- A whole number is rounded to the nearest double. -/
theorem roundsTo_whole (number : Nat) :
    double.RoundsTo number (double.roundRatio number 1) := by
  simpa using double.roundsTo_roundRatio number one_pos

/-- Rounding a whole number is off by at most half of the last of 53 bits. -/
theorem abs_number_roundRatio_sub_le
    {number : Nat}
    (positive : 0 < number)
    (bounded : number ≤ 10 ^ largestTenPower) :
    |double.number (double.roundRatio number 1) - number| ≤
      1 / 2 ^ 53 * number := by
  have rounds := roundsTo_whole number
  have finite := lt_infinityWord_of_le rounds (by exact_mod_cast bounded)
  have atLeastOne : (1 : ℚ) ≤ number := by exact_mod_cast positive
  have normal : (double.hiddenBit : ℚ) / double.unitsPerOne ≤ number := by
    refine le_trans ?_ atLeastOne
    rw [div_le_one double.unitsPerOne_cast_pos]
    exact Nat.cast_le.mpr double.hiddenBit_le_unitsPerOne
  have error := rounds.relative_error_le finite normal
  rw [cast_hiddenBit_double] at error
  linarith

/--
A whole number of at most 53 bits, and zeros behind them, is not changed by
rounding.
-/
theorem number_roundRatio_of_steps
    {count bits : Nat}
    (within : count ≤ 2 ^ 53)
    (low : bits ≤ 900) :
    double.number (double.roundRatio (count * 2 ^ bits) 1) =
      (count * 2 ^ bits : Nat) := by
  have exponents : 2 ^ double.exponentBits = 2048 := rfl
  have unitExponent_eq : double.unitExponent = 1074 := rfl
  have units :
      count * 2 ^ bits * double.unitsPerOne =
        count * 2 ^ (bits + double.unitExponent) := by
    rw [BinaryFormat.unitsPerOne_eq, pow_add, Nat.mul_assoc]
  have fixed :
      double.units
          (double.roundUnits (count * 2 ^ (bits + double.unitExponent)) 1) =
        count * 2 ^ (bits + double.unitExponent) :=
    double.units_roundUnits_of_steps (by omega) within
  rw [BinaryFormat.number, BinaryFormat.roundRatio, units, fixed, ← units,
    Nat.cast_mul, mul_div_cancel_right₀ _ double.unitsPerOne_ne_zero]

/-- How far a significand may be off by being rounded, as a fraction of it. -/
def significandError (significand : Nat) : ℚ :=
  if significand ≤ 2 ^ 53 then 0 else 1 / 2 ^ 53

/-- How far a power of ten may be off by being rounded, as a fraction of it. -/
def powerError (power : Nat) : ℚ := if power ≤ 22 then 0 else 1 / 2 ^ 53

/-- The error of a significand is at most half a step. -/
theorem significandError_mem (significand : Nat) :
    0 ≤ significandError significand ∧
      significandError significand ≤ 1 / 2 ^ 53 := by
  unfold significandError
  split <;> norm_num

/-- The error of a power of ten is at most half a step. -/
theorem powerError_mem (power : Nat) :
    0 ≤ powerError power ∧ powerError power ≤ 1 / 2 ^ 53 := by
  unfold powerError
  split <;> norm_num

/-- A significand as a double is as near as its error says. -/
theorem abs_number_significand_sub_le
    {significand : Nat}
    (positive : 0 < significand)
    (fits : significand < wordBound) :
    |double.number (double.roundRatio significand 1) - significand| ≤
      significandError significand * significand := by
  unfold significandError
  split
  · rename_i exact
    have fixed := number_roundRatio_of_steps exact (Nat.zero_le 900)
    rw [pow_zero, Nat.mul_one] at fixed
    simp [fixed]
  · exact abs_number_roundRatio_sub_le positive (fits.le.trans (by decide +kernel))

/-- A power of ten as a double is as near as its error says. -/
theorem abs_number_tenPowerWord_sub_le
    {power : Nat}
    (within : power ≤ largestTenPower) :
    |double.number (tenPowerWord power) - 10 ^ power| ≤
      powerError power * 10 ^ power := by
  unfold powerError
  split
  · rename_i exact
    have factors : 5 ^ power * 2 ^ power = 10 ^ power :=
      (Nat.mul_pow 5 2 power).symm
    have count : 5 ^ power ≤ 2 ^ 53 :=
      (Nat.pow_le_pow_right (by decide) exact).trans (by decide)
    have fixed :=
      number_roundRatio_of_steps count (exact.trans (by decide) : power ≤ 900)
    rw [factors] at fixed
    rw [tenPowerWord, Nat.pow_eq, fixed]
    simp
  · have near :=
      abs_number_roundRatio_sub_le (Nat.pow_pos (Nat.succ_pos 9) : 0 < 10 ^ power)
        (Nat.pow_le_pow_right (by decide) within)
    push_cast at near
    exact near

/-- A power of ten as a double is not zero. -/
theorem units_tenPowerWord_pos {power : Nat} (within : power ≤ largestTenPower) :
    0 < double.units (tenPowerWord power) := by
  have near := abs_number_tenPowerWord_sub_le within
  have error := (powerError_mem power).2
  have ten_pos : (0 : ℚ) < 10 ^ power := by positivity
  by_contra none
  have zero : double.number (tenPowerWord power) = 0 := by
    rw [BinaryFormat.number, Nat.eq_zero_of_not_pos none, Nat.cast_zero, zero_div]
  rw [zero, zero_sub, abs_neg, abs_of_pos ten_pos] at near
  nlinarith

section Scaling

variable {significand : Nat} {power : ℤ}

/--
Scaling with one operation rounds a number that is off by the errors of its parts.
-/
theorem exists_scaled
    (positive : 0 < significand)
    (fits : significand < wordBound)
    (within : power.natAbs ≤ largestTenPower) :
    ∃ word exact,
      double.RoundsTo exact word ∧
        |exact - significand * 10 ^ power| ≤
          combinedError (significandError significand) (powerError power.natAbs) *
            (significand * 10 ^ power) ∧
        (word < double.infinityWord →
          scaleSignificand? significand power = some word) := by
  have significandNear := abs_number_significand_sub_le positive fits
  have significandSmall := significandError_mem significand
  cases power with
  | ofNat raised =>
      replace within : raised ≤ largestTenPower := within
      have powerNear := abs_number_tenPowerWord_sub_le within
      have powerSmall := powerError_mem raised
      refine
        ⟨_, _,
            double.roundsTo_mulWord (double.roundRatio significand 1)
              (tenPowerWord raised),
          ?_, fun finite => ?_⟩
      · have near := abs_mul_sub_le (Nat.cast_nonneg significand) (by positivity)
          significandSmall.1 powerSmall.1 powerSmall.2 significandNear powerNear
        simpa using near
      · have notInfinite := finite.ne
        simp only [scaleSignificand?]
        rw [if_pos within, if_neg notInfinite]
  | negSucc lowered =>
      replace within : lowered + 1 ≤ largestTenPower := within
      have powerNear := abs_number_tenPowerWord_sub_le within
      have powerSmall := powerError_mem (lowered + 1)
      refine
        ⟨_, _,
          double.roundsTo_divWord (double.roundRatio significand 1)
            (units_tenPowerWord_pos within),
          ?_, fun _ => ?_⟩
      · have near := abs_div_sub_le (Nat.cast_nonneg significand) (by positivity)
          significandSmall.1 powerSmall.1 powerSmall.2 significandNear powerNear
        rw [zpow_negSucc, ← div_eq_mul_inv]
        exact near
      · simp only [scaleSignificand?, divideByTenPower]
        rw [if_pos within]

/--
If neither part is changed by rounding, then the scaled significand is rounded once.
-/
theorem scaleSignificand?_of_exact
    (positive : 0 < significand)
    (small : significand ≤ 2 ^ 53)
    (within : power.natAbs ≤ 22) :
    ∃ word,
      scaleSignificand? significand power = some word ∧
        double.RoundsTo (significand * 10 ^ power) word ∧
          word < double.infinityWord := by
  have fits : significand < wordBound := small.trans_lt (by decide)
  obtain ⟨word, exact, rounds, near, scaled⟩ :=
    exists_scaled positive fits (within.trans (by decide))
  have noError :
      combinedError (significandError significand) (powerError power.natAbs) =
        0 := by
    rw [combinedError, significandError, powerError, if_pos small, if_pos within,
      add_zero, zero_mul]
  rw [noError, zero_mul] at near
  obtain rfl : exact = significand * 10 ^ power :=
    sub_eq_zero.mp (abs_eq_zero.mp (near.antisymm (abs_nonneg _)))
  have finite : word < double.infinityWord := by
    refine lt_infinityWord_of_le rounds ?_
    calc
      (significand : ℚ) * 10 ^ power ≤ 2 ^ 53 * 10 ^ (22 : ℤ) := by
        have smallCast : (significand : ℚ) ≤ 2 ^ 53 := by exact_mod_cast small
        refine mul_le_mul smallCast ?_ (by positivity) (by positivity)
        exact zpow_le_zpow_right₀ (by norm_num) (by omega)
      _ ≤ 10 ^ 38 := by norm_num
      _ ≤ 10 ^ largestTenPower := pow_le_pow_right₀ (by norm_num) (by decide)
  exact ⟨word, scaled finite, rounds, finite⟩

/--
How far a significand of 53 bits may be off after scaling, as a fraction of the
result.
-/
def readingError (power : ℤ) : ℚ :=
  if power.natAbs ≤ 22 then 1 / 2 ^ 53 else 257 / 2 ^ 60

/-- With the last rounding the errors stay within that of a reading. -/
theorem combinedError_add_le (power : ℤ) (small : significand ≤ 2 ^ 53) :
    combinedError (significandError significand) (powerError power.natAbs) +
        (1 +
          combinedError (significandError significand) (powerError power.natAbs)) /
            2 ^ 53 ≤
      readingError power := by
  unfold combinedError significandError powerError readingError
  rw [if_pos small]
  split <;> norm_num

/-- The errors of a significand and a power make up at most a half. -/
theorem combinedError_le_half (power : ℤ) (small : significand ≤ 2 ^ 53) :
    combinedError (significandError significand) (powerError power.natAbs) ≤
      1 / 2 := by
  unfold combinedError significandError powerError
  rw [if_pos small]
  split <;> norm_num

/-- Numbers with a hidden bit begin far below these powers of ten. -/
theorem hiddenBit_div_unitsPerOne_le :
    (double.hiddenBit : ℚ) / double.unitsPerOne ≤ (10 : ℚ) ^ (-100 : ℤ) / 2 := by
  have least : 2 * double.hiddenBit * 10 ^ 100 ≤ double.unitsPerOne := by
    decide +kernel
  have leastCast : (2 : ℚ) * double.hiddenBit * 10 ^ 100 ≤ double.unitsPerOne := by
    exact_mod_cast least
  rw [zpow_neg, div_le_div_iff₀ double.unitsPerOne_cast_pos two_pos,
    ← div_eq_inv_mul, le_div_iff₀ (by positivity)]
  calc
    (double.hiddenBit : ℚ) * 2 * 10 ^ (100 : ℤ) =
      2 * double.hiddenBit * 10 ^ 100 := by
      norm_num [mul_comm]
    _ ≤ double.unitsPerOne := leastCast

/--
A significand of 53 bits is scaled neither to a tiny number nor to a huge one.
-/
theorem scaled_bounds
    (positive : 0 < significand)
    (small : significand ≤ 2 ^ 53)
    (within : power.natAbs ≤ 100) :
    (10 : ℚ) ^ (-100 : ℤ) ≤ significand * 10 ^ power ∧
      significand * 10 ^ power ≤ (2 : ℚ) ^ 53 * 10 ^ (100 : ℤ) := by
  have atLeastOne : (1 : ℚ) ≤ significand := by exact_mod_cast positive
  have smallCast : (significand : ℚ) ≤ 2 ^ 53 := by exact_mod_cast small
  constructor
  · calc
      (10 : ℚ) ^ (-100 : ℤ) ≤ 10 ^ power :=
        zpow_le_zpow_right₀ (by norm_num) (by omega)
      _ ≤ significand * 10 ^ power :=
        le_mul_of_one_le_left (by positivity) atLeastOne
  · exact
      mul_le_mul smallCast (zpow_le_zpow_right₀ (by norm_num) (by omega))
        (by positivity) (by positivity)

/-- Scaling with one operation is off by little. -/
theorem exists_scaleSignificand?
    (positive : 0 < significand)
    (small : significand ≤ 2 ^ 53)
    (within : power.natAbs ≤ 100) :
    ∃ word,
      scaleSignificand? significand power = some word ∧ word < double.infinityWord ∧
        |double.number word - significand * 10 ^ power| ≤
          readingError power * (significand * 10 ^ power) := by
  have fits : significand < wordBound := small.trans_lt (by decide)
  obtain ⟨word, exact, rounds, near, scaled⟩ :=
    exists_scaled positive fits (within.trans (by decide))
  have total := combinedError_add_le power small
  have errorSmall := combinedError_le_half power small
  obtain ⟨lower, upper⟩ := scaled_bounds positive small within
  set error :=
    combinedError (significandError significand) (powerError power.natAbs)
  set decimal : ℚ := significand * 10 ^ power
  have decimalPositive : 0 < decimal := lt_of_lt_of_le (by positivity) lower
  have bounds := abs_le.mp near
  have halved : decimal / 2 ≤ exact := by nlinarith
  have finite : word < double.infinityWord := by
    refine lt_infinityWord_of_le rounds ?_
    calc
      exact ≤ 2 * decimal := by nlinarith
      _ ≤ 2 * (2 ^ 53 * 10 ^ (100 : ℤ)) := by linarith
      _ ≤ 10 ^ 200 := by norm_num
      _ ≤ 10 ^ largestTenPower := pow_le_pow_right₀ (by norm_num) (by decide)
  have normal : (double.hiddenBit : ℚ) / double.unitsPerOne ≤ exact :=
    hiddenBit_div_unitsPerOne_le.trans
      ((div_le_div_of_nonneg_right lower two_pos.le).trans halved)
  have rounding := rounds.relative_error_le finite normal
  rw [cast_hiddenBit_double] at rounding
  refine ⟨word, scaled finite, finite, ?_⟩
  calc
    |double.number word - decimal| ≤
      |double.number word - exact| + |exact - decimal| :=
      abs_sub_le _ _ _
    _ ≤ (1 + error) / 2 ^ 53 * decimal + error * decimal := by
      linarith
    _ = (error + (1 + error) / 2 ^ 53) * decimal := by ring
    _ ≤ readingError power * decimal :=
      mul_le_mul_of_nonneg_right total decimalPositive.le

/--
The largest power of ten is much nearer to its word than half of the last bit.
-/
theorem abs_number_largestTenPower_sub_le :
    |double.number (tenPowerWord largestTenPower) - 10 ^ largestTenPower| ≤
      1 / 2 ^ 56 * 10 ^ largestTenPower := by
  have near :
      2 ^ 56 *
          (double.units (tenPowerWord largestTenPower)).dist
            (10 ^ largestTenPower * double.unitsPerOne) ≤
        10 ^ largestTenPower * double.unitsPerOne := by
    decide +kernel
  have nearCast :
      (2 : ℚ) ^ 56 *
          ((double.units (tenPowerWord largestTenPower)).dist
            (10 ^ largestTenPower * double.unitsPerOne) : Nat) ≤
        10 ^ largestTenPower * double.unitsPerOne := by
    exact_mod_cast near
  have one_pos := double.unitsPerOne_cast_pos
  rw [BinaryFormat.RoundsTo.cast_dist, Nat.cast_mul, Nat.cast_pow,
    ← BinaryFormat.number_mul_unitsPerOne, ← sub_mul, abs_mul,
    abs_of_pos one_pos] at nearCast
  refine le_of_mul_le_mul_right ?_ one_pos
  push_cast at nearCast
  linarith

/-- Half a unit of the 64-bit format. -/
def halfUnit : ℚ := 1 / (2 * double.unitsPerOne)

/-- The first of two divisions is off by little or by half a unit. -/
theorem abs_number_firstQuotient_sub_le
    (positive : 0 < significand)
    (fits : significand < wordBound) :
    |double.number
          (double.divWord (double.roundRatio significand 1)
            (tenPowerWord largestTenPower)) -
        significand / 10 ^ largestTenPower| ≤
      37 / 2 ^ 58 * (significand / 10 ^ largestTenPower) +
        max halfUnit (33 / 2 ^ 58 * (significand / 10 ^ largestTenPower)) := by
  have significandPositive : (0 : ℚ) < significand := by exact_mod_cast positive
  have significandNear :
      |double.number (double.roundRatio significand 1) - significand| ≤
        1 / 2 ^ 53 * significand :=
    (abs_number_significand_sub_le positive fits).trans
      (mul_le_mul_of_nonneg_right (significandError_mem significand).2
        significandPositive.le)
  have rounds :=
    double.roundsTo_divWord (double.roundRatio significand 1)
      (units_tenPowerWord_pos (le_refl largestTenPower))
  have near :=
    abs_div_sub_le significandPositive.le (by positivity) (by norm_num)
      (by norm_num) (by norm_num) significandNear abs_number_largestTenPower_sub_le
  have small : combinedError (1 / 2 ^ 53) (1 / 2 ^ 56) ≤ 37 / 2 ^ 58 := by
    norm_num [combinedError]
  have quotientSmall : (significand : ℚ) / 10 ^ largestTenPower ≤ 2 ^ 64 := by
    have fitsCast : (significand : ℚ) ≤ 2 ^ 64 := by exact_mod_cast fits.le
    exact
      (div_le_self significandPositive.le (one_le_pow₀ (by norm_num))).trans
        fitsCast
  have quotientPositive : (0 : ℚ) < significand / 10 ^ largestTenPower := by
    positivity
  set quotient : ℚ := significand / 10 ^ largestTenPower
  set exact :=
    double.number (double.roundRatio significand 1) /
      double.number (tenPowerWord largestTenPower)
  replace near : |exact - quotient| ≤ 37 / 2 ^ 58 * quotient :=
    near.trans (mul_le_mul_of_nonneg_right small quotientPositive.le)
  have bounds := abs_le.mp near
  have finite := lt_infinityWord_of_le rounds (by
    calc
      exact ≤ 10 ^ 20 := by linarith
      _ ≤ 10 ^ largestTenPower := pow_le_pow_right₀ (by norm_num) (by decide))
  have error := rounds.error_le finite
  rw [cast_hiddenBit_double] at error
  refine (abs_sub_le _ exact _).trans ?_
  rw [add_comm]
  refine add_le_add near (error.trans (max_le_max le_rfl ?_))
  linarith

/-- Below that many powers of ten, a number of 64 bits is a small part of a unit. -/
theorem quotient_le_halfUnits
    (lowered : Nat)
    (fits : significand < wordBound)
    (many : 22 < lowered) :
    (significand : ℚ) / 10 ^ largestTenPower / 10 ^ lowered ≤
      2 ^ 50 * halfUnit := by
  have units :
      2 ^ 64 * (2 * double.unitsPerOne) ≤
        2 ^ 50 * (10 ^ largestTenPower * 10 ^ 23) := by
    decide +kernel
  have unitsCast :
      (2 : ℚ) ^ 64 * (2 * double.unitsPerOne) ≤
        2 ^ 50 * (10 ^ largestTenPower * 10 ^ 23) := by
    exact_mod_cast units
  have fitsCast : (significand : ℚ) ≤ 2 ^ 64 := by exact_mod_cast fits.le
  have powers : (10 : ℚ) ^ 23 ≤ 10 ^ lowered := pow_le_pow_right₀ (by norm_num) many
  have two_units := mul_pos two_pos double.unitsPerOne_cast_pos
  rw [halfUnit, mul_one_div, div_div, div_le_div_iff₀ (by positivity) two_units]
  calc
    (significand : ℚ) * (2 * double.unitsPerOne) ≤
      2 ^ 64 * (2 * double.unitsPerOne) :=
      mul_le_mul_of_nonneg_right fitsCast two_units.le
    _ ≤ 2 ^ 50 * (10 ^ largestTenPower * 10 ^ 23) := unitsCast
    _ ≤ 2 ^ 50 * (10 ^ largestTenPower * 10 ^ lowered) := by gcongr

/-- Half a unit is positive. -/
theorem halfUnit_pos : 0 < halfUnit :=
  one_div_pos.mpr (mul_pos two_pos double.unitsPerOne_cast_pos)

/--
The errors of the first of two divisions and of a power of ten make no more than
half a unit.
-/
theorem secondError_le
    {error quotient : ℚ}
    {lowered : Nat}
    (quotientPositive : 0 < quotient)
    (somePower : 0 < lowered)
    (tiny : 22 < lowered → quotient / 10 ^ lowered ≤ 2 ^ 50 * halfUnit)
    (error_mul :
      error * quotient =
        37 / 2 ^ 58 * quotient + max halfUnit (33 / 2 ^ 58 * quotient)) :
    combinedError error (powerError lowered) * (quotient / 10 ^ lowered) ≤
      max halfUnit (9 / 2 ^ 55 * (quotient / 10 ^ lowered)) := by
  have unitPositive := halfUnit_pos
  have resultPositive : 0 < quotient / 10 ^ lowered := by positivity
  rcases le_total halfUnit (33 / 2 ^ 58 * quotient) with normal | subnormal
  · have error_eq : error = 70 / 2 ^ 58 := by
      rw [max_eq_right normal] at error_mul
      nlinarith
    rw [error_eq]
    by_cases exact : lowered ≤ 22
    · refine le_max_of_le_right (mul_le_mul_of_nonneg_right ?_ resultPositive.le)
      rw [combinedError, powerError, if_pos exact]
      norm_num
    · -- Below so small powers of ten, even the error of a whole number is no unit
      -- any more.
      refine le_max_of_le_left ?_
      have small :
          combinedError (70 / 2 ^ 58) (powerError lowered) ≤ 1 / 2 ^ 50 := by
        rw [combinedError, powerError, if_neg exact]
        norm_num
      have bounded := tiny (Nat.not_le.mp exact)
      calc
        combinedError (70 / 2 ^ 58) (powerError lowered) * (quotient / 10 ^ lowered)
          ≤ 1 / 2 ^ 50 * (quotient / 10 ^ lowered) :=
            mul_le_mul_of_nonneg_right small resultPositive.le
        _ ≤ halfUnit := by linarith
  · refine le_max_of_le_left ?_
    rw [max_eq_left subnormal] at error_mul
    have powerSmall := powerError_mem lowered
    have tenfold : (10 : ℚ) ≤ 10 ^ lowered :=
      le_self_pow₀ (by norm_num) somePower.ne'
    have split :
        combinedError error (powerError lowered) * (quotient / 10 ^ lowered) =
          (error * quotient + powerError lowered * quotient) * (1 + 1 / 2 ^ 50) /
            10 ^ lowered := by
      unfold combinedError
      ring
    rw [split, error_mul, div_le_iff₀ (by positivity)]
    nlinarith

/--
Scaling with two divisions rounds a number that is off by little or by half a unit.
-/
theorem exists_scaledTwice
    {lowered : Nat}
    (positive : 0 < significand)
    (fits : significand < wordBound)
    (somePower : 0 < lowered)
    (within : lowered ≤ largestTenPower) :
    ∃ exact,
      double.RoundsTo exact
          (divideByTenPower (double.roundRatio significand 1)
            (largestTenPower + lowered)) ∧
        |exact - significand / 10 ^ largestTenPower / 10 ^ lowered| ≤
          max halfUnit
            (9 / 2 ^ 55 * (significand / 10 ^ largestTenPower / 10 ^ lowered)) := by
  have firstNear := abs_number_firstQuotient_sub_le positive fits
  have tiny := quotient_le_halfUnits lowered fits
  have quotientPositive : (0 : ℚ) < significand / 10 ^ largestTenPower := by
    positivity
  have unfolded :
      divideByTenPower (double.roundRatio significand 1)
          (largestTenPower + lowered) =
        double.divWord
          (double.divWord (double.roundRatio significand 1)
            (tenPowerWord largestTenPower))
          (tenPowerWord lowered) := by
    have twice : ¬ largestTenPower + lowered ≤ largestTenPower := by omega
    have enough : largestTenPower + lowered ≤ 2 * largestTenPower := by omega
    simp only [divideByTenPower]
    rw [if_neg twice, if_pos enough, Nat.add_sub_cancel_left]
  set quotient : ℚ := significand / 10 ^ largestTenPower
  set error : ℚ :=
    (37 / 2 ^ 58 * quotient + max halfUnit (33 / 2 ^ 58 * quotient)) / quotient
  have error_mul :
      error * quotient =
        37 / 2 ^ 58 * quotient + max halfUnit (33 / 2 ^ 58 * quotient) :=
    div_mul_cancel₀ _ quotientPositive.ne'
  have powerSmall := powerError_mem lowered
  rw [unfolded]
  refine ⟨_, double.roundsTo_divWord _ (units_tenPowerWord_pos within), ?_⟩
  calc
    _ ≤ combinedError error (powerError lowered) * (quotient / 10 ^ lowered) :=
      abs_div_sub_le quotientPositive.le (by positivity) (by positivity)
        powerSmall.1 powerSmall.2 (error_mul ▸ firstNear)
        (abs_number_tenPowerWord_sub_le within)
    _ ≤ max halfUnit (9 / 2 ^ 55 * (quotient / 10 ^ lowered)) :=
      secondError_le quotientPositive somePower tiny error_mul

/-- Scaling rounds a number that is off by little or by half a unit. -/
theorem exists_reading
    (positive : 0 < significand)
    (fits : significand < wordBound)
    (lowest : -(2 * largestTenPower : Nat) ≤ power)
    (highest : power ≤ largestTenPower) :
    ∃ word exact,
      double.RoundsTo exact word ∧
        |exact - significand * 10 ^ power| ≤
          max halfUnit (9 / 2 ^ 55 * (significand * 10 ^ power)) ∧
        (word < double.infinityWord →
          scaleSignificand? significand power = some word) := by
  by_cases within : power.natAbs ≤ largestTenPower
  · obtain ⟨word, exact, rounds, near, scaled⟩ := exists_scaled positive fits within
    have small :
        combinedError (significandError significand) (powerError power.natAbs) ≤
          9 / 2 ^ 55 := by
      have significandSmall := (significandError_mem significand).2
      have powerSmall := (powerError_mem power.natAbs).2
      unfold combinedError
      linarith
    refine ⟨word, exact, rounds, near.trans (le_max_of_le_right ?_), scaled⟩
    exact mul_le_mul_of_nonneg_right small (by positivity)
  · cases power with
    | ofNat raised => exact absurd (Int.ofNat_le.mp highest) within
    | negSucc predecessor =>
        replace within : largestTenPower < predecessor + 1 := Nat.not_le.mp within
        obtain ⟨lowered, lowered_eq⟩ := Nat.exists_eq_add_of_le within.le
        obtain ⟨exact, rounds, near⟩ :=
          exists_scaledTwice positive fits (show 0 < lowered by omega) (by omega)
        have decimal :
            (significand : ℚ) * 10 ^ Int.negSucc predecessor =
              significand / 10 ^ largestTenPower / 10 ^ lowered := by
          rw [zpow_negSucc, lowered_eq, pow_add, div_div, div_eq_mul_inv]
        rw [← lowered_eq] at rounds
        rw [decimal]
        exact ⟨_, exact, rounds, near, fun _ => rfl⟩

end Scaling

end StreamJoin
