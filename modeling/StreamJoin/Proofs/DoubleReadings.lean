import StreamJoin.Proofs.ScaledSignificands
import StreamJoin.Proofs.WrittenDecimals

namespace StreamJoin

/-!
# Reading 64-bit numbers

A 64-bit number is written with up to 17 digits, which is more than a significand of
53 bits, and with powers of ten that are no 64-bit numbers.  So what is read for the
shortest decimal of a word need not be the word.  It is a finite word at most three
words away, and it is the word itself if the digits and the power of ten are small
enough to be scaled exactly (`exists_readsAs`).

A number between the midpoints around a word is scaled with an error of less than
two and a half steps (`exact_le`, `le_exact`).  Below the first number of a binade
the steps are smaller, but there the error is as well.
-/

open BinaryFormat (double)

namespace BinaryFormat

/-- So many words on, a number has grown by at least as many steps. -/
theorem number_add_mul_le (format : BinaryFormat) (word more : Nat) :
    format.number word + more * (format.number (word + 1) - format.number word) ≤
      format.number (word + more) := by
  have grown := format.units_add_mul_le word more
  have step := (format.units_succ word).le
  have grownCast :
      (format.units word : ℚ) +
          more * (format.units (word + 1) - format.units word) ≤
        format.units (word + more) := by
    rw [← Nat.cast_sub step]
    exact_mod_cast grown
  have one_pos := format.unitsPerOne_cast_pos
  simp only [number, ← sub_div, ← mul_div_assoc, ← add_div]
  exact div_le_div_of_nonneg_right grownCast one_pos.le

end BinaryFormat

section Drift

variable {exact decimal : ℚ} {word before : Nat}

/-- Half a unit is at most half a step of any level. -/
theorem halfUnit_le_halfStep (level : Nat) :
    halfUnit ≤ 2 ^ level / double.unitsPerOne / 2 := by
  have one_pos := double.unitsPerOne_cast_pos
  have atLeastOne : (1 : ℚ) ≤ 2 ^ level := one_le_pow₀ (by norm_num)
  rw [halfUnit, div_div, mul_comm (double.unitsPerOne : ℚ)]
  exact div_le_div_of_nonneg_right atLeastOne (mul_pos two_pos one_pos).le

/--
A number below the midpoint above a word is not scaled to more than three words
above it.
-/
theorem exact_le
    (near : |exact - decimal| ≤ max halfUnit (9 / 2 ^ 55 * decimal))
    (upper : decimal ≤ double.midpoint word) :
    exact ≤ double.number (word + 3) := by
  obtain ⟨level, count, -, -, within, number_eq, next_eq, midpoint_eq⟩ :=
    double.exists_step word
  have grown := double.number_add_mul_le word 3
  have half := halfUnit_le_halfStep level
  have stepPositive : (0 : ℚ) < 2 ^ level / double.unitsPerOne :=
    div_pos (by positivity) double.unitsPerOne_cast_pos
  have countCast : (count : ℚ) + 1 ≤ 2 ^ 53 := by
    have : count + 1 ≤ 2 ^ 53 := within
    exact_mod_cast this
  rw [number_eq, next_eq] at grown
  rw [midpoint_eq] at upper
  generalize (2 : ℚ) ^ level / double.unitsPerOne = step at *
  have difference := (abs_le.mp near).2
  have steps : (count : ℚ) * step + step ≤ 2 ^ 53 * step := by nlinarith
  push_cast at grown
  rcases max_cases halfUnit (9 / 2 ^ 55 * decimal) with ⟨isHalf, -⟩ | ⟨isPart, -⟩
  · rw [isHalf] at difference
    linarith
  · rw [isPart] at difference
    linarith

/-- In the same binade, two words below a word are two steps. -/
theorem number_sub_two_of_binade
    {level count : Nat}
    (sameBinade : level = 0 ∨ double.hiddenBit ≤ count - 2)
    (twoSteps : 2 ≤ count)
    (within : count < 2 * double.hiddenBit) :
    double.number (level * double.hiddenBit + count - 2) =
      (count - 2) * (2 ^ level / double.unitsPerOne) := by
  have shape :
      level * double.hiddenBit + count - 2 =
        level * double.hiddenBit + (count - 2) := by
    omega
  rw [shape, BinaryFormat.number, double.units_place sameBinade (by omega),
    Nat.cast_mul, Nat.cast_sub twoSteps, mul_div_assoc]
  push_cast
  rfl

/-- Where a binade begins, two words below a word are more than one step. -/
theorem number_sub_two_le_of_next_binade
    {lower count : Nat}
    (reached : double.hiddenBit ≤ count)
    (first : count < double.hiddenBit + 2) :
    double.number ((lower + 1) * double.hiddenBit + count - 2) ≤
      (count - 1) * (2 ^ (lower + 1) / double.unitsPerOne) := by
  have hiddenBit_eq : double.hiddenBit = 2 ^ 52 := rfl
  have shape :
      (lower + 1) * double.hiddenBit + count - 2 =
        lower * double.hiddenBit + (double.hiddenBit + count - 2) := by
    rw [Nat.add_one_mul]
    omega
  have lowerNormal : lower = 0 ∨ double.hiddenBit ≤ double.hiddenBit + count - 2 :=
    .inr (by omega)
  have halved : ((double.hiddenBit + count - 2 : Nat) : ℚ) ≤ 2 * (count - 1) := by
    have : double.hiddenBit + count - 2 + 2 ≤ 2 * count := by omega
    have cast : ((double.hiddenBit + count - 2 : Nat) : ℚ) + 2 ≤ 2 * count := by
      exact_mod_cast this
    linarith
  have lowerStep : (0 : ℚ) ≤ 2 ^ lower / double.unitsPerOne :=
    div_nonneg (by positivity) double.unitsPerOne_cast_pos.le
  rw [shape, BinaryFormat.number, double.units_place lowerNormal (by omega),
    Nat.cast_mul, Nat.cast_pow, mul_div_assoc]
  calc
    ((double.hiddenBit + count - 2 : Nat) : ℚ) *
      ((2 : Nat) ^ lower / double.unitsPerOne)
        ≤ 2 * (count - 1) * (2 ^ lower / double.unitsPerOne) :=
          mul_le_mul_of_nonneg_right halved lowerStep
    _ = (count - 1) * (2 ^ (lower + 1) / double.unitsPerOne) := by
        rw [pow_succ]
        ring

/--
Two words below a word are two steps, or more than one when the binade begins in
between, in the lower half of its numbers; or there are no two words below it.
-/
theorem number_sub_two_le
    {level count : Nat}
    (normal : level = 0 ∨ double.hiddenBit ≤ count)
    (within : count < 2 * double.hiddenBit) :
    let step : ℚ := 2 ^ level / double.unitsPerOne
    let earlier := double.number (level * double.hiddenBit + count - 2)
    earlier ≤ (count - 2) * step ∨
      count ≤ 2 ^ 52 + 1 ∧ earlier ≤ (count - 1) * step ∨ earlier = 0 := by
  intro step earlier
  have hiddenBit_eq : double.hiddenBit = 2 ^ 52 := rfl
  rcases Nat.lt_or_ge count 2 with few | twoSteps
  · -- Only the lowest binade has so few steps.
    obtain rfl : level = 0 := normal.resolve_right (by omega)
    have lowest : 0 * double.hiddenBit + count - 2 = 0 := by omega
    have none : double.units 0 = 0 := rfl
    refine .inr (.inr ?_)
    simp only [earlier, lowest, BinaryFormat.number]
    rw [none, Nat.cast_zero, zero_div]
  · by_cases sameBinade : level = 0 ∨ double.hiddenBit ≤ count - 2
    · exact .inl (number_sub_two_of_binade sameBinade twoSteps within).le
    · obtain ⟨lower, rfl⟩ :=
        Nat.exists_eq_add_one_of_ne_zero fun zero => sameBinade (.inl zero)
      have reached := normal.resolve_left (Nat.succ_ne_zero lower)
      exact
        .inr (.inl ⟨by omega, number_sub_two_le_of_next_binade reached (by omega)⟩)

/--
A number above the midpoint below a word is not scaled to more than three words
below it.
-/
theorem le_exact
    (near : |exact - decimal| ≤ max halfUnit (9 / 2 ^ 55 * decimal))
    (lower : double.midpoint before ≤ decimal) :
    double.number (before - 2) ≤ exact := by
  obtain ⟨level, count, rfl, normal, within, -, -, midpoint_eq⟩ :=
    double.exists_step before
  have earlier := number_sub_two_le normal within
  have half := halfUnit_le_halfStep level
  have stepPositive : (0 : ℚ) < 2 ^ level / double.unitsPerOne :=
    div_pos (by positivity) double.unitsPerOne_cast_pos
  have countNonneg : (0 : ℚ) ≤ count := Nat.cast_nonneg count
  have countCast : (count : ℚ) + 1 ≤ 2 ^ 53 := by
    have : count + 1 ≤ 2 ^ 53 := within
    exact_mod_cast this
  simp only at earlier
  rw [midpoint_eq] at lower
  generalize double.number (level * double.hiddenBit + count - 2) =
    result at earlier ⊢
  generalize (2 : ℚ) ^ level / double.unitsPerOne = step at *
  have difference := (abs_le.mp near).1
  have steps : (count : ℚ) * step + step ≤ 2 ^ 53 * step := by nlinarith
  have someSteps : 0 ≤ (count : ℚ) * step := mul_nonneg countNonneg stepPositive.le
  rcases max_cases halfUnit (9 / 2 ^ 55 * decimal) with ⟨isHalf, -⟩ | ⟨isPart, -⟩
  · rw [isHalf] at difference
    rcases earlier with two | ⟨-, one⟩ | zero <;> linarith
  · rw [isPart] at difference
    rcases earlier with two | ⟨first, one⟩ | zero
    · linarith
    · have firstCast : (count : ℚ) ≤ 2 ^ 52 + 1 := by exact_mod_cast first
      nlinarith
    · linarith

end Drift

/--
The digits and the power of ten that are written for a word are scaled to a word
nearby.
-/
structure ReadsAs (word read : Nat) (number : JsonNumber) : Prop where
  scaled : scaleSignificand? number.significand number.power = some read
  finite : read < double.infinityWord
  near : read.dist word ≤ 3
  exact : number.significand ≤ 2 ^ 53 → number.power.natAbs ≤ 22 → read = word

section Written

variable {decimal : Decimal} {negative : Bool} {number : JsonNumber} {word : Nat}

/-- Every midpoint is at least half a unit away from zero. -/
theorem halfUnit_le_midpoint (word : Nat) : halfUnit ≤ double.midpoint word := by
  obtain ⟨level, count, -, -, -, -, -, midpoint_eq⟩ := double.exists_step word
  have half := halfUnit_le_halfStep level
  have odd : (1 : ℚ) ≤ 2 * count + 1 := by
    have := Nat.cast_nonneg (α := ℚ) count
    linarith
  rw [midpoint_eq]
  exact half.trans (le_mul_of_one_le_left (halfUnit_pos.le.trans half) odd)

/-- So many digits with a smaller power of ten would be less than half a unit. -/
theorem le_power_of_halfUnit_le
    (short : number.significand < 10 ^ 17)
    (notTiny : halfUnit ≤ number.significand * 10 ^ number.power) :
    -(2 * largestTenPower : Nat) ≤ number.power := by
  have units : 10 ^ 17 * (2 * double.unitsPerOne) < 10 ^ (2 * largestTenPower) := by
    decide +kernel
  have unitsCast :
      (10 : ℚ) ^ 17 * (2 * double.unitsPerOne) < 10 ^ (2 * largestTenPower) := by
    exact_mod_cast units
  have shortCast : (number.significand : ℚ) ≤ 10 ^ 17 := by exact_mod_cast short.le
  by_contra below
  have powerSmall :
      (10 : ℚ) ^ number.power ≤ 10 ^ (-(2 * largestTenPower : Nat) : ℤ) :=
    zpow_le_zpow_right₀ (by norm_num) (by omega)
  have tiny :
      (10 : ℚ) ^ 17 * 10 ^ (-(2 * largestTenPower : Nat) : ℤ) < halfUnit := by
    rw [zpow_neg, zpow_natCast, ← div_eq_mul_inv, halfUnit,
      div_lt_div_iff₀ (by positivity) (mul_pos two_pos double.unitsPerOne_cast_pos),
      one_mul]
    exact unitsCast
  have atMost :=
    mul_le_mul shortCast powerSmall (by positivity) (by positivity)
  exact absurd (notTiny.trans atMost) (not_le.mpr tiny)

/--
A digit with a larger power of ten would be more than any number of the format.
-/
theorem power_le_of_le_number
    (positive : 0 < number.significand)
    (notHuge :
      number.significand * 10 ^ number.power ≤ double.number double.infinityWord) :
    number.power ≤ largestTenPower := by
  have units :
      double.units double.infinityWord <
        10 ^ (largestTenPower + 1) * double.unitsPerOne := by
    decide +kernel
  have unitsCast :
      (double.units double.infinityWord : ℚ) <
        10 ^ (largestTenPower + 1) * double.unitsPerOne := by
    exact_mod_cast units
  have atLeastOne : (1 : ℚ) ≤ number.significand := by exact_mod_cast positive
  by_contra above
  have powerLarge :
      (10 : ℚ) ^ ((largestTenPower + 1 : Nat) : ℤ) ≤ 10 ^ number.power :=
    zpow_le_zpow_right₀ (by norm_num) (by omega)
  rw [zpow_natCast] at powerLarge
  have huge : double.number double.infinityWord < 10 ^ (largestTenPower + 1) := by
    rw [BinaryFormat.number, div_lt_iff₀ double.unitsPerOne_cast_pos]
    exact unitsCast
  have atLeast : (10 : ℚ) ^ number.power ≤ number.significand * 10 ^ number.power :=
    le_mul_of_one_le_left (by positivity) atLeastOne
  exact absurd (powerLarge.trans (atLeast.trans notHuge)) (not_le.mpr huge)

/--
What is written for a word that is not among the largest ones is read as a word
nearby.
-/
theorem exists_readsAs_of_fits
    (layout : Decimal.Layout decimal negative doublePositional number)
    (positive : 0 < word)
    (inside : word + 3 < double.infinityWord)
    (fits : double.Fits word decimal)
    (short : decimal.coefficient < 10 ^ 17) :
    ∃ read, ReadsAs word read number := by
  obtain ⟨before, rfl⟩ := Nat.exists_eq_add_one_of_ne_zero positive.ne'
  have shortSignificand : number.significand < 10 ^ 17 :=
    layout.significand_lt short (by decide)
  have product := layout.significand_mul
  have lower : double.midpoint before ≤ decimal.number := fits.midpoint_le
  have upper : decimal.number ≤ double.midpoint (before + 1) := fits.le_midpoint
  have notTiny : halfUnit ≤ decimal.number :=
    (halfUnit_le_midpoint before).trans lower
  have notHuge : decimal.number ≤ double.number double.infinityWord :=
    upper.trans ((double.midpoint_lt_number _).le.trans
      (double.strictMono_number.monotone (by omega)))
  rw [← product] at notTiny notHuge
  have someDigit : 0 < number.significand := by
    by_contra none
    rw [Nat.eq_zero_of_not_pos none, Nat.cast_zero, zero_mul] at notTiny
    exact absurd notTiny (not_le.mpr halfUnit_pos)
  obtain ⟨read, exact, rounds, near, scaled⟩ :=
    exists_reading someDigit (shortSignificand.trans (by decide))
      (le_power_of_halfUnit_le shortSignificand notTiny)
      (power_le_of_le_number someDigit notHuge)
  rw [product] at near
  have notAbove : read ≤ before + 1 + 3 := rounds.le inside.le (exact_le near upper)
  have notBelow : before - 2 ≤ read := rounds.ge (by omega) (le_exact near lower)
  have finite : read < double.infinityWord := notAbove.trans_lt inside
  refine ⟨read, scaled finite, finite, ?_, fun small within => ?_⟩
  · unfold Nat.dist
    omega
  · obtain ⟨word, scaledExact, roundsExact, -⟩ :=
      scaleSignificand?_of_exact someDigit small within
    obtain rfl := Option.some.inj ((scaled finite).symm.trans scaledExact)
    rw [product] at roundsExact
    exact roundsExact.eq_of_between (by decide) (by omega) fits.lower fits.upper

/--
The largest three words are written with so many digits that scaling cannot be
exact.
-/
theorem readsAs_top :
    ∀ negative : Bool,
      ∀ word ∈ [double.infinityWord - 1, double.infinityWord - 2,
          double.infinityWord - 3],
        let number :=
          (double.shortestDecimal .even word).toJsonNumber negative doublePositional
        22 < number.power.natAbs ∧
          ∃ read ∈ scaleSignificand? number.significand number.power,
            read < double.infinityWord ∧ read.dist word ≤ 3 := by
  decide +kernel

/--
What is written for a finite word that is not zero is read as a finite word nearby.
-/
theorem exists_readsAs
    (negative : Bool)
    (positive : 0 < word)
    (finite : word < double.infinityWord) :
    ∃ read,
      ReadsAs word read
        ((double.shortestDecimal .even word).toJsonNumber negative
          doublePositional) := by
  rcases Nat.lt_or_ge (word + 3) double.infinityWord with inside | top
  · obtain ⟨fits, short⟩ :=
      BinaryFormat.fits_shortestDecimal .even positive
        BinaryFormat.enoughDigits_double
    exact
      exists_readsAs_of_fits
        (Decimal.layout_toJsonNumber _ negative doublePositional) positive inside
        fits (short.trans_le (Nat.pow_le_pow_right (by decide) (by decide)))
  · have listed :
        word ∈
          [double.infinityWord - 1, double.infinityWord - 2,
            double.infinityWord - 3] := by
      simp only [List.mem_cons, List.not_mem_nil, or_false]
      omega
    obtain ⟨longPower, read, scaled, finiteRead, near⟩ :=
      readsAs_top negative word listed
    exact
      ⟨read, scaled, finiteRead, near,
        fun _ within => absurd longPower (not_lt.mpr within)⟩

end Written

end StreamJoin
