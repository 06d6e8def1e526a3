import StreamJoin.Proofs.NearMidpoints
import StreamJoin.Proofs.WrittenDecimals

namespace StreamJoin

/-!
# Reading 32-bit numbers

A 32-bit number is read as a 64-bit one, which is then rounded to 32 bits.  The
decimal that is written for a word lies between the midpoints around the word, and
what is read lies on the same sides of them (`sameSide_midpoint`): it could miss
only near a midpoint, and there is no such decimal but the near misses, which are
read on the right side.  So every finite word is read back
(`toSingle_shortestDecimal`).
-/

open BinaryFormat (single double)

section SameSide

variable {bound left right : ℚ}

/-- Two numbers lie on the same side of a third one. -/
structure SameSide (bound left right : ℚ) : Prop where
  below : left < bound → right < bound
  same : left = bound → right = bound
  above : bound < left → bound < right

/-- Two numbers below a bound are on the same side of it. -/
theorem SameSide.of_lt (leftBelow : left < bound) (rightBelow : right < bound) :
    SameSide bound left right :=
  ⟨fun _ => rightBelow, fun same => absurd same leftBelow.ne,
    fun above => absurd above leftBelow.not_gt⟩

/-- Two numbers above a bound are on the same side of it. -/
theorem SameSide.of_gt (leftAbove : bound < left) (rightAbove : bound < right) :
    SameSide bound left right :=
  ⟨fun below => absurd below leftAbove.not_gt,
    fun same => absurd same leftAbove.ne', fun _ => rightAbove⟩

/-- What is off by less than the distance stays on the same side. -/
theorem sameSide_of_far
    {error : ℚ}
    (near : |right - left| ≤ error)
    (far : error < |left - bound|) :
    SameSide bound left right := by
  have bounds := abs_le.mp near
  rcases lt_or_ge left bound with below | notBelow
  · rw [abs_of_neg (sub_neg.mpr below)] at far
    exact .of_lt below (by linarith)
  · rw [abs_of_nonneg (sub_nonneg.mpr notBelow)] at far
    have error_nonneg := (abs_nonneg _).trans near
    exact .of_gt (by linarith) (by linarith)

end SameSide

/-- One is 2 ^ 149 units of a single. -/
theorem cast_unitsPerOne_single : (single.unitsPerOne : ℚ) = 2 ^ (149 : ℤ) := by
  rw [BinaryFormat.unitsPerOne_eq]
  norm_num [BinaryFormat.unitExponent, single]

/--
A midpoint of 32-bit numbers is an odd multiple of a power of two, half a step from
both.
-/
theorem exists_midpoint_single
    {word : Nat}
    (finite : word < single.infinityWord) :
    ∃ (odd : Nat) (twoPower : ℤ),
      odd % 2 = 1 ∧ odd < 2 ^ 25 ∧ -150 ≤ twoPower ∧ twoPower ≤ 103 ∧
        single.midpoint word = odd * 2 ^ twoPower ∧
        single.midpoint word - single.number word = 2 ^ twoPower ∧
        single.number (word + 1) - single.midpoint word = 2 ^ twoPower := by
  obtain ⟨level, count, rfl, normal, within, number_eq, next_eq, midpoint_eq⟩ :=
    single.exists_step word
  have hiddenBit_eq : single.hiddenBit = 2 ^ 23 := rfl
  have infinityWord_eq : single.infinityWord = 255 * 2 ^ 23 := rfl
  have halfStep :
      (2 : ℚ) ^ level / single.unitsPerOne / 2 = 2 ^ (level - 150 : ℤ) := by
    have nonzero : (2 : ℚ) ≠ 0 := two_ne_zero
    rw [cast_unitsPerOne_single, ← zpow_natCast, ← zpow_sub₀ nonzero,
      div_eq_mul_inv, ← zpow_sub_one₀ nonzero]
    congr 1
    omega
  rw [hiddenBit_eq] at normal within
  rw [hiddenBit_eq, infinityWord_eq] at finite
  refine
    ⟨2 * count + 1, level - 150, by omega, by omega, by omega, by omega, ?_, ?_, ?_⟩
  · rw [midpoint_eq, halfStep]
    push_cast
    ring
  · rw [midpoint_eq, number_eq, ← halfStep]
    ring
  · rw [midpoint_eq, next_eq, ← halfStep]
    ring

/-- A power of two above the unit is a whole number of units. -/
theorem two_zpow_mul_unitsPerOne
    {twoPower : ℤ}
    (lowest : -(double.unitExponent : ℤ) ≤ twoPower) :
    (2 : ℚ) ^ twoPower * double.unitsPerOne =
      (2 ^ (twoPower + double.unitExponent).toNat : Nat) := by
  have nonzero : (2 : ℚ) ≠ 0 := two_ne_zero
  rw [BinaryFormat.unitsPerOne_eq, Nat.cast_pow, Nat.cast_pow, Nat.cast_ofNat,
    ← zpow_natCast, ← zpow_natCast, ← zpow_add₀ nonzero]
  congr 1
  omega

/--
A number of at most 53 bits times a power of two is the number of a 64-bit word.
-/
theorem exists_number_eq
    {odd : Nat}
    {twoPower : ℤ}
    (bounded : odd ≤ 2 ^ 53)
    (lowest : -150 ≤ twoPower)
    (highest : twoPower ≤ 103) :
    ∃ word < double.infinityWord, double.number word = odd * 2 ^ twoPower := by
  have unitExponent_eq : double.unitExponent = 1074 := rfl
  have exponents : 2 ^ double.exponentBits = 2048 := rfl
  have low :
      (twoPower + double.unitExponent).toNat + 2 < 2 ^ double.exponentBits - 1 := by
    omega
  have within : odd ≤ 2 * double.hiddenBit := bounded
  refine
    ⟨double.roundUnits (odd * 2 ^ (twoPower + double.unitExponent).toNat) 1,
      double.roundUnits_lt_infinityWord low (Nat.mul_le_mul_right _ within), ?_⟩
  rw [BinaryFormat.number, double.units_roundUnits_of_steps low within,
    div_eq_iff double.unitsPerOne_ne_zero, mul_assoc,
    two_zpow_mul_unitsPerOne (by omega)]
  push_cast
  rfl

/-- What is known about the word that is read for a decimal. -/
structure Reading (decimal : Decimal) (word : Nat) : Prop where
  finite : word < double.infinityWord
  near :
    |double.number word - decimal.number| ≤
      readingError decimal.exponent * decimal.number
  rounds : decimal.exponent.natAbs ≤ 12 → double.RoundsTo decimal.number word
  scaled :
    decimal.exponent < 0 →
      scaleSignificand? decimal.coefficient decimal.exponent = some word

/-- The near misses are read as numbers on their side of the midpoint. -/
theorem nearMisses_read :
    ∀ miss ∈ nearMisses,
      ∃ word ∈ scaleSignificand? miss.decimal miss.power,
        double.units word <
          miss.odd * 2 ^ (miss.twoPower + double.unitExponent).toNat ∧
            miss.decimal * 2 ^ (-miss.twoPower).toNat <
              miss.odd * 10 ^ (-miss.power).toNat ∨
          miss.odd * 2 ^ (miss.twoPower + double.unitExponent).toNat <
              double.units word ∧
            miss.odd * 10 ^ (-miss.power).toNat <
              miss.decimal * 2 ^ (-miss.twoPower).toNat := by
  decide +kernel

/-- A negative power is cancelled by the power that is its inverse. -/
theorem mul_zpow_mul_cancel
    {base : ℚ}
    {power : ℤ}
    (count other : ℚ)
    (nonzero : base ≠ 0)
    (negative : power < 0) :
    count * base ^ power * (base ^ (-power).toNat * other) = count * other := by
  have one : base ^ power * base ^ (-power).toNat = 1 := by
    rw [PowerPair.zpow_mul_toNat base nonzero, Int.toNat_of_nonpos negative.le,
      pow_zero]
  calc
    count * base ^ power * (base ^ (-power).toNat * other)
      = count * other * (base ^ power * base ^ (-power).toNat) := by ring
    _ = count * other := by rw [one, mul_one]

/-- With negative powers, a decimal and a midpoint are compared as whole numbers. -/
theorem scaled_by_inverse_powers
    {decimal : Decimal}
    {twoPower : ℤ}
    (odd : Nat)
    (negative : decimal.exponent < 0 ∧ twoPower < 0) :
    decimal.number * (10 ^ (-decimal.exponent).toNat * 2 ^ (-twoPower).toNat) =
        (decimal.coefficient * 2 ^ (-twoPower).toNat : Nat) ∧
      odd * (2 : ℚ) ^ twoPower *
          (10 ^ (-decimal.exponent).toNat * 2 ^ (-twoPower).toNat) =
        (odd * 10 ^ (-decimal.exponent).toNat : Nat) := by
  push_cast
  constructor
  · exact mul_zpow_mul_cancel _ _ (by norm_num) negative.1
  · rw [mul_comm ((10 : ℚ) ^ (-decimal.exponent).toNat)]
    exact mul_zpow_mul_cancel _ _ two_ne_zero negative.2

/-- A decimal that nearly misses a midpoint is read on its own side of it. -/
theorem sameSide_of_mem_nearMisses
    {decimal : Decimal}
    {odd word : Nat}
    {twoPower : ℤ}
    (lowest : -150 ≤ twoPower)
    (reading : Reading decimal word)
    (miss : ⟨decimal.exponent, decimal.coefficient, twoPower, odd⟩ ∈ nearMisses) :
    SameSide (odd * 2 ^ twoPower) decimal.number (double.number word) := by
  have one_pos := double.unitsPerOne_cast_pos
  have unitExponent_eq : double.unitExponent = 1074 := rfl
  have negative : decimal.exponent < 0 ∧ twoPower < 0 :=
    (by decide : ∀ miss ∈ nearMisses, miss.power < 0 ∧ miss.twoPower < 0) _ miss
  obtain ⟨found, scaled, sides⟩ := nearMisses_read _ miss
  obtain rfl : word = found :=
    Option.some.inj ((reading.scaled negative.1).symm.trans scaled)
  have word_eq := double.number_mul_unitsPerOne word
  have midpoint_eq :
      (odd : ℚ) * 2 ^ twoPower * double.unitsPerOne =
        (odd * 2 ^ (twoPower + double.unitExponent).toNat : Nat) := by
    rw [mul_assoc, two_zpow_mul_unitsPerOne (by omega)]
    push_cast
    rfl
  have scale :
      (0 : ℚ) < 10 ^ (-decimal.exponent).toNat * 2 ^ (-twoPower).toNat := by
    positivity
  obtain ⟨decimalScaled, midpointScaled⟩ := scaled_by_inverse_powers odd negative
  rcases sides with ⟨wordBelow, decimalBelow⟩ | ⟨wordAbove, decimalAbove⟩
  · exact
      .of_lt
        ((lt_iff_of_mul_eq scale decimalScaled midpointScaled).mpr decimalBelow)
        ((lt_iff_of_mul_eq one_pos word_eq midpoint_eq).mpr wordBelow)
  · exact
      .of_gt
        ((lt_iff_of_mul_eq scale midpointScaled decimalScaled).mpr decimalAbove)
        ((lt_iff_of_mul_eq one_pos midpoint_eq word_eq).mpr wordAbove)

/--
A decimal near a midpoint is no finer than the distance from the midpoint to a
neighbour.
-/
theorem coarse_of_near
    {decimal : Decimal}
    {odd : Nat}
    {twoPower : ℤ}
    {neighbour : ℚ}
    (bounded : odd < 2 ^ 25)
    (positive : 0 < decimal.number)
    (halfStep : |odd * 2 ^ twoPower - neighbour| = 2 ^ twoPower)
    (close : |decimal.number - neighbour| ≤ 10 ^ decimal.exponent)
    (near :
      |decimal.number - odd * 2 ^ twoPower| ≤
        readingError decimal.exponent * decimal.number) :
    (2 : ℚ) ^ twoPower * (1 - 1 / 2 ^ 26) ≤ 10 ^ decimal.exponent := by
  have two_pos : (0 : ℚ) < 2 ^ twoPower := by positivity
  have boundedCast : (odd : ℚ) ≤ 2 ^ 25 := by exact_mod_cast bounded.le
  have error : readingError decimal.exponent ≤ 257 / 2 ^ 60 := by
    unfold readingError
    split <;> norm_num
  have errorSmall := mul_le_mul_of_nonneg_right error positive.le
  have midpointSmall : (odd : ℚ) * 2 ^ twoPower ≤ 2 ^ 25 * 2 ^ twoPower :=
    mul_le_mul_of_nonneg_right boundedCast two_pos.le
  have distance := (abs_le.mp near).2
  have triangle := abs_sub_le (odd * 2 ^ twoPower : ℚ) decimal.number neighbour
  rw [halfStep, abs_sub_comm (odd * 2 ^ twoPower : ℚ)] at triangle
  linarith

/--
What is read for a decimal close to a neighbour of a midpoint lies on the same side
of it.
-/
theorem sameSide_midpoint
    {decimal : Decimal}
    {read word : Nat}
    {neighbour : ℚ}
    (finite : word < single.infinityWord)
    (positive : 0 < decimal.coefficient)
    (reading : Reading decimal read)
    (isNeighbour :
      neighbour = single.number word ∨ neighbour = single.number (word + 1))
    (close : |decimal.number - neighbour| ≤ 10 ^ decimal.exponent) :
    SameSide (single.midpoint word) decimal.number (double.number read) := by
  obtain ⟨odd, twoPower, isOdd, bounded, lowest, highest, midpoint_eq, below,
    above⟩ := exists_midpoint_single finite
  have two_pos : (0 : ℚ) < 2 ^ twoPower := by positivity
  have halfStep : |odd * 2 ^ twoPower - neighbour| = 2 ^ twoPower := by
    rw [← midpoint_eq]
    rcases isNeighbour with rfl | rfl
    · rw [below, abs_of_pos two_pos]
    · rw [abs_sub_comm, above, abs_of_pos two_pos]
  have decimalPositive : 0 < decimal.number :=
    mul_pos (Nat.cast_pos.mpr positive) (by positivity)
  rw [midpoint_eq]
  rcases lt_or_ge (readingError decimal.exponent * decimal.number)
      |decimal.number - odd * 2 ^ twoPower| with far | near
  · exact sameSide_of_far reading.near far
  · have coarse := coarse_of_near bounded decimalPositive halfStep close near
    rcases near_midpoint positive isOdd bounded lowest highest coarse near with
      ⟨small, same⟩ | miss
    · obtain ⟨exact, finiteExact, exact_eq⟩ :=
        exists_number_eq (bounded.le.trans (by decide)) lowest highest
      have read_eq : read = exact :=
        (reading.rounds small).eq_of_number finiteExact.le
          (same.trans exact_eq.symm)
      have decimal_eq : decimal.number = odd * 2 ^ twoPower := same
      rw [read_eq, exact_eq, decimal_eq]
      exact ⟨id, id, id⟩
    · exact sameSide_of_mem_nearMisses lowest reading miss

section Written

variable {decimal : Decimal} {negative : Bool} {number : JsonNumber}

/-- The power of ten of the last digit of a 32-bit number is not far from zero. -/
theorem natAbs_power_le
    (layout : Decimal.Layout decimal negative singlePositional number)
    (short : number.significand < 10 ^ 14)
    (lower : 2 ^ (-150 : ℤ) ≤ decimal.number)
    (upper : decimal.number ≤ 2 ^ (128 : ℤ)) :
    number.power.natAbs ≤ 100 := by
  have product := layout.significand_mul
  have shortCast : (number.significand : ℚ) ≤ 10 ^ 14 := by exact_mod_cast short.le
  have notBelow : -100 ≤ number.power := by
    by_contra below
    have powerSmall : (10 : ℚ) ^ number.power ≤ 10 ^ (-101 : ℤ) :=
      zpow_le_zpow_right₀ (by norm_num) (by omega)
    have decimalSmall : decimal.number ≤ 10 ^ 14 * 10 ^ (-101 : ℤ) := by
      rw [← product]
      exact mul_le_mul shortCast powerSmall (by positivity) (by norm_num)
    have apart : (10 : ℚ) ^ 14 * 10 ^ (-101 : ℤ) < 2 ^ (-150 : ℤ) := by norm_num
    exact absurd (lower.trans decimalSmall) (not_le.mpr apart)
  have notAbove : number.power ≤ 100 := by
    by_contra above
    have powerLarge : (10 : ℚ) ^ (101 : ℤ) ≤ 10 ^ number.power :=
      zpow_le_zpow_right₀ (by norm_num) (by omega)
    have someDigit : (1 : ℚ) ≤ number.significand := by
      have nonzero : number.significand ≠ 0 := by
        intro zero
        rw [zero, Nat.cast_zero, zero_mul] at product
        rw [← product] at lower
        exact absurd lower (not_le.mpr (by positivity))
      exact_mod_cast Nat.one_le_iff_ne_zero.mpr nonzero
    have decimalLarge : (10 : ℚ) ^ (101 : ℤ) ≤ decimal.number := by
      rw [← product]
      exact powerLarge.trans (le_mul_of_one_le_left (by positivity) someDigit)
    have apart : (2 : ℚ) ^ (128 : ℤ) < 10 ^ (101 : ℤ) := by norm_num
    exact absurd (decimalLarge.trans upper) (not_le.mpr apart)
  omega

/-- A decimal that is laid out is read as a word of which everything is known. -/
theorem exists_reading_single
    (layout : Decimal.Layout decimal negative singlePositional number)
    (short : decimal.coefficient < 10 ^ 14)
    (lower : 2 ^ (-150 : ℤ) ≤ decimal.number)
    (upper : decimal.number ≤ 2 ^ (128 : ℤ)) :
    ∃ read,
      scaleSignificand? number.significand number.power = some read ∧
        Reading decimal read := by
  have shortSignificand : number.significand < 10 ^ 14 :=
    layout.significand_lt short (by decide)
  have small : number.significand ≤ 2 ^ 53 := shortSignificand.le.trans (by decide)
  have within := natAbs_power_le layout shortSignificand lower upper
  have product := layout.significand_mul
  have positive : 0 < number.significand := by
    by_contra none
    rw [Nat.eq_zero_of_not_pos none, Nat.cast_zero, zero_mul] at product
    rw [← product] at lower
    exact absurd lower (not_le.mpr (by positivity))
  obtain ⟨read, scaled, finite, near⟩ :=
    exists_scaleSignificand? positive small within
  rw [product] at near
  refine ⟨read, scaled, finite, ?_, fun smallPower => ?_, fun negativePower => ?_⟩
  · rcases layout.significand_power with
      ⟨-, power_eq⟩ | ⟨zeros, exponent_eq, bounded, -, power_eq⟩
    · rw [← power_eq]
      exact near
    · -- With a zero behind the point, both powers of ten are small.
      have digits : 0 < decimal.digits.length :=
        List.length_pos_iff.mpr (decimalDigits_ne_nil decimal.coefficient)
      have highest : singlePositional.highest = 12 := rfl
      unfold Decimal.leadingExponent at bounded
      have same : readingError decimal.exponent = readingError number.power := by
        rw [readingError, readingError, if_pos (by omega), if_pos (by omega)]
      rw [same]
      exact near
  · have exact : number.power.natAbs ≤ 22 := by
      rcases layout.significand_power with
        ⟨-, power_eq⟩ | ⟨zeros, -, -, -, power_eq⟩ <;> omega
    obtain ⟨word, scaledExact, rounds, -⟩ :=
      scaleSignificand?_of_exact positive small exact
    obtain rfl := Option.some.inj (scaled.symm.trans scaledExact)
    rwa [product] at rounds
  · rcases layout.significand_power with
      ⟨significand_eq, power_eq⟩ | ⟨zeros, exponent_eq, -, -, -⟩
    · rwa [significand_eq, power_eq] at scaled
    · omega

end Written

/-- A double with a sign is narrowed by its magnitude. -/
theorem narrowWord_withSign
    {negative : Bool}
    {word : Nat}
    (finite : word < double.infinityWord) :
    narrowWord (double.withSign negative word) =
      single.withSign negative
        (single.roundUnits (double.units word)
          (2 ^ (double.unitExponent - single.unitExponent))) := by
  have bound : double.infinityWord ≤ double.signBit := by decide
  have below : word < double.signBit := finite.trans_le bound
  have isNumber : ¬ double.infinityWord < word := by omega
  have isFinite : word ≠ double.infinityWord := by omega
  simp [narrowWord, BinaryFormat.isNaN, BinaryFormat.isInfinite, isNumber, isFinite,
    BinaryFormat.magnitude_withSign _ below,
    BinaryFormat.isNegative_withSign _ below]

/-- Narrowing rounds to the nearest single. -/
theorem roundsTo_narrow (word : Nat) :
    single.RoundsTo (double.number word)
      (single.roundUnits (double.units word)
        (2 ^ (double.unitExponent - single.unitExponent))) := by
  refine ⟨_, _, Nat.two_pow_pos _, ?_, rfl⟩
  have exponents :
      single.unitExponent + (double.unitExponent - single.unitExponent) =
        double.unitExponent := by
    decide
  have split :
      (double.unitsPerOne : ℚ) =
        single.unitsPerOne *
          (2 ^ (double.unitExponent - single.unitExponent) : Nat) := by
    rw [BinaryFormat.unitsPerOne_eq, BinaryFormat.unitsPerOne_eq, ← Nat.cast_mul,
      ← pow_add, exponents]
  have single_pos := single.unitsPerOne_cast_pos
  have scale : (0 : ℚ) < (2 ^ (double.unitExponent - single.unitExponent) : Nat) :=
    Nat.cast_pos.mpr (Nat.two_pow_pos _)
  rw [BinaryFormat.number, split]
  field_simp

/-- The word whose decimal is read is the one that the number is rounded to. -/
theorem roundUnits_reading
    {decimal : Decimal}
    {before read : Nat}
    (finite : before + 2 < single.infinityWord)
    (fits : single.Fits (before + 1) decimal)
    (reading : Reading decimal read) :
    single.roundUnits (double.units read)
        (2 ^ (double.unitExponent - single.unitExponent)) =
      before + 1 := by
  have lowerSide :=
    sameSide_midpoint (show before < _ by omega) fits.positive reading (.inr rfl)
      fits.near
  have upperSide :=
    sameSide_midpoint (show before + 1 < _ by omega) fits.positive reading
      (.inl rfl) fits.near
  refine (roundsTo_narrow read).eq_of_between (by decide) finite ?_ ?_
  · exact
      fits.lower.imp lowerSide.above fun tie =>
        ⟨(lowerSide.same tie.1.symm).symm, tie.2⟩
  · exact fits.upper.imp upperSide.below fun tie => ⟨upperSide.same tie.1, tie.2⟩

/-- The largest finite number is written with its shortest decimal and read back. -/
theorem toSingle_largest (negative : Bool) :
    ((single.shortestDecimal .even (single.infinityWord - 1)).toJsonNumber negative
          singlePositional).value?.map NumberValue.toSingle =
      some (single.withSign negative (single.infinityWord - 1)) := by
  revert negative
  decide +kernel

/-- What is written for a word lies far from the ends of the powers of ten. -/
theorem bounds_of_fits
    {decimal : Decimal}
    {before : Nat}
    (finite : before + 1 < single.infinityWord)
    (fits : single.Fits (before + 1) decimal) :
    2 ^ (-150 : ℤ) ≤ decimal.number ∧ decimal.number ≤ 2 ^ (128 : ℤ) := by
  obtain ⟨lowerOdd, lowerPower, isOdd, -, lowest, -, lower_eq, -⟩ :=
    exists_midpoint_single (show before < _ by omega)
  obtain ⟨upperOdd, upperPower, -, bounded, -, highest, upper_eq, -⟩ :=
    exists_midpoint_single finite
  constructor
  · have atLeastOne : (1 : ℚ) ≤ lowerOdd := by
      have : 1 ≤ lowerOdd := by omega
      exact_mod_cast this
    calc
      (2 : ℚ) ^ (-150 : ℤ) ≤ 2 ^ lowerPower :=
        zpow_le_zpow_right₀ (by norm_num) lowest
      _ ≤ lowerOdd * 2 ^ lowerPower :=
        le_mul_of_one_le_left (by positivity) atLeastOne
      _ = single.midpoint before := lower_eq.symm
      _ ≤ decimal.number := fits.midpoint_le
  · have oddCast : (upperOdd : ℚ) ≤ 2 ^ 25 := by exact_mod_cast bounded.le
    have power : (2 : ℚ) ^ upperPower ≤ 2 ^ (103 : ℤ) :=
      zpow_le_zpow_right₀ (by norm_num) highest
    calc
      decimal.number ≤ single.midpoint (before + 1) := fits.le_midpoint
      _ = upperOdd * 2 ^ upperPower := upper_eq
      _ ≤ 2 ^ 25 * 2 ^ (103 : ℤ) :=
        mul_le_mul oddCast power (by positivity) (by norm_num)
      _ = 2 ^ (128 : ℤ) := by norm_num

/--
What is written for a finite word that is not zero is read as the word, under its
sign.
-/
theorem toSingle_shortestDecimal
    {word : Nat}
    (negative : Bool)
    (positive : 0 < word)
    (finite : word < single.infinityWord) :
    ((single.shortestDecimal .even word).toJsonNumber negative
          singlePositional).value?.map NumberValue.toSingle =
      some (single.withSign negative word) := by
  obtain ⟨before, rfl⟩ := Nat.exists_eq_add_one_of_ne_zero positive.ne'
  rcases Nat.lt_or_ge (before + 2) single.infinityWord with inside | top
  · obtain ⟨fits, short⟩ :=
      BinaryFormat.fits_shortestDecimal .even positive
        BinaryFormat.enoughDigits_single
    set decimal := single.shortestDecimal .even (before + 1)
    have fewDigits : decimal.coefficient < 10 ^ 14 :=
      short.trans_le (Nat.pow_le_pow_right (by decide) (by decide))
    have layout := Decimal.layout_toJsonNumber decimal negative singlePositional
    obtain ⟨lower, upper⟩ := bounds_of_fits finite fits
    obtain ⟨read, scaled, reading⟩ :=
      exists_reading_single layout fewDigits lower upper
    rw [Decimal.value?_toJsonNumber fewDigits (by decide) (by decide), scaled]
    simp only [Option.map_some, NumberValue.toSingle]
    rw [narrowWord_withSign reading.finite, roundUnits_reading inside fits reading]
  · have largest : before + 1 = single.infinityWord - 1 := by omega
    rw [largest]
    exact toSingle_largest negative

end StreamJoin
