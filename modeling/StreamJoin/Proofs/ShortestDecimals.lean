import StreamJoin.Binary.Shortest
import StreamJoin.Proofs.DigitTexts
import StreamJoin.Proofs.RationalRounding

namespace StreamJoin

/-!
# Where shortest decimals lie

A decimal is written for a word only if it rounds back to the word, and with so many
digits as are sure to suffice there is one.  That is because the grid of these
decimals is finer than the interval of a word is wide, so that one of the two points
around the number lies in it (`RoundingInterval.exists_nearestMultiple`).

`BinaryFormat.fits_shortestDecimal` is what later proofs use: the decimal lies in
the interval, no farther from the number than the power of ten of its last digit,
and has few digits.
-/

namespace RoundingInterval

variable {interval : RoundingInterval} {tie : TieRule} {number step factor : Nat}

/--
A multiple that is found is one of the two around the number and lies in the
interval.
-/
theorem nearestMultiple?_eq_some
    (found : interval.nearestMultiple? tie number step = some factor) :
    interval.contains (factor * step) = true ∧
      (factor = number / step ∨ factor = number / step + 1) := by
  simp only [nearestMultiple?] at found
  split at found
  · cases found
  · cases found
    exact ⟨by assumption, .inl rfl⟩
  · cases found
    exact ⟨by assumption, .inr rfl⟩
  · rename_i belowIn aboveIn
    -- At a tie the factor below or above is taken, whichever is even.
    have even :
        number / step + number / step % 2 = number / step ∨
          number / step + number / step % 2 = number / step + 1 := by
      omega
    split at found
    · cases found
      exact ⟨belowIn, .inl rfl⟩
    · split at found
      · cases found
        exact ⟨aboveIn, .inr rfl⟩
      · cases tie with
        | up =>
            cases found
            exact ⟨aboveIn, .inr rfl⟩
        | even =>
            cases found
            rcases even with same | next
            · rw [same]
              exact ⟨belowIn, .inl rfl⟩
            · rw [next]
              exact ⟨aboveIn, .inr rfl⟩

/-- A point between the ends of an interval lies in the interval. -/
theorem contains_of_lt
    {point : Nat}
    (lower : interval.lower < point)
    (upper : point < interval.upper) :
    interval.contains point = true := by
  unfold contains
  split <;> simp [lower, upper, lower.le, upper.le]

/-- A point in an interval lies between the ends or is an end that counts. -/
theorem lt_or_eq_of_contains
    {point : Nat}
    (inside : interval.contains point = true) :
    (interval.lower < point ∨ interval.lower = point ∧ interval.closed = true) ∧
      (point < interval.upper ∨
        point = interval.upper ∧ interval.closed = true) := by
  unfold contains at inside
  split at inside
  · rename_i closed
    simp only [Bool.and_eq_true, decide_eq_true_eq] at inside
    exact
      ⟨inside.1.lt_or_eq.imp id (⟨·, closed⟩),
        inside.2.lt_or_eq.imp id (⟨·, closed⟩)⟩
  · simp only [Bool.and_eq_true, decide_eq_true_eq] at inside
    exact ⟨.inl inside.1, .inl inside.2⟩

/--
An interval around a number that is wider than the step has a multiple of the step.
-/
theorem exists_nearestMultiple
    (tie : TieRule)
    (lower : interval.lower < number)
    (upper : number < interval.upper)
    (fine : interval.lower + step < interval.upper)
    (positive : 0 < step) :
    ∃ factor, interval.nearestMultiple? tie number step = some factor := by
  have shape := Nat.div_add_mod' number step
  have remainder := Nat.mod_lt number positive
  have next := Nat.add_one_mul (number / step) step
  have oneInside :
      interval.contains (number / step * step) = true ∨
        interval.contains ((number / step + 1) * step) = true := by
    rcases Nat.lt_or_ge interval.lower (number / step * step) with above | notAbove
    · exact .inl (contains_of_lt above (by omega))
    · exact .inr (contains_of_lt (by omega) (by omega))
  simp only [nearestMultiple?]
  split
  · rename_i belowOut aboveOut
    rcases oneInside with belowIn | aboveIn
    · rw [belowIn] at belowOut
      cases belowOut
    · rw [aboveIn] at aboveOut
      cases aboveOut
  · exact ⟨_, rfl⟩
  · exact ⟨_, rfl⟩
  · repeat' split
    all_goals exact ⟨_, rfl⟩

end RoundingInterval

/-- The number that a decimal stands for. -/
def Decimal.number (decimal : Decimal) : ℚ :=
  decimal.coefficient * 10 ^ decimal.exponent

namespace BinaryFormat

variable (format : BinaryFormat)

/-- How many of the small units in which decimals are tried make one. -/
def smallUnitsPerOne : Nat := 2 * format.unitsPerOne * 10 ^ format.decimalShift

/-- The number of a word in small units. -/
def smallUnits (word : Nat) : Nat :=
  2 * format.units word * 10 ^ format.decimalShift

/-- The interval of the numbers that round to a word, in small units. -/
def smallInterval (word : Nat) : RoundingInterval where
  lower := (format.units (word - 1) + format.units word) * 10 ^ format.decimalShift
  upper := (format.units word + format.units (word + 1)) * 10 ^ format.decimalShift
  closed := word % 2 = 0

/--
How many digits the number of a word has when all digits that are ever tried are
whole.
-/
def wholeDigitCount (word : Nat) : Nat :=
  (decimalDigits (format.smallUnits word / (2 * format.unitsPerOne))).length

/--
The decimal with at most so many digits that is nearest to the number of a word.
-/
def decimalOfCount? (tie : TieRule) (word digitCount : Nat) : Option Decimal :=
  let dropped := format.wholeDigitCount word - digitCount
  ((format.smallInterval word).nearestMultiple? tie (format.smallUnits word)
      (2 * format.unitsPerOne * 10 ^ dropped)).map
    fun coefficient =>
      if coefficient = 10 ^ digitCount then
        ⟨1, (dropped + digitCount : Nat) - format.decimalShift⟩
      else
        ⟨coefficient, dropped - format.decimalShift⟩

/-- The shortest decimal is the one of the fewest digits that reads back. -/
theorem shortestDecimal_eq (tie : TieRule) (word : Nat) :
    format.shortestDecimal tie word =
      (((List.range format.sufficientDigits).map (· + 1)).findSome?
          (format.decimalOfCount? tie word)).getD
        ⟨format.units word, -format.unitExponent⟩ := rfl

/-- As a rational number, the count of small units in one is positive. -/
theorem smallUnitsPerOne_cast_pos : (0 : ℚ) < format.smallUnitsPerOne :=
  Nat.cast_pos.mpr
    (Nat.mul_pos (Nat.mul_pos two_pos format.unitsPerOne_pos)
      (Nat.pow_pos (Nat.succ_pos 9)))

/-- In small units, a word stands for a whole number. -/
theorem number_mul_smallUnitsPerOne (word : Nat) :
    format.number word * format.smallUnitsPerOne = format.smallUnits word := by
  have scaled := format.number_mul_unitsPerOne word
  rw [smallUnitsPerOne, smallUnits]
  push_cast
  rw [← scaled]
  ring

/-- In small units, a midpoint is a whole number. -/
theorem midpoint_mul_smallUnitsPerOne (word : Nat) :
    format.midpoint word * format.smallUnitsPerOne =
      ((format.units word + format.units (word + 1)) *
        10 ^ format.decimalShift : Nat) := by
  have scaled := format.number_mul_unitsPerOne word
  have nextScaled := format.number_mul_unitsPerOne (word + 1)
  rw [smallUnitsPerOne, midpoint]
  push_cast
  rw [← scaled, ← nextScaled]
  ring

/-- A decimal with a power of ten that is tried is a whole number of small units. -/
theorem decimal_mul_smallUnitsPerOne (coefficient dropped : Nat) :
    Decimal.number ⟨coefficient, dropped - format.decimalShift⟩ *
        format.smallUnitsPerOne =
      (coefficient * (2 * format.unitsPerOne * 10 ^ dropped) : Nat) := by
  have ten_ne_zero : (10 : ℚ) ≠ 0 := by norm_num
  rw [Decimal.number, smallUnitsPerOne, zpow_sub₀ ten_ne_zero, zpow_natCast,
    zpow_natCast]
  push_cast
  field_simp

/--
A decimal is fit to be written for a word: it lies in the interval of the word and
is no farther from its number than the power of ten of the last digit.
-/
structure Fits (word : Nat) (decimal : Decimal) : Prop where
  positive : 0 < decimal.coefficient
  lower :
    format.midpoint (word - 1) < decimal.number ∨
      format.midpoint (word - 1) = decimal.number ∧ word % 2 = 0
  upper :
    decimal.number < format.midpoint word ∨
      decimal.number = format.midpoint word ∧ word % 2 = 0
  near : |decimal.number - format.number word| ≤ 10 ^ decimal.exponent

section Tried

variable {format} {word digitCount : Nat} {tie : TieRule} {decimal : Decimal}

/-- A decimal that fits a word is not below the midpoint under it. -/
theorem Fits.midpoint_le (fits : format.Fits word decimal) :
    format.midpoint (word - 1) ≤ decimal.number :=
  fits.lower.elim le_of_lt fun tie => tie.1.le

/-- A decimal that fits a word is not above the midpoint over it. -/
theorem Fits.le_midpoint (fits : format.Fits word decimal) :
    decimal.number ≤ format.midpoint word :=
  fits.upper.elim le_of_lt fun tie => tie.1.le

/--
One of the two decimals around a number is no farther than the power of ten between
them.
-/
theorem abs_number_sub_le_of_around
    {coefficient dropped : Nat}
    (around :
      coefficient =
          format.smallUnits word / (2 * format.unitsPerOne * 10 ^ dropped) ∨
        coefficient =
          format.smallUnits word / (2 * format.unitsPerOne * 10 ^ dropped) + 1) :
    |Decimal.number ⟨coefficient, dropped - format.decimalShift⟩ -
        format.number word| ≤
      10 ^ (dropped - format.decimalShift : ℤ) := by
  have scale := format.smallUnitsPerOne_cast_pos
  have point := format.decimal_mul_smallUnitsPerOne coefficient dropped
  have numberPoint := format.number_mul_smallUnitsPerOne word
  have stepPoint := format.decimal_mul_smallUnitsPerOne 1 dropped
  rw [Decimal.number, Nat.cast_one, one_mul, Nat.one_mul] at stepPoint
  set step := 2 * format.unitsPerOne * 10 ^ dropped
  have stepPositive : 0 < step :=
    Nat.mul_pos (Nat.mul_pos two_pos format.unitsPerOne_pos)
      (Nat.pow_pos (Nat.succ_pos 9))
  have shape := Nat.div_add_mod' (format.smallUnits word) step
  have remainder := Nat.mod_lt (format.smallUnits word) stepPositive
  have next := Nat.add_one_mul (format.smallUnits word / step) step
  have lowerBound : coefficient * step ≤ format.smallUnits word + step := by
    rcases around with rfl | rfl <;> omega
  have upperBound : format.smallUnits word ≤ coefficient * step + step := by
    rcases around with rfl | rfl <;> omega
  have lowerCast :
      ((coefficient * step : Nat) : ℚ) ≤ format.smallUnits word + step := by
    exact_mod_cast lowerBound
  have upperCast :
      (format.smallUnits word : ℚ) ≤ (coefficient * step : Nat) + step := by
    exact_mod_cast upperBound
  rw [← point, ← numberPoint, ← stepPoint, ← add_mul] at lowerCast upperCast
  have below := le_of_mul_le_mul_right lowerCast scale
  have above := le_of_mul_le_mul_right upperCast scale
  exact abs_le.mpr (by constructor <;> linarith)

/--
Zero lies below the interval of a word that denotes a number above that of another
one.
-/
theorem pos_of_lower_le
    {point : Nat}
    (positiveWord : 0 < word)
    (notBelow : (format.smallInterval word).lower ≤ point) :
    0 < point := by
  have units := format.strictMono_units (Nat.sub_lt positiveWord one_pos)
  have lowest : 0 < (format.smallInterval word).lower :=
    Nat.mul_pos (by omega) (Nat.pow_pos (Nat.succ_pos 9))
  exact lowest.trans_le notBelow

/--
A multiple in the interval of a word, as a decimal, is fit to be written for the
word.
-/
theorem fits_of_multiple
    {coefficient dropped : Nat}
    (positiveWord : 0 < word)
    (found :
      (format.smallInterval word).nearestMultiple? tie (format.smallUnits word)
        (2 * format.unitsPerOne * 10 ^ dropped) = some coefficient) :
    format.Fits word ⟨coefficient, dropped - format.decimalShift⟩ := by
  obtain ⟨inside, around⟩ := RoundingInterval.nearestMultiple?_eq_some found
  obtain ⟨lower, upper⟩ := RoundingInterval.lt_or_eq_of_contains inside
  have scale := format.smallUnitsPerOne_cast_pos
  have point := format.decimal_mul_smallUnitsPerOne coefficient dropped
  have lowerEnd := format.midpoint_mul_smallUnitsPerOne (word - 1)
  have upperEnd := format.midpoint_mul_smallUnitsPerOne word
  rw [Nat.sub_add_cancel positiveWord] at lowerEnd
  have positive :=
    pos_of_lower_le positiveWord
      (lower.elim Nat.le_of_lt fun tie => Nat.le_of_eq tie.1)
  simp only [smallInterval, decide_eq_true_eq] at lower upper
  refine
    ⟨Nat.pos_of_mul_pos_right positive, ?_, ?_, abs_number_sub_le_of_around around⟩
  · exact lower.imp (lt_iff_of_mul_eq scale lowerEnd point).mpr fun tie =>
      ⟨(eq_iff_of_mul_eq scale lowerEnd point).mpr tie.1, tie.2⟩
  · exact upper.imp (lt_iff_of_mul_eq scale point upperEnd).mpr fun tie =>
      ⟨(eq_iff_of_mul_eq scale point upperEnd).mpr tie.1, tie.2⟩

/-- A power of ten with a coefficient can be written with the coefficient one. -/
theorem fits_of_power
    {digitCount : Nat}
    {exponent : ℤ}
    (fits : format.Fits word ⟨10 ^ digitCount, exponent⟩) :
    format.Fits word ⟨1, exponent + digitCount⟩ := by
  have ten_ne_zero : (10 : ℚ) ≠ 0 := by norm_num
  have same :
      Decimal.number ⟨1, exponent + digitCount⟩ =
        Decimal.number ⟨10 ^ digitCount, exponent⟩ := by
    simp only [Decimal.number]
    push_cast
    rw [zpow_add₀ ten_ne_zero, zpow_natCast]
    ring
  obtain ⟨-, lower, upper, near⟩ := fits
  rw [← same] at lower upper near
  refine ⟨one_pos, lower, upper, near.trans ?_⟩
  exact zpow_le_zpow_right₀ (by norm_num) (by simp)

/-- A decimal with at most so many digits that is found is fit to be written. -/
theorem fits_of_decimalOfCount?
    (positiveWord : 0 < word)
    (within : digitCount ≤ format.wholeDigitCount word)
    (found : format.decimalOfCount? tie word digitCount = some decimal) :
    format.Fits word decimal ∧ decimal.coefficient < max 2 (10 ^ digitCount) := by
  simp only [decimalOfCount?, Option.map_eq_some_iff] at found
  obtain ⟨coefficient, multiple, rfl⟩ := found
  have fits := fits_of_multiple positiveWord multiple
  split
  · rename_i power
    rw [power] at fits
    have shifted := fits_of_power fits
    rw [sub_add_eq_add_sub] at shifted
    push_cast
    exact ⟨shifted, lt_max_of_lt_left one_lt_two⟩
  · rename_i noPower
    -- All digits together are a number below so many powers of ten, and some are
    -- dropped.
    have bound :
        format.smallUnits word /
            (2 * format.unitsPerOne *
              10 ^ (format.wholeDigitCount word - digitCount)) <
          10 ^ digitCount := by
      rw [← Nat.div_div_eq_div_mul]
      apply Nat.div_lt_of_lt_mul
      rw [← pow_add, Nat.sub_add_cancel within]
      exact lt_pow_length_decimalDigits _
    refine ⟨fits, lt_max_of_lt_right ?_⟩
    rcases (RoundingInterval.nearestMultiple?_eq_some multiple).2 with rfl | rfl
    · exact bound
    · exact Nat.lt_of_le_of_ne bound noPower

end Tried

/-- So many digits, shifted so far, are finer than the numbers of a format. -/
structure EnoughDigits : Prop where
  someDigits : 0 < format.sufficientDigits
  shifted :
    format.unitsPerOne * 10 ^ (format.sufficientDigits - 1) ≤
      10 ^ format.decimalShift
  fine : 2 * format.hiddenBit < 10 ^ (format.sufficientDigits - 1)

/-- Nine digits are enough for a single. -/
theorem enoughDigits_single : single.EnoughDigits where
  someDigits := by decide
  shifted := by decide +kernel
  fine := by decide +kernel

/-- Seventeen digits are enough for a double. -/
theorem enoughDigits_double : double.EnoughDigits where
  someDigits := by decide
  shifted := by decide +kernel
  fine := by decide +kernel

section Enough

variable {format} {word : Nat}

/-- The whole digits of the number of a word are as many as always suffice. -/
theorem le_smallUnits_div (positiveWord : 0 < word) (enough : format.EnoughDigits) :
    10 ^ (format.sufficientDigits - 1) ≤
      format.smallUnits word / (2 * format.unitsPerOne) := by
  have units := format.strictMono_units positiveWord
  rw [Nat.le_div_iff_mul_le (Nat.mul_pos two_pos format.unitsPerOne_pos)]
  calc
    10 ^ (format.sufficientDigits - 1) * (2 * format.unitsPerOne)
      = 2 * 1 * (format.unitsPerOne * 10 ^ (format.sufficientDigits - 1)) := by ring
    _ ≤ 2 * format.units word * 10 ^ format.decimalShift :=
      Nat.mul_le_mul (Nat.mul_le_mul_left 2 (by omega)) enough.shifted

/-- A word has at least the digits that are enough for its format. -/
theorem sufficientDigits_le
    (positiveWord : 0 < word)
    (enough : format.EnoughDigits) :
    format.sufficientDigits ≤ format.wholeDigitCount word := by
  have digits :=
    (le_smallUnits_div positiveWord enough).trans_lt (lt_pow_length_decimalDigits _)
  have exponents := (Nat.pow_lt_pow_iff_right (by decide)).mp digits
  unfold wholeDigitCount
  omega

/-- The power of ten of the last of so many digits is smaller than the number. -/
theorem step_mul_le (positiveWord : 0 < word) (enough : format.EnoughDigits) :
    2 * format.unitsPerOne *
      10 ^ (format.wholeDigitCount word - format.sufficientDigits) *
        10 ^ (format.sufficientDigits - 1) ≤
      format.smallUnits word := by
  have someDigits := enough.someDigits
  have counted := sufficientDigits_le positiveWord enough
  have whole := le_smallUnits_div positiveWord enough
  have exponents :
      format.wholeDigitCount word - format.sufficientDigits +
          (format.sufficientDigits - 1) =
        format.wholeDigitCount word - 1 := by
    omega
  have digits :
      10 ^ (format.wholeDigitCount word - 1) ≤
        format.smallUnits word / (2 * format.unitsPerOne) :=
    pow_length_decimalDigits_le ((Nat.pow_pos (Nat.succ_pos 9)).trans_le whole)
  rw [Nat.mul_assoc, ← pow_add, exponents, Nat.mul_comm]
  exact Nat.mul_le_of_le_div _ _ _ digits

/--
The power of ten of the last of so many digits is smaller than the interval is wide.
-/
theorem lower_add_step_lt_upper
    (positiveWord : 0 < word)
    (enough : format.EnoughDigits) :
    (format.smallInterval word).lower +
        2 * format.unitsPerOne *
          10 ^ (format.wholeDigitCount word - format.sufficientDigits) <
      (format.smallInterval word).upper := by
  have stepBound := step_mul_le positiveWord enough
  generalize
    2 * format.unitsPerOne *
      10 ^ (format.wholeDigitCount word - format.sufficientDigits) = step
    at stepBound ⊢
  obtain ⟨before, rfl⟩ := Nat.exists_eq_add_one_of_ne_zero positiveWord.ne'
  have scale : 0 < 10 ^ format.decimalShift := Nat.pow_pos (Nat.succ_pos 9)
  have below := format.units_succ before
  have convex := format.step_le_next before
  -- A binade has fewer steps than the power of ten, so the decimal step is smaller
  -- than two.
  have narrow :
      step <
        2 * (format.units (before + 1) - format.units before) *
          10 ^ format.decimalShift := by
    obtain ⟨level, count, rfl, normal, within⟩ := format.exists_place before
    have nextNormal : level = 0 ∨ format.hiddenBit ≤ count + 1 :=
      normal.imp id Nat.le_succ_of_le
    have next_eq :
        format.units (level * format.hiddenBit + count + 1) =
          (count + 1) * 2 ^ level :=
      format.units_place nextNormal within
    have difference : (count + 1) * 2 ^ level - count * 2 ^ level = 2 ^ level := by
      rw [Nat.add_one_mul, Nat.add_sub_cancel_left]
    rw [smallUnits, next_eq] at stepBound
    rw [next_eq, format.units_place normal within.le, difference]
    apply Nat.lt_of_mul_lt_mul_right
    calc
      step * 10 ^ (format.sufficientDigits - 1)
        ≤ 2 * ((count + 1) * 2 ^ level) * 10 ^ format.decimalShift := stepBound
      _ = (count + 1) * (2 * 2 ^ level * 10 ^ format.decimalShift) := by ring
      _ < 10 ^ (format.sufficientDigits - 1) *
        (2 * 2 ^ level * 10 ^ format.decimalShift) :=
        Nat.mul_lt_mul_of_pos_right (Nat.lt_of_le_of_lt within enough.fine)
          (Nat.mul_pos (Nat.mul_pos two_pos (Nat.two_pow_pos level)) scale)
      _ = 2 * 2 ^ level * 10 ^ format.decimalShift *
        10 ^ (format.sufficientDigits - 1) :=
        Nat.mul_comm _ _
  have wide :
      (format.units before + format.units (before + 1)) * 10 ^ format.decimalShift +
          2 * (format.units (before + 1) - format.units before) *
            10 ^ format.decimalShift ≤
        (format.units (before + 1) + format.units (before + 2)) *
          10 ^ format.decimalShift := by
    rw [← Nat.add_mul]
    exact Nat.mul_le_mul_right _ (by omega)
  exact (Nat.add_lt_add_left narrow _).trans_le wide

/-- With as many digits as always suffice, a decimal is found. -/
theorem exists_decimalOfCount?
    (tie : TieRule) (positiveWord : 0 < word) (enough : format.EnoughDigits) :
    ∃ decimal,
      format.decimalOfCount? tie word format.sufficientDigits = some decimal := by
  have scale : 0 < 10 ^ format.decimalShift := Nat.pow_pos (Nat.succ_pos 9)
  have below := format.strictMono_units (Nat.sub_lt positiveWord Nat.one_pos)
  have above := format.units_succ word
  obtain ⟨factor, found⟩ :
      ∃ factor,
        (format.smallInterval word).nearestMultiple? tie (format.smallUnits word)
          (2 * format.unitsPerOne *
            10 ^ (format.wholeDigitCount word - format.sufficientDigits)) =
              some factor := by
    apply RoundingInterval.exists_nearestMultiple
    · exact Nat.mul_lt_mul_of_pos_right (by omega) scale
    · exact Nat.mul_lt_mul_of_pos_right (by omega) scale
    · exact lower_add_step_lt_upper positiveWord enough
    · exact
        Nat.mul_pos (Nat.mul_pos two_pos format.unitsPerOne_pos)
          (Nat.pow_pos (Nat.succ_pos 9))
  exact ⟨_, Option.map_eq_some_iff.mpr ⟨factor, found, rfl⟩⟩

/--
The decimal that is written for a word is fit for it, and has no more digits than
suffice.
-/
theorem fits_shortestDecimal
    (tie : TieRule) (positiveWord : 0 < word) (enough : format.EnoughDigits) :
    format.Fits word (format.shortestDecimal tie word) ∧
      (format.shortestDecimal tie word).coefficient <
        10 ^ format.sufficientDigits := by
  have someDigits := enough.someDigits
  obtain ⟨last, foundLast⟩ := exists_decimalOfCount? tie positiveWord enough
  obtain ⟨decimal, found⟩ :
      ∃ decimal,
        ((List.range format.sufficientDigits).map (· + 1)).findSome?
            (format.decimalOfCount? tie word) =
          some decimal := by
    rw [← Option.isSome_iff_exists, List.findSome?_isSome_iff]
    refine ⟨format.sufficientDigits, ?_, by rw [foundLast]; rfl⟩
    rw [List.mem_map]
    exact ⟨format.sufficientDigits - 1, List.mem_range.mpr (by omega), by omega⟩
  obtain ⟨digitCount, tried, foundThere⟩ := List.exists_of_findSome?_eq_some found
  obtain ⟨index, listed, rfl⟩ := List.mem_map.mp tried
  have few := List.mem_range.mp listed
  have counted := sufficientDigits_le positiveWord enough
  obtain ⟨fits, short⟩ := fits_of_decimalOfCount? positiveWord (by omega) foundThere
  rw [shortestDecimal_eq, found, Option.getD_some]
  refine ⟨fits, short.trans_le (max_le ?_ (Nat.pow_le_pow_right (by decide) few))⟩
  exact le_trans (by decide) (Nat.pow_le_pow_right (by decide : 0 < 10) someDigits)

end Enough

end BinaryFormat

end StreamJoin
