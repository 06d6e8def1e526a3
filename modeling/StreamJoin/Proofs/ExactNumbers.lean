import Mathlib.Algebra.Order.Field.Basic
import Mathlib.Algebra.Order.Field.Rat
import Mathlib.Order.WithBot
import Mathlib.Tactic.FieldSimp
import Mathlib.Tactic.Ring
import StreamJoin.Value.Comparison

namespace StreamJoin

/-!
# The exact number of a value

What a number is, is said here without units: a whole number is itself, and a
floating-point word is read by its three fields, as a sign, a power of two and a
fraction.  The infinities are numbers too, below and above all others.  A word that
is no number has none.

The comparison of values counts units instead.  The main statements are that the two
readings agree (`Extended.exactNumber?_ofWord`), and that the order of two
denotations is the order of their exact numbers (`Extended.order_of_exact`).
-/

/-- A rational number or an infinity; all finite words denote rational numbers. -/
abbrev ExactNumber := WithBot (WithTop ℚ)

/-- A rational number as an exact number. -/
def ExactNumber.ofRat (number : ℚ) : ExactNumber :=
  ((number : WithTop ℚ) : WithBot (WithTop ℚ))

namespace BinaryFormat

variable (format : BinaryFormat)

/-- What the exponent field holds for the numbers between one and two. -/
def bias : Nat := 2 ^ (format.exponentBits - 1) - 1

/--
The number of a finite magnitude word.  Behind the hidden bit, which is zero when
the exponent field is empty, stands the fraction.
-/
def exactMagnitude (magnitude : Nat) : ℚ :=
  let exponent := magnitude / format.hiddenBit
  let fraction : ℚ :=
    (magnitude % format.hiddenBit : Nat) / (format.hiddenBit : Nat)
  if exponent = 0 then
    fraction * 2 ^ (1 - format.bias : ℤ)
  else
    (1 + fraction) * 2 ^ (exponent - format.bias : ℤ)

/-- The number of a word, if it is one. -/
def exactNumber? (word : Nat) : Option ExactNumber :=
  if format.isNaN word then
    none
  else if format.isInfinite word then
    some (if format.isNegative word then ⊥ else ⊤)
  else
    let magnitude := format.exactMagnitude (format.magnitude word)
    some (.ofRat (if format.isNegative word then -magnitude else magnitude))

/-- Every number of a format is a whole number of units. -/
theorem exactMagnitude_eq
    (wide : 2 ≤ format.exponentBits)
    (magnitude : Nat) :
    format.exactMagnitude magnitude =
      format.units magnitude / format.unitsPerOne := by
  have exponents :
      (1 - format.bias : ℤ) = format.fractionBits - format.unitExponent := by
    have atLeastTwo : 2 ^ 1 ≤ 2 ^ (format.exponentBits - 1) :=
      Nat.pow_le_pow_right (by decide) (by omega)
    simp only [bias, unitExponent, Nat.pow_eq]
    omega
  have unit :
      (2 : ℚ) ^ (1 - format.bias : ℤ) = format.hiddenBit / format.unitsPerOne := by
    rw [exponents, zpow_sub₀ two_ne_zero, zpow_natCast, zpow_natCast]
    simp [hiddenBit, unitsPerOne]
  have hiddenBit_ne_zero : (format.hiddenBit : ℚ) ≠ 0 := by simp [hiddenBit]
  simp only [exactMagnitude, units]
  generalize magnitude / format.hiddenBit = exponent
  split
  · rw [unit]
    field_simp
  · have shifted :
        (exponent - format.bias : ℤ) =
          (exponent - 1 : Nat) + (1 - format.bias) := by
      omega
    rw [shifted, zpow_add₀ two_ne_zero, unit, zpow_natCast]
    push_cast [Nat.pow_eq]
    field_simp

/-- The units that make up one are a power of two. -/
theorem unitsPerOne_eq : format.unitsPerOne = 2 ^ format.unitExponent := rfl

/-- There is at least one unit in one. -/
theorem unitsPerOne_pos : 0 < format.unitsPerOne := Nat.two_pow_pos _

/-- As a rational number, the count of units in one is not zero. -/
theorem unitsPerOne_ne_zero : (format.unitsPerOne : ℚ) ≠ 0 :=
  Nat.cast_ne_zero.mpr format.unitsPerOne_pos.ne'

end BinaryFormat

namespace Extended

/-- The exact number of a denotation. -/
def exactNumber? : Extended → Option ExactNumber
  | .nan => none
  | .negativeInfinity => some ⊥
  | .positiveInfinity => some ⊤
  | .finite units => some (.ofRat (units / BinaryFormat.double.unitsPerOne))

/-- A whole number is exact. -/
theorem exactNumber?_ofInt (value : Int) :
    (ofInt value).exactNumber? = some (.ofRat value) := by
  have nonzero := BinaryFormat.double.unitsPerOne_ne_zero
  simp only [ofInt, exactNumber?]
  push_cast
  field_simp

/-- Reading a word by its fields gives the number of units that it denotes. -/
theorem exactNumber?_ofWord
    {format : BinaryFormat}
    (wide : 2 ≤ format.exponentBits)
    (coarser : format.unitExponent ≤ BinaryFormat.double.unitExponent)
    (word : Nat) :
    (ofWord format word).exactNumber? = format.exactNumber? word := by
  have scale :
      (format.unitsPerOne : ℚ) *
          (2 ^ (BinaryFormat.double.unitExponent - format.unitExponent) : Nat) =
        BinaryFormat.double.unitsPerOne := by
    simp only [BinaryFormat.unitsPerOne, Nat.pow_eq]
    rw [← Nat.cast_mul, ← Nat.pow_add, Nat.add_sub_cancel' coarser]
  have nonzero := format.unitsPerOne_ne_zero
  have scale_ne_zero :
      ((2 ^ (BinaryFormat.double.unitExponent - format.unitExponent) : Nat) : ℚ) ≠
        0 := by
    simp
  have magnitude :
      format.exactMagnitude (format.magnitude word) =
        (Nat.cast
            (format.units (format.magnitude word) *
              2 ^ (BinaryFormat.double.unitExponent - format.unitExponent)) : ℚ) /
          BinaryFormat.double.unitsPerOne := by
    rw [format.exactMagnitude_eq wide, ← scale, Nat.cast_mul]
    field_simp
  simp only [ofWord, BinaryFormat.exactNumber?, Nat.pow_eq, magnitude]
  split
  · rfl
  · split
    · split <;> rfl
    · split
      · simp only [exactNumber?, Int.cast_neg, Int.cast_natCast, neg_div]
      · rfl

/-- A word is read as no number exactly if its bits say so. -/
theorem ofWord_eq_nan_iff (format : BinaryFormat) (word : Nat) :
    ofWord format word = .nan ↔ format.isNaN word = true := by
  unfold ofWord
  split
  · simp_all
  · split
    · split <;> simp_all
    · simp_all

/-- Whole numbers keep their order when they are counted in units. -/
theorem order_ofInt (left right : Int) :
    (ofInt left).order (ofInt right) = some (compare left right) := by
  have positive : (0 : Int) < BinaryFormat.double.unitsPerOne :=
    Int.natCast_pos.mpr BinaryFormat.double.unitsPerOne_pos
  simp only [ofInt, order, Option.some.injEq]
  rcases lt_trichotomy left right with less | rfl | more
  · rw [compare_lt_iff_lt.mpr less, compare_lt_iff_lt]
    exact Int.mul_lt_mul_of_pos_right less positive
  · rw [compare_eq_iff_eq.mpr rfl, compare_eq_iff_eq.mpr rfl]
  · rw [compare_gt_iff_gt.mpr more, compare_gt_iff_gt]
    exact Int.mul_lt_mul_of_pos_right more positive

/-- Finite numbers are ordered like the rational numbers that they stand for. -/
theorem order_finite (left right : Int) :
    (finite left).order (finite right) =
      some
        (compare
          (ExactNumber.ofRat (left / BinaryFormat.double.unitsPerOne))
          (ExactNumber.ofRat (right / BinaryFormat.double.unitsPerOne))) := by
  have positive : (0 : ℚ) < BinaryFormat.double.unitsPerOne :=
    Nat.cast_pos.mpr BinaryFormat.double.unitsPerOne_pos
  have lt_iff (less more : Int) :
      ExactNumber.ofRat (less / BinaryFormat.double.unitsPerOne) <
          ExactNumber.ofRat (more / BinaryFormat.double.unitsPerOne) ↔
        less < more := by
    rw [ExactNumber.ofRat, ExactNumber.ofRat, WithBot.coe_lt_coe,
      WithTop.coe_lt_coe, div_lt_div_iff_of_pos_right positive, Int.cast_lt]
  rw [order, Option.some.injEq]
  rcases lt_trichotomy left right with less | rfl | more
  · rw [compare_lt_iff_lt.mpr less,
      compare_lt_iff_lt.mpr ((lt_iff left right).mpr less)]
  · rw [compare_eq_iff_eq.mpr rfl, compare_eq_iff_eq.mpr rfl]
  · rw [compare_gt_iff_gt.mpr more,
      compare_gt_iff_gt.mpr ((lt_iff right left).mpr more)]

/-- The order of two denotations that are numbers is the order of the numbers. -/
theorem order_of_exact
    {left right : Extended}
    {leftNumber rightNumber : ExactNumber}
    (leftExact : left.exactNumber? = some leftNumber)
    (rightExact : right.exactNumber? = some rightNumber) :
    left.order right = some (compare leftNumber rightNumber) := by
  have aboveBottom (number : ℚ) : (⊥ : ExactNumber) < .ofRat number :=
    WithBot.bot_lt_coe _
  have belowTop (number : ℚ) : .ofRat number < (⊤ : ExactNumber) :=
    WithBot.coe_lt_coe.mpr (WithTop.coe_lt_top number)
  have apart : (⊥ : ExactNumber) < ⊤ := bot_lt_top
  cases left <;> cases right <;> cases leftExact <;> cases rightExact
  case finite.finite left right => exact order_finite left right
  case negativeInfinity.negativeInfinity =>
    exact congrArg some (compare_eq_iff_eq.mpr rfl).symm
  case positiveInfinity.positiveInfinity =>
    exact congrArg some (compare_eq_iff_eq.mpr rfl).symm
  case negativeInfinity.positiveInfinity =>
    exact congrArg some (compare_lt_iff_lt.mpr apart).symm
  case positiveInfinity.negativeInfinity =>
    exact congrArg some (compare_gt_iff_gt.mpr apart).symm
  case negativeInfinity.finite =>
    exact congrArg some (compare_lt_iff_lt.mpr (aboveBottom _)).symm
  case finite.negativeInfinity =>
    exact congrArg some (compare_gt_iff_gt.mpr (aboveBottom _)).symm
  case positiveInfinity.finite =>
    exact congrArg some (compare_gt_iff_gt.mpr (belowTop _)).symm
  case finite.positiveInfinity =>
    exact congrArg some (compare_lt_iff_lt.mpr (belowTop _)).symm

end Extended

namespace Value

/-- Whether a value is a floating-point word that is no number. -/
def isNaN : Value → Bool
  | .float word => BinaryFormat.single.isNaN word.toNat
  | .double word => BinaryFormat.double.isNaN word.toNat
  | _ => false

/-- The exact number of a value, if it is a number. -/
def exactNumber? : Value → Option ExactNumber
  | .int number => some (.ofRat number.toInt)
  | .long number => some (.ofRat number.toInt)
  | .float word => BinaryFormat.single.exactNumber? word.toNat
  | .double word => BinaryFormat.double.exactNumber? word.toNat
  | _ => none

/-- What a number denotes; no number is rounded here. -/
def denoted? : Value → Option Extended
  | .long number => some (.ofInt number.toInt)
  | value => value.asDouble?

/-- The exact number of a value is that of the extended number it denotes. -/
theorem exactNumber?_eq_bind (value : Value) :
    value.exactNumber? = value.denoted?.bind Extended.exactNumber? := by
  cases value with
  | int number => exact (Extended.exactNumber?_ofInt number.toInt).symm
  | long number => exact (Extended.exactNumber?_ofInt number.toInt).symm
  | float word =>
      have wide : 2 ≤ BinaryFormat.single.exponentBits := by decide
      have coarser :
          BinaryFormat.single.unitExponent ≤ BinaryFormat.double.unitExponent := by
        decide
      exact (Extended.exactNumber?_ofWord wide coarser word.toNat).symm
  | double word =>
      have wide : 2 ≤ BinaryFormat.double.exponentBits := by decide
      exact (Extended.exactNumber?_ofWord wide (Nat.le_refl _) word.toNat).symm
  | _ => rfl

end Value

end StreamJoin
