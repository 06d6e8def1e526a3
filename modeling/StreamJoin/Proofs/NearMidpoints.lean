import Mathlib.Algebra.Order.Field.Power
import Mathlib.Tactic.FieldSimp
import Mathlib.Tactic.Linarith
import StreamJoin.Proofs.ScaledSignificands

namespace StreamJoin

/-!
# Decimals near midpoints

The midpoint of two neighbours among the 32-bit numbers is an odd number of at most
25 bits times a power of two.  A decimal that is not such a midpoint could be read
as one, or as a number on the other side of it, only if it were nearer to it than
reading is off.  There are three such decimals among all those that are no finer
than the distance from a midpoint to its neighbours; the main result is
`near_midpoint`.

For one power of ten, multiples of `ten` and odd multiples of `two` are compared,
whose quotient is that of the power of ten and a power of two.  Finer powers of two
need no comparisons of their own.  A single multiplier separates all the multiples
at once: if `multiplier * ten` is near `other * two`, then a near hit of other
multiples would make a number below `two` a multiple of `two`.
-/

section Separation

variable {ten two multiplier other decimal odd : ℤ}

/--
Two nearby multiples are as far apart as `two`, or their factors are in proportion.
-/
theorem le_of_not_proportional
    (twoNonneg : 0 ≤ two)
    (notProportional : other * decimal ≠ multiplier * odd) :
    two ≤
      |multiplier| * |decimal * ten - odd * two| +
        |decimal| * |multiplier * ten - other * two| := by
  have difference : 1 ≤ |other * decimal - multiplier * odd| :=
    Int.one_le_abs (sub_ne_zero.mpr notProportional)
  calc
    two ≤ |other * decimal - multiplier * odd| * two :=
      le_mul_of_one_le_left twoNonneg difference
    _ = |(other * decimal - multiplier * odd) * two| := by
      rw [abs_mul, abs_of_nonneg twoNonneg]
    _ = |multiplier * (decimal * ten - odd * two) -
          decimal * (multiplier * ten - other * two)| := by
      congr 1
      ring
    _ ≤ |multiplier| * |decimal * ten - odd * two| +
          |decimal| * |multiplier * ten - other * two| := by
      rw [← abs_mul, ← abs_mul]
      exact abs_sub _ _

end Separation

/--
A power of ten beside a power of two, as two coprime numbers, and how far reading is
off.
-/
structure PowerPair where
  /-- The numerator of their quotient. -/
  ten : Nat
  /-- The denominator of their quotient. -/
  two : Nat
  /-- The largest multiple of the power of ten that is compared. -/
  largest : Nat
  /-- How far reading is off, in parts of `2 ^ 60`. -/
  weight : Nat
  deriving Repr, DecidableEq

namespace PowerPair

/--
A multiple of the power of ten is so near to one of the power of two that reading
could miss.
-/
def IsNear (pair : PowerPair) (decimal odd : Nat) : Prop :=
  |(decimal * pair.ten - odd * pair.two : ℤ)| * 2 ^ 60 ≤
    pair.weight * (decimal * pair.ten)

/--
A multiplier that is too near to leave room for hits that are not in proportion to
it.
-/
def Separates (pair : PowerPair) (multiplier other : Nat) : Prop :=
  pair.largest *
      (multiplier * pair.weight * pair.ten +
        (multiplier * pair.ten - other * pair.two : ℤ).natAbs * 2 ^ 60) <
    pair.two * 2 ^ 60

instance (pair : PowerPair) (multiplier other : Nat) :
    Decidable (pair.Separates multiplier other) :=
  inferInstanceAs (Decidable (_ < _))

section

variable {pair : PowerPair} {multiplier other decimal odd : Nat}

/-- Hits are in proportion to a separating multiplier. -/
theorem Separates.proportional
    (separates : pair.Separates multiplier other)
    (near : pair.IsNear decimal odd)
    (within : decimal ≤ pair.largest) :
    other * decimal = multiplier * odd := by
  by_contra notProportional
  have far :
      (pair.two : ℤ) ≤
        |(multiplier : ℤ)| * |(decimal * pair.ten - odd * pair.two : ℤ)| +
          |(decimal : ℤ)| * |(multiplier * pair.ten - other * pair.two : ℤ)| :=
    le_of_not_proportional (Int.natCast_nonneg _)
      (by exact_mod_cast notProportional)
  rw [Nat.abs_cast, Nat.abs_cast] at far
  unfold Separates at separates
  unfold IsNear at near
  have separatesCast :
      (pair.largest : ℤ) *
          (multiplier * pair.weight * pair.ten +
            |(multiplier * pair.ten - other * pair.two : ℤ)| * 2 ^ 60) <
        pair.two * 2 ^ 60 := by
    rw [← Int.natCast_natAbs]
    exact_mod_cast separates
  have withinCast : (decimal : ℤ) ≤ pair.largest := by exact_mod_cast within
  set distance := |(decimal * pair.ten - odd * pair.two : ℤ)|
  set offset := |(multiplier * pair.ten - other * pair.two : ℤ)|
  have weighted :
      0 ≤ (multiplier * pair.weight * pair.ten + offset * 2 ^ 60 : ℤ) := by
    positivity
  have scaledNear := mul_le_mul_of_nonneg_left near (Int.natCast_nonneg multiplier)
  have scaledFar := mul_le_mul_of_nonneg_right far (by norm_num : (0 : ℤ) ≤ 2 ^ 60)
  have bounded := mul_le_mul_of_nonneg_right withinCast weighted
  linarith

/--
An odd multiplier that is near an even multiple of the power of two leaves no hits.
-/
theorem Separates.not_isNear
    (separates : pair.Separates multiplier other)
    (multiplierOdd : multiplier % 2 = 1)
    (otherEven : other % 2 = 0)
    (isOdd : odd % 2 = 1)
    (within : decimal ≤ pair.largest) :
    ¬ pair.IsNear decimal odd := by
  intro near
  have proportional := separates.proportional near within
  have left : other * decimal % 2 = 0 := by simp [Nat.mul_mod, otherEven]
  have right : multiplier * odd % 2 = 1 := by
    simp [Nat.mul_mod, multiplierOdd, isOdd]
  omega

/--
A separating multiplier that is more than half of the largest multiple leaves one
hit.
-/
theorem Separates.eq_of_isNear
    (separates : pair.Separates multiplier other)
    (coprime : multiplier.Coprime other)
    (large : pair.largest < 2 * multiplier)
    (positive : 0 < decimal)
    (within : decimal ≤ pair.largest)
    (near : pair.IsNear decimal odd) :
    decimal = multiplier ∧ odd = other := by
  have proportional := separates.proportional near within
  have divides : multiplier ∣ decimal :=
    coprime.dvd_of_dvd_mul_left (Dvd.intro _ proportional.symm)
  obtain ⟨factor, rfl⟩ := divides
  have one : factor = 1 := by
    have notZero : factor ≠ 0 := by
      rintro rfl
      exact absurd positive (Nat.lt_irrefl 0)
    have notTwo : factor < 2 := by
      by_contra atLeastTwo
      have := Nat.mul_le_mul_left multiplier (Nat.not_lt.mp atLeastTwo)
      omega
    omega
  have multiplierPositive : 0 < multiplier := Nat.pos_of_mul_pos_right positive
  subst one
  refine ⟨Nat.mul_one _, ?_⟩
  rw [Nat.mul_one, Nat.mul_comm] at proportional
  exact (Nat.eq_of_mul_eq_mul_left multiplierPositive proportional).symm

/-- When even the largest multiple is read too well to miss, then hits are exact. -/
theorem eq_of_isNear
    (fine : pair.weight * (pair.largest * pair.ten) < 2 ^ 60)
    (within : decimal ≤ pair.largest)
    (near : pair.IsNear decimal odd) :
    decimal * pair.ten = odd * pair.two := by
  have bounded :
      pair.weight * (decimal * pair.ten) ≤
        pair.weight * (pair.largest * pair.ten) :=
    Nat.mul_le_mul_left _ (Nat.mul_le_mul_right _ within)
  have small : (pair.weight * (decimal * pair.ten) : ℤ) < 2 ^ 60 := by
    exact_mod_cast bounded.trans_lt fine
  unfold IsNear at near
  have zero : |(decimal * pair.ten - odd * pair.two : ℤ)| < 1 := by
    nlinarith
  have same := Int.abs_lt_one_iff.mp zero
  have equal : (decimal * pair.ten : ℤ) = odd * pair.two := by linarith
  exact_mod_cast equal

end

/--
The even multiple of the power of two that is nearest to a multiple of the power of
ten.
-/
def evenOther (pair : PowerPair) (multiplier : Nat) : Nat :=
  2 * ((multiplier * pair.ten + pair.two) / (2 * pair.two))

/--
The first odd multiplier that separates among the denominators of the continued
fraction of `ten / (2 * two)`, by the Euclidean algorithm; the last one that is
tried if there is none.
-/
def searchMultiplier (pair : PowerPair) :
    (fuel : Nat) → (dividend divisor earlier current : Nat) → Nat
  | 0, _, _, _, current => current
  | fuel + 1, dividend, divisor, earlier, current =>
      if divisor = 0 ∨ current % 2 = 1 ∧ pair.Separates current (pair.evenOther
        current) then
          current
      else
        searchMultiplier pair fuel divisor (dividend % divisor) current
          (dividend / divisor * current + earlier)

/-- The multiplier that is found for a pair. -/
def multiplier (pair : PowerPair) : Nat :=
  pair.searchMultiplier 40 (2 * pair.two) (pair.ten % (2 * pair.two)) 0 1

/--
The highest power of two among those of the midpoints of 32-bit numbers for which a
power of ten is no finer than the distance to a neighbour.
-/
def highestTwo (power : ℤ) : ℤ :=
  min 103
    (if 0 ≤ power then (10 ^ power.toNat).log2
      else -((10 ^ (-power).toNat).log2 + 1))

/-- The pair of a power of ten and its highest power of two. -/
def ofPower (power : ℤ) : PowerPair :=
  let ten := 5 ^ power.toNat * 2 ^ (power - highestTwo power).toNat
  let two := 5 ^ (-power).toNat * 2 ^ (highestTwo power - power).toNat
  { ten
    two
    largest := 2 ^ 25 * two / ten
    weight := if power.natAbs ≤ 22 then 128 else 257 }

/--
The decimals that are nearer to a midpoint than reading is off, for a power of ten.
-/
def exception? (power : ℤ) : Option (Nat × Nat) :=
  if power = -32 then some (14077062, 22841339)
  else if power = -15 then some (25645849, 28874659)
  else none

/-- Hits for a power of ten are exact, or there are none, or there is one. -/
def IsSettled (power : ℤ) : Prop :=
  power.natAbs ≤ 12 ∧
      (ofPower power).weight * ((ofPower power).largest * (ofPower power).ten) <
        2 ^ 60 ∨
    (ofPower power).multiplier % 2 = 1 ∧
        (ofPower power).Separates (ofPower power).multiplier
          ((ofPower power).evenOther (ofPower power).multiplier) ∨
      ∃ hit ∈ exception? power,
        (ofPower power).Separates hit.1 hit.2 ∧ hit.1.Coprime hit.2 ∧
          (ofPower power).largest < 2 * hit.1

/-- There is no higher power of two for which a power of ten is no finer. -/
def IsHighest (power : ℤ) : Prop :=
  highestTwo power = 103 ∨
    (ofPower power).ten * 2 ^ 26 + 2 * (ofPower power).two <
      2 * (ofPower power).two * 2 ^ 26

instance : DecidablePred IsSettled :=
  fun _ => inferInstanceAs (Decidable (_ ∨ _ ∨ _))

instance : DecidablePred IsHighest := fun _ => inferInstanceAs (Decidable (_ ∨ _))

/-- Every power of ten that is no finer than some midpoint is settled. -/
theorem isSettled_of_lt :
    ∀ index < 84,
      IsSettled ((index : Nat) - 45 : ℤ) ∧ IsHighest ((index : Nat) - 45 : ℤ) := by
  decide +kernel

/-- A power is a quotient of two powers, one of which has the exponent zero. -/
theorem zpow_mul_toNat (base : ℚ) (nonzero : base ≠ 0) (power : ℤ) :
    base ^ power * base ^ (-power).toNat = base ^ power.toNat := by
  have sum : power + (-power).toNat = power.toNat := by omega
  rw [← zpow_natCast, ← zpow_natCast, ← zpow_add₀ nonzero, sum]

/-- A pair of powers is in proportion to the power of ten that it stands for. -/
theorem ofPower_proportion (power : ℤ) :
    (10 : ℚ) ^ power * (ofPower power).two =
      2 ^ highestTwo power * (ofPower power).ten := by
  have fives := zpow_mul_toNat 5 (by norm_num) power
  have twos := zpow_mul_toNat 2 two_ne_zero (power - highestTwo power)
  have product :
      (10 : ℚ) ^ power =
        5 ^ power * (2 ^ highestTwo power * 2 ^ (power - highestTwo power)) := by
    rw [← zpow_add₀ two_ne_zero, add_sub_cancel, ← mul_zpow]
    norm_num
  rw [neg_sub] at twos
  simp only [ofPower]
  push_cast
  rw [← fives, ← twos, product]
  ring

/-- The power of ten in a pair is positive. -/
theorem ten_ofPower_pos (power : ℤ) : 0 < (ofPower power).ten :=
  Nat.mul_pos (Nat.pow_pos (Nat.succ_pos 4)) (Nat.two_pow_pos _)

/-- The power of two in a pair is positive. -/
theorem two_ofPower_pos (power : ℤ) : 0 < (ofPower power).two :=
  Nat.mul_pos (Nat.pow_pos (Nat.succ_pos 4)) (Nat.two_pow_pos _)

/-- The weight of a pair is at most 2 ^ 10. -/
theorem weight_ofPower_le (power : ℤ) : (ofPower power).weight ≤ 2 ^ 10 := by
  simp only [ofPower]
  split <;> decide

end PowerPair

/--
A decimal that reading might take for a midpoint: its power of ten and its
coefficient, and the power of two of the midpoint with the odd number that it is
multiplied by.
-/
structure NearMiss where
  power : ℤ
  decimal : Nat
  twoPower : ℤ
  odd : Nat
  deriving Repr, DecidableEq

/--
The decimals that are nearer to a midpoint than reading is off, and are no
midpoints.
-/
def nearMisses : List NearMiss :=
  [⟨-32, 14077062, -107, 22841339⟩, ⟨-32, 7038531, -108, 22841339⟩,
    ⟨-15, 25645849, -50, 28874659⟩]

section Midpoints

variable {power twoPower : ℤ} {decimal odd : Nat}

/-- The error of a reading is the weight of its power in parts of 2 ^ 60. -/
theorem readingError_eq (power : ℤ) :
    readingError power = (PowerPair.ofPower power).weight / 2 ^ 60 := by
  simp only [readingError, PowerPair.ofPower]
  split <;> norm_num

/-- The error of a reading is at most one part in 2 ^ 51. -/
theorem readingError_le (power : ℤ) : readingError power ≤ 1 / 2 ^ 51 := by
  unfold readingError
  split <;> norm_num

/--
The power of ten of a decimal near a midpoint is among those that are settled.
-/
theorem power_mem_range
    (positive : 0 < decimal)
    (bounded : odd < 2 ^ 25)
    (lowest : -150 ≤ twoPower)
    (highest : twoPower ≤ 103)
    (coarse : (2 : ℚ) ^ twoPower * (1 - 1 / 2 ^ 26) ≤ 10 ^ power)
    (near :
      |(decimal * 10 ^ power - odd * 2 ^ twoPower : ℚ)| ≤
        readingError power * (decimal * 10 ^ power)) :
    -45 ≤ power ∧ power ≤ 38 := by
  constructor
  · by_contra below
    have least : (2 : ℚ) ^ (-150 : ℤ) ≤ 2 ^ twoPower :=
      zpow_le_zpow_right₀ (by norm_num) lowest
    have most : (10 : ℚ) ^ power ≤ 10 ^ (-46 : ℤ) :=
      zpow_le_zpow_right₀ (by norm_num) (by omega)
    have apart : (10 : ℚ) ^ (-46 : ℤ) < 2 ^ (-150 : ℤ) * (1 - 1 / 2 ^ 26) := by
      norm_num
    have scaled :=
      mul_le_mul_of_nonneg_right least (by norm_num : (0 : ℚ) ≤ 1 - 1 / 2 ^ 26)
    exact absurd ((scaled.trans coarse).trans most) (not_le.mpr apart)
  · by_contra above
    have decimalCast : (1 : ℚ) ≤ decimal := by exact_mod_cast positive
    have oddCast : (odd : ℚ) ≤ 2 ^ 25 := by exact_mod_cast bounded.le
    have most : (2 : ℚ) ^ twoPower ≤ 2 ^ (103 : ℤ) :=
      zpow_le_zpow_right₀ (by norm_num) highest
    have least : (10 : ℚ) ^ (39 : ℤ) ≤ 10 ^ power :=
      zpow_le_zpow_right₀ (by norm_num) (by omega)
    have apart : (2 : ℚ) ^ 26 * 2 ^ (103 : ℤ) < 10 ^ (39 : ℤ) := by norm_num
    have error := readingError_le power
    have ten_pos : (0 : ℚ) < 10 ^ power := by positivity
    have two_pos : (0 : ℚ) < 2 ^ twoPower := by positivity
    have distance := (abs_le.mp near).2
    have reach :
        (decimal : ℚ) * 10 ^ power * (1 - 1 / 2 ^ 51) ≤ odd * 2 ^ twoPower := by
      nlinarith [mul_pos (lt_of_lt_of_le one_pos decimalCast) ten_pos]
    have midpoint : (odd : ℚ) * 2 ^ twoPower ≤ 2 ^ 25 * 2 ^ (103 : ℤ) :=
      mul_le_mul oddCast most two_pos.le (by positivity)
    have large : (10 : ℚ) ^ (39 : ℤ) ≤ decimal * 10 ^ power :=
      least.trans (le_mul_of_one_le_left ten_pos.le decimalCast)
    nlinarith

/-- The power of two of a midpoint is at most the highest one that is settled. -/
theorem twoPower_le_highestTwo
    (highest : twoPower ≤ 103)
    (coarse : (2 : ℚ) ^ twoPower * (1 - 1 / 2 ^ 26) ≤ 10 ^ power)
    (isHighest : PowerPair.IsHighest power) :
    twoPower ≤ PowerPair.highestTwo power := by
  by_contra above
  rcases isHighest with top | finer
  · omega
  · have finerCast :
        ((PowerPair.ofPower power).ten : ℚ) * 2 ^ 26 +
            2 * (PowerPair.ofPower power).two <
          2 * (PowerPair.ofPower power).two * 2 ^ 26 := by
      exact_mod_cast finer
    have proportion := PowerPair.ofPower_proportion power
    have next : (2 : ℚ) ^ PowerPair.highestTwo power * 2 ≤ 2 ^ twoPower := by
      rw [← zpow_add_one₀ two_ne_zero]
      exact zpow_le_zpow_right₀ (by norm_num) (by omega)
    have two_pos : (0 : ℚ) < 2 ^ PowerPair.highestTwo power := by positivity
    have share : (0 : ℚ) ≤ (PowerPair.ofPower power).two := Nat.cast_nonneg _
    have coarser :
        (2 : ℚ) ^ PowerPair.highestTwo power * 2 * (1 - 1 / 2 ^ 26) *
            (PowerPair.ofPower power).two ≤
          2 ^ PowerPair.highestTwo power * (PowerPair.ofPower power).ten := by
      rw [← proportion]
      refine mul_le_mul_of_nonneg_right (le_trans ?_ coarse) share
      exact mul_le_mul_of_nonneg_right next (by norm_num)
    nlinarith

/-- The difference to a midpoint, for a multiple beside the highest power of two. -/
theorem lifted_difference
    (decimal odd : Nat)
    (lower : twoPower ≤ PowerPair.highestTwo power) :
    ((decimal * 2 ^ (PowerPair.highestTwo power - twoPower).toNat : Nat) *
            (PowerPair.ofPower power).ten -
          odd * (PowerPair.ofPower power).two : ℚ) *
        2 ^ PowerPair.highestTwo power =
      2 ^ (PowerPair.highestTwo power - twoPower).toNat *
        (PowerPair.ofPower power).two *
        (decimal * 10 ^ power - odd * 2 ^ twoPower) := by
  have proportion := PowerPair.ofPower_proportion power
  have lifted :
      (2 : ℚ) ^ PowerPair.highestTwo power =
        2 ^ (PowerPair.highestTwo power - twoPower).toNat * 2 ^ twoPower := by
    rw [← zpow_natCast, ← zpow_add₀ two_ne_zero]
    congr 1
    omega
  push_cast
  generalize (2 : ℚ) ^ (PowerPair.highestTwo power - twoPower).toNat =
    factor at lifted ⊢
  calc
    (decimal * factor * (PowerPair.ofPower power).ten -
      odd * (PowerPair.ofPower power).two) *
        2 ^ PowerPair.highestTwo power
      = decimal * factor *
        (2 ^ PowerPair.highestTwo power * (PowerPair.ofPower power).ten) -
          odd * (PowerPair.ofPower power).two * 2 ^ PowerPair.highestTwo power := by
            ring
    _ = decimal * factor * (10 ^ power * (PowerPair.ofPower power).two) -
          odd * (PowerPair.ofPower power).two * (factor * 2 ^ twoPower) := by
      rw [← proportion, lifted]
    _ = factor * (PowerPair.ofPower power).two *
      (decimal * 10 ^ power - odd * 2 ^ twoPower) := by
      ring

/--
Nearness to a midpoint with a lower power of two is nearness of a multiple to a
higher one.
-/
theorem isNear_of_near
    (lower : twoPower ≤ PowerPair.highestTwo power)
    (near :
      |(decimal * 10 ^ power - odd * 2 ^ twoPower : ℚ)| ≤
        readingError power * (decimal * 10 ^ power)) :
    (PowerPair.ofPower power).IsNear
      (decimal * 2 ^ (PowerPair.highestTwo power - twoPower).toNat) odd := by
  have high_pos : (0 : ℚ) < 2 ^ PowerPair.highestTwo power := by positivity
  have scale :
      (0 : ℚ) ≤
        2 ^ (PowerPair.highestTwo power - twoPower).toNat *
          (PowerPair.ofPower power).two := by
    positivity
  have distances := congrArg abs (lifted_difference decimal odd lower)
  have start := lifted_difference decimal 0 lower
  rw [abs_mul, abs_mul, abs_of_pos high_pos, abs_of_nonneg scale] at distances
  rw [readingError_eq] at near
  simp only [Nat.cast_zero, zero_mul, sub_zero] at start
  unfold PowerPair.IsNear
  generalize decimal * 2 ^ (PowerPair.highestTwo power - twoPower).toNat = multiple
    at distances start ⊢
  have inRationals :
      |(multiple * (PowerPair.ofPower power).ten -
        odd * (PowerPair.ofPower power).two : ℚ)| *
          2 ^ 60 ≤
        (PowerPair.ofPower power).weight *
          (multiple * (PowerPair.ofPower power).ten) := by
    refine le_of_mul_le_mul_right ?_ high_pos
    rw [mul_right_comm, distances,
      mul_assoc _ _ ((2 : ℚ) ^ PowerPair.highestTwo power), start]
    generalize
      (2 : ℚ) ^ (PowerPair.highestTwo power - twoPower).toNat *
        (PowerPair.ofPower power).two =
      factor at scale ⊢
    have scaled := mul_le_mul_of_nonneg_left near scale
    linarith
  exact_mod_cast inRationals

/--
A multiple near a midpoint is not larger than the largest one that is compared.
-/
theorem le_largest
    {pair : PowerPair}
    (largest_eq : pair.largest = 2 ^ 25 * pair.two / pair.ten)
    (small : pair.weight ≤ 2 ^ 10)
    (tenPositive : 0 < pair.ten)
    (bounded : odd < 2 ^ 25)
    (near : pair.IsNear decimal odd) :
    decimal ≤ pair.largest := by
  rw [largest_eq, Nat.le_div_iff_mul_le tenPositive]
  unfold PowerPair.IsNear at near
  by_contra above
  have notWithin : (2 ^ 25 * pair.two : ℤ) < decimal * pair.ten := by
    exact_mod_cast Nat.not_le.mp above
  have distance := le_abs_self (decimal * pair.ten - odd * pair.two : ℤ)
  have smallCast : (pair.weight : ℤ) ≤ 2 ^ 10 := by exact_mod_cast small
  have boundedCast : (odd : ℤ) + 1 ≤ 2 ^ 25 := by exact_mod_cast bounded
  have twoNonneg : (0 : ℤ) ≤ pair.two := Int.natCast_nonneg _
  have product : (0 : ℤ) < decimal * pair.ten :=
    lt_of_le_of_lt (by positivity) notWithin
  have error :
      (pair.weight * (decimal * pair.ten) : ℤ) ≤ 2 ^ 10 * (decimal * pair.ten) :=
    mul_le_mul_of_nonneg_right smallCast product.le
  have steps := mul_le_mul_of_nonneg_right boundedCast twoNonneg
  -- A multiple beyond the bound is farther from the midpoint than a small part of
  -- itself.
  nlinarith

/--
The multiples of a decimal that is a hit are near misses as long as they are whole.
-/
theorem mem_nearMisses
    {hit : Nat × Nat}
    (lower : twoPower ≤ PowerPair.highestTwo power)
    (found : hit ∈ PowerPair.exception? power)
    (decimal_eq :
      decimal * 2 ^ (PowerPair.highestTwo power - twoPower).toNat = hit.1)
    (odd_eq : odd = hit.2) :
    ⟨power, decimal, twoPower, odd⟩ ∈ nearMisses := by
  have divides (exponent : Nat)
      (le : exponent ≤ (PowerPair.highestTwo power - twoPower).toNat) :
      2 ^ exponent ∣ hit.1 :=
    decimal_eq ▸ (Nat.pow_dvd_pow 2 le).trans (Nat.dvd_mul_left _ _)
  simp only [PowerPair.exception?, Option.mem_def] at found
  split at found
  · rename_i power_eq
    obtain rfl := (Option.some.inj found).symm
    subst power_eq
    have highest : PowerPair.highestTwo (-32) = -107 := by decide +kernel
    rw [highest] at lower decimal_eq divides
    have few : (-107 - twoPower).toNat < 2 := by
      by_contra many
      exact absurd (divides 2 (Nat.not_lt.mp many)) (by decide)
    obtain rfl | rfl : twoPower = -107 ∨ twoPower = -108 := by omega
    · have whole : decimal = 14077062 := by simpa using decimal_eq
      simp [nearMisses, whole, odd_eq]
    · have half : decimal * 2 = 14077062 := by simpa using decimal_eq
      obtain rfl : decimal = 7038531 := by omega
      simp [nearMisses, odd_eq]
  · split at found
    · rename_i power_eq
      obtain rfl := (Option.some.inj found).symm
      subst power_eq
      have highest : PowerPair.highestTwo (-15) = -50 := by decide +kernel
      rw [highest] at lower decimal_eq divides
      have none : (-50 - twoPower).toNat < 1 := by
        by_contra doubled
        exact absurd (divides 1 (Nat.not_lt.mp doubled)) (by decide)
      obtain rfl : twoPower = -50 := by omega
      have whole : decimal = 25645849 := by simpa using decimal_eq
      simp [nearMisses, whole, odd_eq]
    · cases found

/--
A decimal that is no finer than the distance from a midpoint to its neighbours, and
nearer to the midpoint than reading is off, is the midpoint or one of the near
misses.
-/
theorem near_midpoint
    (positive : 0 < decimal)
    (isOdd : odd % 2 = 1)
    (bounded : odd < 2 ^ 25)
    (lowest : -150 ≤ twoPower)
    (highest : twoPower ≤ 103)
    (coarse : (2 : ℚ) ^ twoPower * (1 - 1 / 2 ^ 26) ≤ 10 ^ power)
    (near :
      |(decimal * 10 ^ power - odd * 2 ^ twoPower : ℚ)| ≤
        readingError power * (decimal * 10 ^ power)) :
    (power.natAbs ≤ 12 ∧ (decimal * 10 ^ power : ℚ) = odd * 2 ^ twoPower) ∨
      ⟨power, decimal, twoPower, odd⟩ ∈ nearMisses := by
  obtain ⟨least, most⟩ :=
    power_mem_range positive bounded lowest highest coarse near
  have settled := PowerPair.isSettled_of_lt (power + 45).toNat (by omega)
  have power_eq : (((power + 45).toNat : Nat) - 45 : ℤ) = power := by omega
  rw [power_eq] at settled
  obtain ⟨settled, isHighest⟩ := settled
  have lower := twoPower_le_highestTwo highest coarse isHighest
  have isNear := isNear_of_near lower near
  have within :=
    le_largest rfl (PowerPair.weight_ofPower_le power)
      (PowerPair.ten_ofPower_pos power) bounded isNear
  have scaledPositive :
      0 < decimal * 2 ^ (PowerPair.highestTwo power - twoPower).toNat :=
    Nat.mul_pos positive (Nat.two_pow_pos _)
  rcases settled with
    ⟨small, fine⟩ | ⟨multiplierOdd, separates⟩ |
    ⟨hit, found, separates, coprime, large⟩
  · refine .inl ⟨small, ?_⟩
    have exact := PowerPair.eq_of_isNear fine within isNear
    have difference := lifted_difference decimal odd lower
    have two_pos : (0 : ℚ) < (PowerPair.ofPower power).two :=
      Nat.cast_pos.mpr (PowerPair.two_ofPower_pos power)
    have exactCast := congrArg (Nat.cast (R := ℚ)) exact
    rw [Nat.cast_mul, Nat.cast_mul odd] at exactCast
    rw [exactCast, sub_self, zero_mul] at difference
    have zero := (mul_eq_zero.mp difference.symm).resolve_left (by positivity)
    exact sub_eq_zero.mp zero
  · have otherEven :
        (PowerPair.ofPower power).evenOther (PowerPair.ofPower power).multiplier %
          2 = 0 :=
      Nat.mul_mod_right 2 _
    exact absurd isNear (separates.not_isNear multiplierOdd otherEven isOdd within)
  · obtain ⟨decimal_eq, odd_eq⟩ :=
      separates.eq_of_isNear coprime large scaledPositive within isNear
    exact .inr (mem_nearMisses lower found decimal_eq odd_eq)

end Midpoints

end StreamJoin
