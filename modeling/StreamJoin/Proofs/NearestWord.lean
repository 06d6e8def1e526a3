import Mathlib.Data.Nat.Dist
import Mathlib.Order.Monotone.Basic
import Mathlib.Tactic.Ring
import StreamJoin.Binary.Rounding

namespace StreamJoin

/-!
# The nearest word

Magnitude words are ordered as the numbers that they denote, since a greater word
denotes a greater number of units.  Rounding therefore is a map between two orders,
and two facts decide everything about comparisons of rounded numbers.  It is
monotone (`roundUnits_mono`), and a number that a word denotes is rounded to that
word (`roundUnits_units`).

The third main result, `nearestEven_roundUnits`, says that rounding is what its name
promises: no word is nearer than the result, and if another one is equally near then
the result is even.
-/

section Quotients

variable {numerator larger denominator multiple : Nat}

/-- The nearest whole number is the quotient rounded down or up. -/
theorem div_le_divNearestEven_le :
    numerator / denominator ≤ divNearestEven numerator denominator ∧
      divNearestEven numerator denominator ≤ numerator / denominator + 1 := by
  simp only [divNearestEven]
  repeat' split
  all_goals omega

/-- The nearest quotient grows with the numerator. -/
theorem divNearestEven_mono (le : numerator ≤ larger) :
    divNearestEven numerator denominator ≤ divNearestEven larger denominator := by
  have quotients : numerator / denominator ≤ larger / denominator :=
    Nat.div_le_div_right le
  rcases Nat.eq_or_lt_of_le quotients with same | below
  · -- Equal quotients leave the comparison to the remainders.
    have remainders : numerator % denominator ≤ larger % denominator := by
      have numeratorShape := Nat.div_add_mod numerator denominator
      have largerShape := Nat.div_add_mod larger denominator
      rw [same] at numeratorShape
      omega
    simp only [divNearestEven, same]
    repeat' split
    all_goals omega
  · calc
      divNearestEven numerator denominator ≤ numerator / denominator + 1 :=
        div_le_divNearestEven_le.2
      _ ≤ larger / denominator := below
      _ ≤ divNearestEven larger denominator := div_le_divNearestEven_le.1

/-- A multiple of the denominator is divided exactly. -/
theorem divNearestEven_mul (positive : 0 < denominator) :
    divNearestEven (multiple * denominator) denominator = multiple := by
  simp [divNearestEven, Nat.mul_div_cancel multiple positive, positive]

/-- The nearest quotient is no less than a whole number below the exact one. -/
theorem le_divNearestEven
    (positive : 0 < denominator)
    (le : multiple * denominator ≤ numerator) :
    multiple ≤ divNearestEven numerator denominator :=
  (divNearestEven_mul positive).symm.trans_le (divNearestEven_mono le)

/-- The nearest quotient is no more than a whole number above the exact one. -/
theorem divNearestEven_le
    (positive : 0 < denominator)
    (le : numerator ≤ multiple * denominator) :
    divNearestEven numerator denominator ≤ multiple :=
  (divNearestEven_mono le).trans_eq (divNearestEven_mul positive)

/--
Where a multiple of the denominator stands: it is one of the two around the number
or not.
-/
theorem multiple_cases (numerator denominator multiple : Nat) :
    multiple * denominator + denominator ≤ numerator / denominator * denominator ∨
      multiple = numerator / denominator ∨ multiple = numerator / denominator + 1 ∨
        (numerator / denominator + 1) * denominator + denominator ≤
          multiple * denominator := by
  rcases Nat.lt_or_ge multiple (numerator / denominator) with less | notLess
  · exact
      .inl
        (Nat.add_one_mul multiple denominator ▸
          Nat.mul_le_mul_right denominator less)
  rcases Nat.lt_or_ge (numerator / denominator + 1) multiple with more | notMore
  · exact .inr (.inr (.inr
      (Nat.add_one_mul (numerator / denominator + 1) denominator ▸
        Nat.mul_le_mul_right denominator more)))
  · omega

/--
No multiple of the denominator is nearer, and if another one is equally near then
the nearest whole number is even.
-/
theorem divNearestEven_nearest
    (numerator : Nat)
    (positive : 0 < denominator)
    (multiple : Nat) :
    numerator.dist (divNearestEven numerator denominator * denominator) ≤
        numerator.dist (multiple * denominator) ∧
      (numerator.dist (divNearestEven numerator denominator * denominator) =
          numerator.dist (multiple * denominator) →
        multiple = divNearestEven numerator denominator ∨
          divNearestEven numerator denominator % 2 = 0) := by
  have shape := Nat.div_add_mod' numerator denominator
  have remainder := Nat.mod_lt numerator positive
  have next := Nat.add_one_mul (numerator / denominator) denominator
  have around := multiple_cases numerator denominator multiple
  simp only [divNearestEven, Nat.dist]
  split
  · rcases around with far | rfl | rfl | far <;> omega
  · split
    · rcases around with far | rfl | rfl | far <;> omega
    · -- At a tie the quotient stays or goes up, whichever is even.
      have tie :
          numerator / denominator + numerator / denominator % 2 =
              numerator / denominator ∨
            numerator / denominator + numerator / denominator % 2 =
              numerator / denominator + 1 := by
        omega
      rcases tie with even | odd
      · rw [even]
        rcases around with far | rfl | rfl | far <;> omega
      · rw [odd]
        rcases around with far | rfl | rfl | far <;> omega

end Quotients

namespace BinaryFormat

variable (format : BinaryFormat) {level count : Nat}

/-- The hidden bit is positive. -/
theorem hiddenBit_pos : 0 < format.hiddenBit := Nat.two_pow_pos _

/--
A word counts steps in a binade, which is the lowest one or has only normal words.
-/
theorem exists_place (word : Nat) :
    ∃ level count,
      word = level * format.hiddenBit + count ∧
        (level = 0 ∨ format.hiddenBit ≤ count) ∧ count < 2 * format.hiddenBit := by
  have shape := Nat.div_add_mod' word format.hiddenBit
  have fraction := Nat.mod_lt word (format.hiddenBit_pos)
  cases exponent : word / format.hiddenBit with
  | zero =>
      rw [exponent] at shape
      exact ⟨0, word, by omega, .inl rfl, by omega⟩
  | succ level =>
      rw [exponent, Nat.succ_mul] at shape
      exact
        ⟨level, format.hiddenBit + word % format.hiddenBit, by omega,
          .inr (by omega), by omega⟩

/--
A word has as many units as steps, times the size that steps have in the binade.
-/
theorem units_place
    (normal : level = 0 ∨ format.hiddenBit ≤ count)
    (within : count ≤ 2 * format.hiddenBit) :
    format.units (level * format.hiddenBit + count) = count * 2 ^ level := by
  have positive := format.hiddenBit_pos
  rcases Nat.lt_or_ge count format.hiddenBit with subnormal | reached
  · obtain rfl : level = 0 := normal.resolve_right (by omega)
    simp [units, Nat.div_eq_of_lt subnormal, Nat.mod_eq_of_lt subnormal]
  · obtain ⟨fraction, rfl⟩ := Nat.exists_eq_add_of_le reached
    rcases Nat.lt_or_ge fraction format.hiddenBit with inside | full
    · have shape :
          level * format.hiddenBit + (format.hiddenBit + fraction) =
            fraction + format.hiddenBit * (level + 1) := by
        ring
      simp [units, shape, Nat.add_mul_div_left _ _ positive,
        Nat.div_eq_of_lt inside, Nat.add_mul_mod_self_left, Nat.mod_eq_of_lt inside]
    · -- The last step of a binade is the first number of the next one.
      obtain rfl : fraction = format.hiddenBit := by omega
      have shape :
          level * format.hiddenBit + (format.hiddenBit + format.hiddenBit) =
            format.hiddenBit * (level + 2) := by
        ring
      simp [units, shape, Nat.mul_div_cancel_left _ positive, Nat.pow_succ]
      ring

/-- The next word stands for more units. -/
theorem units_succ (word : Nat) : format.units word < format.units (word + 1) := by
  obtain ⟨level, count, rfl, normal, within⟩ := format.exists_place word
  have nextNormal : level = 0 ∨ format.hiddenBit ≤ count + 1 := by omega
  rw [format.units_place normal within.le, Nat.add_assoc,
    format.units_place nextNormal within]
  exact Nat.mul_lt_mul_of_pos_right (Nat.lt_succ_self count) (Nat.two_pow_pos level)

/-- Higher words stand for more units. -/
theorem strictMono_units : StrictMono format.units :=
  strictMono_nat_of_lt_succ format.units_succ

/--
How often the step between words doubles up to the binade of a number of units.
-/
def doublings (format : BinaryFormat) (units : Nat) : Nat :=
  units.log2 + 1 - (format.fractionBits + 1)

section Binade

variable {units larger : Nat}

/-- A number of units is below the end of its binade. -/
theorem lt_binade (units : Nat) :
    units < 2 * format.hiddenBit * 2 ^ format.doublings units := by
  have exponents :
      units.log2 + 1 ≤ format.fractionBits + 1 + format.doublings units := by
    unfold doublings
    omega
  calc
    units < 2 ^ (units.log2 + 1) := Nat.lt_log2_self
    _ ≤ 2 ^ (format.fractionBits + 1 + format.doublings units) :=
      Nat.pow_le_pow_right (by decide) exponents
    _ = 2 * format.hiddenBit * 2 ^ format.doublings units := by
      rw [Nat.pow_add, Nat.pow_succ, Nat.mul_comm 2]
      rfl

/-- A number of units is at least the start of its binade. -/
theorem binade_le (units : Nat) :
    format.doublings units = 0 ∨
      format.hiddenBit * 2 ^ format.doublings units ≤ units := by
  rcases Nat.eq_zero_or_pos (format.doublings units) with lowest | higher
  · exact .inl lowest
  · have exponents : format.fractionBits + format.doublings units = units.log2 := by
      unfold doublings at higher ⊢
      omega
    have nonzero : units ≠ 0 := by
      rintro rfl
      simp [doublings] at higher
    refine .inr ?_
    calc
      format.hiddenBit * 2 ^ format.doublings units = 2 ^ units.log2 := by
        rw [← exponents, Nat.pow_add]
        rfl
      _ ≤ units := Nat.log2_self_le nonzero

/-- The first number of a binade is the bound of every lower one. -/
theorem bound_le_of_lt {higher : Nat} (below : level < higher) :
    2 * format.hiddenBit * 2 ^ level ≤ format.hiddenBit * 2 ^ higher :=
  calc
    2 * format.hiddenBit * 2 ^ level = format.hiddenBit * 2 ^ (level + 1) := by ring
    _ ≤ format.hiddenBit * 2 ^ higher :=
      Nat.mul_le_mul_left _ (Nat.pow_le_pow_right (by decide) below)

/-- Fewer doublings suffice for a smaller number of units. -/
theorem doublings_le (bound : units < 2 * format.hiddenBit * 2 ^ level) :
    format.doublings units ≤ level := by
  by_contra higher
  rcases format.binade_le units with lowest | least
  · omega
  · have reached := format.bound_le_of_lt (Nat.not_le.mp higher)
    omega

/-- More units need no fewer doublings. -/
theorem doublings_mono (le : units ≤ larger) :
    format.doublings units ≤ format.doublings larger :=
  format.doublings_le (le.trans_lt (format.lt_binade larger))

/-- A number of steps of a binade belongs to that binade. -/
theorem doublings_place
    (normal : level = 0 ∨ format.hiddenBit ≤ count)
    (within : count < 2 * format.hiddenBit) :
    format.doublings (count * 2 ^ level) = level := by
  have positive := Nat.two_pow_pos level
  apply Nat.le_antisymm
  · exact format.doublings_le (Nat.mul_lt_mul_of_pos_right within positive)
  · rcases normal with rfl | least
    · exact Nat.zero_le _
    · by_contra lower
      have bound := format.lt_binade (count * 2 ^ level)
      have reached := format.bound_le_of_lt (Nat.not_le.mp lower)
      have first := Nat.mul_le_mul_right (2 ^ level) least
      omega

end Binade

/--
The whole number of steps in the binade of a quotient that is nearest to the
quotient.
-/
def nearestSteps (format : BinaryFormat) (numerator denominator : Nat) : Nat :=
  divNearestEven numerator
    (denominator * 2 ^ format.doublings (numerator / denominator))

section Quotient

variable {numerator larger denominator word : Nat}

/-- Rounding counts the steps of the binade and stops at infinity. -/
theorem roundUnits_eq :
    format.roundUnits numerator denominator =
      min
        (format.doublings (numerator / denominator) * format.hiddenBit +
          format.nearestSteps numerator denominator)
        format.infinityWord := rfl

/-- A quotient has at most the steps of one binade. -/
theorem nearestSteps_le (numerator : Nat) (positive : 0 < denominator) :
    format.nearestSteps numerator denominator ≤ 2 * format.hiddenBit := by
  have scaled := Nat.mul_pos positive
    (Nat.two_pow_pos (format.doublings (numerator / denominator)))
  apply divNearestEven_le scaled
  have bound := format.lt_binade (numerator / denominator)
  rw [Nat.div_lt_iff_lt_mul positive] at bound
  calc
    numerator ≤ _ := bound.le
    _ = _ := by ring

/-- Behind the first binade a quotient has at least the steps of half a binade. -/
theorem le_nearestSteps (numerator : Nat) (positive : 0 < denominator) :
    format.doublings (numerator / denominator) = 0 ∨
      format.hiddenBit ≤ format.nearestSteps numerator denominator := by
  refine (format.binade_le (numerator / denominator)).imp id fun least => ?_
  have scaled := Nat.mul_pos positive
    (Nat.two_pow_pos (format.doublings (numerator / denominator)))
  apply le_divNearestEven scaled
  rw [Nat.le_div_iff_mul_le positive] at least
  calc
    _ = _ := by ring
    _ ≤ numerator := least

/-- Rounding is monotone. -/
theorem roundUnits_mono
    (positive : 0 < denominator)
    (le : numerator ≤ larger) :
    format.roundUnits numerator denominator ≤
      format.roundUnits larger denominator := by
  rw [roundUnits_eq, roundUnits_eq]
  apply min_le_min_right
  have quotients : numerator / denominator ≤ larger / denominator :=
    Nat.div_le_div_right le
  rcases Nat.eq_or_lt_of_le (format.doublings_mono quotients) with same | below
  · rw [nearestSteps, nearestSteps, same]
    exact Nat.add_le_add_left (divNearestEven_mono le) _
  · -- The last word of one binade is the first of the next.
    have upper := format.nearestSteps_le numerator positive
    have lower :=
      (format.le_nearestSteps larger positive).resolve_left (by omega)
    have binades := Nat.mul_le_mul_right format.hiddenBit below
    rw [Nat.succ_mul] at binades
    omega

/-- A number that a word denotes is rounded to the word. -/
theorem roundUnits_units (within : word ≤ format.infinityWord) :
    format.roundUnits (format.units word) 1 = word := by
  obtain ⟨level, count, rfl, normal, bound⟩ := format.exists_place word
  rw [format.units_place normal bound.le, roundUnits_eq, nearestSteps, Nat.div_one,
    format.doublings_place normal bound, Nat.one_mul,
    divNearestEven_mul (Nat.two_pow_pos level)]
  exact Nat.min_eq_left within

/-- The number of units of a rounded quotient, unless it overflows. -/
theorem units_roundUnits
    (positive : 0 < denominator)
    (finite : format.roundUnits numerator denominator < format.infinityWord) :
    format.units (format.roundUnits numerator denominator) =
      format.nearestSteps numerator denominator *
        2 ^ format.doublings (numerator / denominator) := by
  rw [roundUnits_eq] at finite ⊢
  rw [min_eq_left (by omega)]
  exact
    format.units_place (format.le_nearestSteps numerator positive)
      (format.nearestSteps_le numerator positive)

/--
A whole number of steps of its binade is rounded to itself, unless it overflows.
-/
theorem units_roundUnits_of_dvd
    (finite : format.roundUnits numerator 1 < format.infinityWord)
    (wholeSteps : 2 ^ format.doublings numerator ∣ numerator) :
    format.units (format.roundUnits numerator 1) = numerator := by
  rw [format.units_roundUnits Nat.one_pos finite, nearestSteps, Nat.div_one,
    Nat.one_mul]
  generalize format.doublings numerator = level at wholeSteps ⊢
  obtain ⟨count, rfl⟩ := wholeSteps
  rw [Nat.mul_comm (2 ^ level), divNearestEven_mul (Nat.two_pow_pos level)]

/-- A number that is not above a word is not rounded above it. -/
theorem roundUnits_le
    (within : word ≤ format.infinityWord)
    (le : numerator ≤ format.units word) :
    format.roundUnits numerator 1 ≤ word :=
  (format.roundUnits_mono Nat.one_pos le).trans_eq (format.roundUnits_units within)

/--
A word of the binade of a quotient or of a higher one denotes a number of its steps.
-/
theorem units_word_cases (least : Nat) (word : Nat) :
    (∃ multiple, format.units word = multiple * 2 ^ least) ∨
      0 < least ∧ format.units word < format.hiddenBit * 2 ^ least := by
  obtain ⟨level, count, rfl, normal, bound⟩ := format.exists_place word
  rw [format.units_place normal bound.le]
  rcases Nat.lt_or_ge level least with below | reached
  · refine .inr ⟨by omega, ?_⟩
    calc
      count * 2 ^ level < 2 * format.hiddenBit * 2 ^ level :=
        Nat.mul_lt_mul_of_pos_right bound (Nat.two_pow_pos level)
      _ ≤ format.hiddenBit * 2 ^ least := format.bound_le_of_lt below
  · refine .inl ⟨count * 2 ^ (level - least), ?_⟩
    rw [Nat.mul_assoc, ← Nat.pow_add, Nat.sub_add_cancel reached]

/-- The word that is rounded to is even when the number of steps is. -/
theorem roundUnits_mod_two
    (fractional : 0 < format.fractionBits)
    (finite : format.roundUnits numerator denominator < format.infinityWord)
    (even : format.nearestSteps numerator denominator % 2 = 0) :
    format.roundUnits numerator denominator % 2 = 0 := by
  have hiddenEven : 2 ∣ format.hiddenBit := dvd_pow_self 2 fractional.ne'
  have binadesEven :=
    hiddenEven.mul_left (format.doublings (numerator / denominator))
  rw [roundUnits_eq] at finite ⊢
  rw [min_eq_left (by omega)]
  omega

/--
No word is nearer to a quotient than the rounded one, and if another one is equally
near then the rounded one is even.
-/
theorem nearestEven_roundUnits
    (positive : 0 < denominator)
    (fractional : 0 < format.fractionBits)
    (finite : format.roundUnits numerator denominator < format.infinityWord)
    (word : Nat) :
    numerator.dist
      (format.units (format.roundUnits numerator denominator) * denominator) ≤
        numerator.dist (format.units word * denominator) ∧
      (numerator.dist
        (format.units (format.roundUnits numerator denominator) * denominator) =
          numerator.dist (format.units word * denominator) →
        word = format.roundUnits numerator denominator ∨
          format.roundUnits numerator denominator % 2 = 0) := by
  have rounded := format.units_roundUnits positive finite
  have isEven := format.roundUnits_mod_two fractional finite
  have least := format.binade_le (numerator / denominator)
  have injective := format.strictMono_units.injective
  generalize format.roundUnits numerator denominator = result at *
  have nearest :=
    divNearestEven_nearest numerator
      (Nat.mul_pos positive
        (Nat.two_pow_pos (format.doublings (numerator / denominator))))
  unfold nearestSteps at rounded isEven
  generalize format.doublings (numerator / denominator) = level at *
  have size (multiple : Nat) :
      multiple * 2 ^ level * denominator =
        multiple * (denominator * 2 ^ level) := by
    ring
  rw [rounded, size]
  rcases format.units_word_cases level word with
    ⟨multiple, onGrid⟩ | ⟨higher, below⟩
  · rw [onGrid, size]
    refine
      ⟨(nearest multiple).1, fun same => ((nearest multiple).2 same).imp ?_ isEven⟩
    rintro rfl
    exact injective (onGrid.trans rounded.symm)
  · -- The first number of the binade is a multiple that is nearer than all words
    -- below it.
    have first := (nearest format.hiddenBit).1
    have reached := least.resolve_left (by omega)
    rw [Nat.le_div_iff_mul_le positive, size] at reached
    have farther := Nat.mul_lt_mul_of_pos_right below positive
    rw [size] at farther
    simp only [Nat.dist] at first ⊢
    omega

end Quotient

end BinaryFormat

end StreamJoin
