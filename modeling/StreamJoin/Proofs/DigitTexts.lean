import Mathlib.Data.List.Basic
import Mathlib.Tactic.Ring
import StreamJoin.Text.Digits

namespace StreamJoin

/-!
# Digits and numbers

The digits of a number are written from the last one on, so what is known about them
comes by cutting the last digit off (`decimalDigits_of_ge`).  They are the ones that
the standard library writes (`digitText_decimalDigits`), there is at least one, the
first is zero only for the number zero, and a number has at most so many digits as
the power of ten that it stays below.
-/

namespace Digit

/-- A character stands for a digit exactly if it is the character of the digit. -/
theorem ofChar?_eq_some_iff {character : Char} {digit : Digit} :
    ofChar? character = some digit ↔ character = digit.toChar := by
  constructor
  · intro stands
    simp only [ofChar?] at stands
    split at stands
    · rename_i isDigit
      obtain rfl := Option.some.inj stands
      have sum : '0'.toNat + (character.toNat - '0'.toNat) = character.toNat := by
        omega
      rw [toChar, sum, Char.ofNat_toNat]
    · cases stands
  · rintro rfl
    exact ofChar?_toChar digit

/-- Digits are written with the characters of the standard library. -/
theorem toChar_eq_digitChar (digit : Digit) :
    digit.toChar = Nat.digitChar digit.val := by
  revert digit
  decide

end Digit

section Values

variable {value : Nat} {digits later : List Digit}

/-- The first of some digits moves what was read one place up. -/
theorem extendByDigits_cons (value : Nat) (digit : Digit) (later : List Digit) :
    extendByDigits value (digit :: later) =
      extendByDigits (10 * value + digit.val) later := rfl

/-- Digits are read one list after the other. -/
theorem extendByDigits_append (value : Nat) (digits later : List Digit) :
    extendByDigits value (digits ++ later) =
      extendByDigits (extendByDigits value digits) later :=
  List.foldl_append

/-- Digits behind a number count the number as many powers of ten. -/
theorem extendByDigits_eq (value : Nat) (digits : List Digit) :
    extendByDigits value digits =
      value * 10 ^ digits.length + valueOfDigits digits := by
  induction digits generalizing value with
  | nil => simp [extendByDigits, valueOfDigits]
  | cons digit later inductionHypothesis =>
      rw [valueOfDigits, extendByDigits_cons, extendByDigits_cons,
        inductionHypothesis, inductionHypothesis (10 * 0 + digit.val),
        List.length_cons, Nat.pow_succ']
      ring

/-- Reading more digits makes a number no smaller. -/
theorem le_extendByDigits (value : Nat) (digits : List Digit) :
    value ≤ extendByDigits value digits := by
  rw [extendByDigits_eq]
  exact (Nat.le_mul_of_pos_right value (Nat.pow_pos (Nat.succ_pos 9))).trans
    (Nat.le_add_right _ _)

/-- Zeros behind a number multiply it by powers of ten. -/
theorem extendByDigits_zeros (value count : Nat) :
    extendByDigits value (List.replicate count Digit.zero) =
      value * 10 ^ count := by
  induction count generalizing value with
  | zero => simp [extendByDigits]
  | succ count inductionHypothesis =>
      rw [List.replicate_succ, extendByDigits_cons, inductionHypothesis,
        Nat.pow_succ']
      simp only [Digit.zero, Fin.isValue, Fin.val_zero, Nat.add_zero]
      ring

/-- As many digits make a number below that power of ten. -/
theorem valueOfDigits_lt (digits : List Digit) :
    valueOfDigits digits < 10 ^ digits.length := by
  induction digits with
  | nil => decide
  | cons digit later inductionHypothesis =>
      have digitBound := digit.isLt
      have places : (digit.val + 1) * 10 ^ later.length ≤ 10 * 10 ^ later.length :=
        Nat.mul_le_mul_right _ digitBound
      rw [valueOfDigits, extendByDigits_cons, extendByDigits_eq, List.length_cons,
        Nat.pow_succ', Nat.mul_zero, Nat.zero_add]
      rw [Nat.add_one_mul] at places
      omega

end Values

section Digits

variable {number : Nat}

/-- The binary length of a number drops when its last digit is cut off. -/
theorem log2_div_ten_lt
    {fuel : Nat}
    (notSmall : ¬ number < 10)
    (enough : number.log2 < fuel + 1) :
    (number / 10).log2 < fuel := by
  have bounded : number < 2 ^ (fuel + 1) := (Nat.log2_lt (by omega)).mp enough
  have doubled : 2 ^ (fuel + 1) = 2 * 2 ^ fuel := Nat.pow_succ'
  exact (Nat.log2_lt (by omega)).mpr (by omega)

/-- How much fuel there is does not matter as soon as it is enough. -/
theorem prependDigits_eq
    {fuel more : Nat}
    (enough : number.log2 < fuel)
    (enoughMore : number.log2 < more)
    (later : List Digit) :
    prependDigits fuel number later = prependDigits more number later := by
  induction fuel generalizing number more later with
  | zero => exact absurd enough (Nat.not_lt_zero _)
  | succ fuel inductionHypothesis =>
      obtain ⟨more, rfl⟩ :=
        Nat.exists_eq_add_one_of_ne_zero (Nat.ne_zero_of_lt enoughMore)
      unfold prependDigits
      split
      · rfl
      · rename_i notSmall
        exact
          inductionHypothesis (log2_div_ten_lt notSmall enough)
            (log2_div_ten_lt notSmall enoughMore) _

/-- The digits that are written later stay behind. -/
theorem prependDigits_append (fuel number : Nat) (later behind : List Digit) :
    prependDigits fuel number (later ++ behind) =
      prependDigits fuel number later ++ behind := by
  induction fuel generalizing number later with
  | zero => rfl
  | succ fuel inductionHypothesis =>
      unfold prependDigits
      split
      · rfl
      · rw [← List.cons_append]
        exact inductionHypothesis _ _

/-- A number below ten is one digit. -/
theorem decimalDigits_of_lt (small : number < 10) :
    decimalDigits number = [⟨number, small⟩] := by
  simp [decimalDigits, prependDigits, small]

/-- The last digit of a number stands behind those of the number without it. -/
theorem decimalDigits_of_ge (notSmall : ¬ number < 10) :
    decimalDigits number =
      decimalDigits (number / 10) ++
        [⟨number % 10, Nat.mod_lt number (by decide)⟩] := by
  have smaller := log2_div_ten_lt notSmall (Nat.lt_succ_self number.log2)
  rw [decimalDigits, prependDigits, dif_neg notSmall, decimalDigits,
    ← prependDigits_append]
  exact prependDigits_eq smaller (Nat.lt_succ_self _) _

/-- The digits of a number are those that the standard library writes. -/
theorem digitText_decimalDigits (number : Nat) :
    digitText (decimalDigits number) = number.repr.toList := by
  rw [Nat.toList_repr]
  induction number using Nat.strongRecOn with
  | ind number inductionHypothesis =>
      by_cases small : number < 10
      · rw [decimalDigits_of_lt small, Nat.toDigits_of_lt_base small]
        exact congrArg (fun character => [character]) (Digit.toChar_eq_digitChar _)
      · rw [decimalDigits_of_ge small,
          Nat.toDigits_of_base_le (by decide) (Nat.not_lt.mp small),
          ← inductionHypothesis (number / 10) (by omega), digitText,
          List.map_append]
        exact congrArg (fun character => digitText _ ++ [character])
          (Digit.toChar_eq_digitChar _)

/-- Every number has a digit. -/
theorem decimalDigits_ne_nil (number : Nat) : decimalDigits number ≠ [] := by
  by_cases small : number < 10
  · rw [decimalDigits_of_lt small]
    exact List.cons_ne_nil _ _
  · rw [decimalDigits_of_ge small]
    exact List.append_ne_nil_of_right_ne_nil _ (List.cons_ne_nil _ _)

/-- Only the number zero has a zero as its first digit. -/
theorem head?_decimalDigits_ne_zero (positive : 0 < number) :
    (decimalDigits number).head? ≠ some Digit.zero := by
  induction number using Nat.strongRecOn with
  | ind number inductionHypothesis =>
      by_cases small : number < 10
      · rw [decimalDigits_of_lt small]
        intro isZero
        have : number = 0 := congrArg Fin.val (Option.some.inj isZero)
        omega
      · rw [decimalDigits_of_ge small,
          List.head?_append_of_ne_nil _ (decimalDigits_ne_nil _)]
        exact inductionHypothesis (number / 10) (by omega) (by omega)

/-- A number is at least the power of ten that belongs to its first digit. -/
theorem pow_length_decimalDigits_le (positive : 0 < number) :
    10 ^ ((decimalDigits number).length - 1) ≤ number := by
  induction number using Nat.strongRecOn with
  | ind number inductionHypothesis =>
      by_cases small : number < 10
      · rw [decimalDigits_of_lt small]
        exact positive
      · have rest := inductionHypothesis (number / 10) (by omega) (by omega)
        have hasDigits :=
          List.length_pos_iff.mpr (decimalDigits_ne_nil (number / 10))
        have count :
            (decimalDigits (number / 10)).length + 1 - 1 =
              (decimalDigits (number / 10)).length - 1 + 1 := by
          omega
        rw [decimalDigits_of_ge small, List.length_append, List.length_singleton,
          count, Nat.pow_succ]
        omega

/-- A number is below the power of ten that its digits count. -/
theorem lt_pow_length_decimalDigits (number : Nat) :
    number < 10 ^ (decimalDigits number).length := by
  simpa only [valueOfDigits_decimalDigits] using
    valueOfDigits_lt (decimalDigits number)

end Digits

end StreamJoin
