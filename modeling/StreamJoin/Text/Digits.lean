namespace StreamJoin

/-!
# Decimal digits

Digits as numbers below ten, their characters, and the passage between a natural
number and its digits.  `valueOfDigits_decimalDigits` states that writing a
number and reading it back changes nothing.
-/

/-- A decimal digit. -/
abbrev Digit := Fin 10

namespace Digit

/-- The digit zero. -/
def zero : Digit := 0

/-- The ASCII character of a digit. -/
def toChar (digit : Digit) : Char := Char.ofNat ('0'.toNat + digit.val)

/-- The digit that an ASCII character stands for. -/
def ofChar? (character : Char) : Option Digit :=
  let offset := character.toNat - '0'.toNat
  if isDigit : '0'.toNat ≤ character.toNat ∧ offset < 10 then
    some ⟨offset, isDigit.2⟩
  else
    none

/-- The character of a digit stands for that digit. -/
theorem ofChar?_toChar (digit : Digit) : ofChar? digit.toChar = some digit := by
  revert digit
  decide

end Digit

/-- The number that a list of digits denotes, as a continuation of `value`. -/
def extendByDigits (value : Nat) (digits : List Digit) : Nat :=
  digits.foldl (fun number digit => 10 * number + digit.val) value

/-- The number that a list of digits denotes. -/
def valueOfDigits (digits : List Digit) : Nat := extendByDigits 0 digits

/-- Put the digits of a number in front of others; `fuel` bounds their count. -/
def prependDigits : (fuel : Nat) → Nat → List Digit → List Digit
  | 0, _, later => later
  | fuel + 1, number, later =>
      if small : number < 10 then
        ⟨number, small⟩ :: later
      else
        prependDigits fuel (number / 10)
          (⟨number % 10, Nat.mod_lt number (by decide)⟩ :: later)

/-- The digits of a number without leading zeros; zero has one digit. -/
def decimalDigits (number : Nat) : List Digit :=
  prependDigits (number.log2 + 1) number []

/-- A list of digits as text. -/
def digitText (digits : List Digit) : List Char := digits.map Digit.toChar

/-- Digits in front of others count for as many powers of ten. -/
theorem valueOfDigits_prependDigits
    (fuel number : Nat)
    (later : List Digit)
    (enoughFuel : number.log2 < fuel) :
    extendByDigits 0 (prependDigits fuel number later) =
      extendByDigits number later := by
  induction fuel generalizing number later with
  | zero => exact absurd enoughFuel (Nat.not_lt_zero _)
  | succ fuel inductionHypothesis =>
      unfold prependDigits
      split
      · simp [extendByDigits]
      · rename_i twoDigits
        have bounded : number < 2 ^ (fuel + 1) :=
          (Nat.log2_lt (by omega)).mp enoughFuel
        have smaller : (number / 10).log2 < fuel := by
          have doubled : 2 ^ (fuel + 1) = 2 * 2 ^ fuel := Nat.pow_succ'
          exact (Nat.log2_lt (by omega)).mpr (by omega)
        rw [inductionHypothesis (number / 10) _ smaller]
        have recombined : 10 * (number / 10) + number % 10 = number :=
          Nat.div_add_mod number 10
        simp [extendByDigits, recombined]

/-- The digits of a number denote that number. -/
theorem valueOfDigits_decimalDigits (number : Nat) :
    valueOfDigits (decimalDigits number) = number :=
  valueOfDigits_prependDigits (number.log2 + 1) number [] (Nat.lt_succ_self _)

end StreamJoin
