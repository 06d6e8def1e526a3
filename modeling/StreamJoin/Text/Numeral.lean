import StreamJoin.Text.Digits

namespace StreamJoin

/-!
# Numerals of machine words

This module reads an unsigned 64-bit number from its decimal text.  A single plus
sign may stand in front of the digits.  The text is read from left to right and
the first problem met is the one reported.
-/

/-- Why a text is not the numeral of an unsigned 64-bit number. -/
inductive NumeralProblem where
  | empty
  | invalidDigit
  | tooLarge
  deriving Repr, DecidableEq

/-- The wording of a numeral problem. -/
def NumeralProblem.message : NumeralProblem → String
  | .empty => "cannot parse integer from empty string"
  | .invalidDigit => "invalid digit found in string"
  | .tooLarge => "number too large to fit in target type"

/-- The first number that an unsigned 64-bit word does not hold. -/
def wordBound : Nat := 18446744073709551616

/-- Continue a number with the digits of a text. -/
def readDigits (value : Nat) : List Char → Except NumeralProblem Nat
  | [] => .ok value
  | character :: rest =>
      match Digit.ofChar? character with
      | none => .error .invalidDigit
      | some digit =>
          let extended := 10 * value + digit.val
          if extended < wordBound then
            readDigits extended rest
          else
            .error .tooLarge

/-- Read the numeral of an unsigned 64-bit number. -/
def readNumeral : List Char → Except NumeralProblem Nat
  | [] => .error .empty
  | ['+'] => .error .invalidDigit
  | '+' :: digits => readDigits 0 digits
  | digits => readDigits 0 digits

end StreamJoin
