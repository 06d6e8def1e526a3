namespace StreamJoin

/-!
# Hexadecimal digits

Hexadecimal digits are written in lower case and read in either case.
-/

/-- The lower-case hexadecimal digit of a number below sixteen. -/
def hexDigit (number : Nat) : Char :=
  if number < 10 then
    Char.ofNat ('0'.toNat + number)
  else
    Char.ofNat ('a'.toNat + (number - 10))

/-- The value of a hexadecimal digit of either case. -/
def hexValue? (character : Char) : Option Nat :=
  let code := character.toNat
  if '0'.toNat ≤ code ∧ code ≤ '9'.toNat then
    some (code - '0'.toNat)
  else if 'a'.toNat ≤ code ∧ code ≤ 'f'.toNat then
    some (code - 'a'.toNat + 10)
  else if 'A'.toNat ≤ code ∧ code ≤ 'F'.toNat then
    some (code - 'A'.toNat + 10)
  else
    none

end StreamJoin
