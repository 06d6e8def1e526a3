import StreamJoin.Json.Basic
import StreamJoin.Text.Hexadecimal

namespace StreamJoin

/-!
# JSON texts between quotes

Writing and reading the content of a JSON text.  Only the quote, the backslash and
the control characters below the space are written as escapes; every escape of the
grammar is read.
-/

/-- An escape by the four hexadecimal digits of a code. -/
def codeEscape (code : Nat) : List Char :=
  ['\\', 'u', hexDigit (code / 4096 % 16), hexDigit (code / 256 % 16),
    hexDigit (code / 16 % 16), hexDigit (code % 16)]

/-- A character inside quotes. -/
def quotedCharacter (character : Char) : List Char :=
  match character with
  | '"' => ['\\', '"']
  | '\\' => ['\\', '\\']
  | '\x08' => ['\\', 'b']
  | '\t' => ['\\', 't']
  | '\n' => ['\\', 'n']
  | '\x0c' => ['\\', 'f']
  | '\r' => ['\\', 'r']
  | _ =>
      if character.toNat < 0x20 then
        codeEscape character.toNat
      else
        [character]

/-- A unit inside quotes. -/
def quotedUnit : JsonUnit → List Char
  | .character character => quotedCharacter character
  | .highHalf bits => codeEscape (0xD800 + bits.val)
  | .lowHalf bits => codeEscape (0xDC00 + bits.val)

/-- The content of a JSON text and the quote behind it. -/
def quotedUnits (units : List JsonUnit) : List Char :=
  units.flatMap quotedUnit ++ ['"']

/-- The character that a one-letter escape stands for. -/
def shortEscape? : Char → Option Char
  | '"' => some '"'
  | '\\' => some '\\'
  | '/' => some '/'
  | 'b' => some '\x08'
  | 'f' => some '\x0c'
  | 'n' => some '\n'
  | 'r' => some '\r'
  | 't' => some '\t'
  | _ => none

/-- The number written by four hexadecimal digits. -/
def fourHexDigits? (first second third fourth : Char) : Option Nat :=
  match hexValue? first, hexValue? second, hexValue? third, hexValue? fourth with
  | some a, some b, some c, some d => some (a * 4096 + b * 256 + c * 16 + d)
  | _, _, _, _ => none

/-- The unit that a code below `0x10000` stands for. -/
def unitOfCode (code : Nat) : JsonUnit :=
  if 0xD800 ≤ code ∧ code < 0xDC00 then
    .highHalf (Fin.ofNat 1024 (code - 0xD800))
  else if 0xDC00 ≤ code ∧ code < 0xE000 then
    .lowHalf (Fin.ofNat 1024 (code - 0xDC00))
  else
    .character (Char.ofNat code)

/-- A unit in front of what was read behind it. -/
def consUnit
    (unit : JsonUnit)
    (later : List JsonUnit × List Char) :
    List JsonUnit × List Char :=
  (unit :: later.1, later.2)

/--
Read the content of a JSON text up to its closing quote, with the characters behind
the quote.  Bare control characters and unknown escapes are refused.
-/
def readQuoted? : List Char → Option (List JsonUnit × List Char)
  | [] => none
  | '"' :: rest => some ([], rest)
  | '\\' :: 'u' :: first :: second :: third :: fourth :: rest =>
      match fourHexDigits? first second third fourth with
      | some code => (readQuoted? rest).map (consUnit (unitOfCode code))
      | none => none
  | '\\' :: letter :: rest =>
      match shortEscape? letter with
      | some character => (readQuoted? rest).map (consUnit (.character character))
      | none => none
  | character :: rest =>
      if character = '\\' ∨ character.toNat < 0x20 then
        none
      else
        (readQuoted? rest).map (consUnit (.character character))

end StreamJoin
