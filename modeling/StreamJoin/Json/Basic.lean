import StreamJoin.Text.Digits

namespace StreamJoin

/-!
# JSON documents

A JSON document as the grammar gives it, before anything is asked of it: numbers
are kept as their digits, texts may hold halves of surrogate pairs, and objects
keep their members in order, repeated names included.
-/

/--
A unit of a JSON text: a character, or a half of a surrogate pair that was written
as an escape.
-/
inductive JsonUnit where
  | character (character : Char)
  | highHalf (bits : Fin 1024)
  | lowHalf (bits : Fin 1024)
  deriving Repr, DecidableEq

/-- How the exponent of a number is signed. -/
inductive ExponentSign where
  | unsigned
  | plus
  | minus
  deriving Repr, DecidableEq

/-- The exponent of a number. -/
structure JsonExponent where
  sign : ExponentSign
  digits : List Digit
  deriving Repr, DecidableEq

/-- A number as it is written; the fraction is empty when there is no point. -/
structure JsonNumber where
  negative : Bool
  whole : List Digit
  fraction : List Digit
  exponent : Option JsonExponent
  deriving Repr, DecidableEq

/-- A JSON document. -/
inductive Json where
  | null
  | boolean (truth : Bool)
  | number (number : JsonNumber)
  | text (units : List JsonUnit)
  | array (items : List Json)
  | object (members : List (List JsonUnit × Json))
  deriving Repr

/-- The characters of a JSON text, unless a half of a pair stands alone. -/
def joinHalves? : List JsonUnit → Option (List Char)
  | [] => some []
  | .character character :: rest =>
      (joinHalves? rest).map (character :: ·)
  | .highHalf high :: .lowHalf low :: rest =>
      (joinHalves? rest).map
        (Char.ofNat (0x10000 + 0x400 * high.val + low.val) :: ·)
  | .highHalf _ :: _ => none
  | .lowHalf _ :: _ => none

/-- The text that JSON units stand for, unless a half of a pair stands alone. -/
def textOfUnits? (units : List JsonUnit) : Option String :=
  (joinHalves? units).map String.ofList

/-- The JSON units of a text. -/
def unitsOfText (text : String) : List JsonUnit := text.toList.map .character

/-- The characters of a list of units without halves. -/
theorem joinHalves?_characters (characters : List Char) :
    joinHalves? (characters.map .character) = some characters := by
  induction characters with
  | nil => rfl
  | cons character rest inductionHypothesis =>
      simp [joinHalves?, inductionHypothesis]

/-- A text is what its units stand for. -/
theorem textOfUnits?_unitsOfText (text : String) :
    textOfUnits? (unitsOfText text) = some text := by
  simp [textOfUnits?, unitsOfText, joinHalves?_characters]

end StreamJoin
