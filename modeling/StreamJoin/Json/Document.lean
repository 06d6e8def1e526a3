import StreamJoin.Json.Quoted

namespace StreamJoin

/-!
# Writing and reading JSON documents

Documents are written without blanks.  They are read strictly by the grammar, with
blanks between tokens, and a document must be the whole text.  Nesting is not
limited; the reader's fuel is twice the length of the text, because every level of
nesting takes a character and at most two calls.
-/

/-- The sign of an exponent. -/
def ExponentSign.write : ExponentSign → List Char
  | .unsigned => []
  | .plus => ['+']
  | .minus => ['-']

/-- A number as text. -/
def JsonNumber.write (number : JsonNumber) : List Char :=
  let sign := if number.negative then ['-'] else []
  let fraction :=
    match number.fraction with
    | [] => []
    | digits => '.' :: digitText digits
  let exponent :=
    match number.exponent with
    | none => []
    | some exponent => 'e' :: (exponent.sign.write ++ digitText exponent.digits)
  sign ++ digitText number.whole ++ fraction ++ exponent

namespace Json

mutual

/-- A document as text. -/
def write : Json → List Char
  | .null => ['n', 'u', 'l', 'l']
  | .boolean true => ['t', 'r', 'u', 'e']
  | .boolean false => ['f', 'a', 'l', 's', 'e']
  | .number digits => digits.write
  | .text units => '"' :: quotedUnits units
  | .array items => '[' :: (writeItems items ++ [']'])
  | .object members => '{' :: (writeMembers members ++ ['}'])

/-- The items of an array with commas between them. -/
def writeItems : List Json → List Char
  | [] => []
  | [item] => write item
  | item :: rest => write item ++ ',' :: writeItems rest

/-- The members of an object with commas between them. -/
def writeMembers : List (List JsonUnit × Json) → List Char
  | [] => []
  | [(name, item)] => '"' :: (quotedUnits name ++ ':' :: write item)
  | (name, item) :: rest =>
      '"' :: (quotedUnits name ++ ':' :: (write item ++ ',' :: writeMembers rest))

end

/-- The text of a document. -/
def toText (document : Json) : String := String.ofList document.write

end Json

/-- The blanks of the grammar. -/
def isJsonBlank (character : Char) : Bool :=
  character = ' ' || character = '\t' || character = '\n' || character = '\r'

/-- A text without the blanks in front of it. -/
def skipBlanks (text : List Char) : List Char := text.dropWhile isJsonBlank

/-- The digits in front of a text, and what follows them. -/
def spanDigits : List Char → List Digit × List Char
  | [] => ([], [])
  | character :: rest =>
      match Digit.ofChar? character with
      | none => ([], character :: rest)
      | some digit =>
          let later := spanDigits rest
          (digit :: later.1, later.2)

/--
Read the whole part of a number: a single zero, or digits that begin otherwise.
-/
def readWhole? (text : List Char) : Option (List Digit × List Char) :=
  match text with
  | '0' :: rest => some ([Digit.zero], rest)
  | _ =>
      match spanDigits text with
      | ([], _) => none
      | (digits, rest) => some (digits, rest)

/-- Read a fraction, if there is a point; digits must follow the point. -/
def readFraction? (text : List Char) : Option (List Digit × List Char) :=
  match text with
  | '.' :: rest =>
      match spanDigits rest with
      | ([], _) => none
      | (digits, rest) => some (digits, rest)
  | _ => some ([], text)

/-- The sign of an exponent, and what follows it. -/
def spanExponentSign : List Char → ExponentSign × List Char
  | '+' :: rest => (.plus, rest)
  | '-' :: rest => (.minus, rest)
  | text => (.unsigned, text)

/-- Read the sign and the digits of an exponent; there must be digits. -/
def readExponentDigits? (text : List Char) : Option (JsonExponent × List Char) :=
  let (sign, unsigned) := spanExponentSign text
  match spanDigits unsigned with
  | ([], _) => none
  | (digits, rest) => some (⟨sign, digits⟩, rest)

/-- Read an exponent, if there is one. -/
def readExponent? (text : List Char) : Option (Option JsonExponent × List Char) :=
  match text with
  | 'e' :: rest => (readExponentDigits? rest).map fun read => (some read.1, read.2)
  | 'E' :: rest => (readExponentDigits? rest).map fun read => (some read.1, read.2)
  | _ => some (none, text)

/-- Read a number whose sign is known. -/
def readMagnitude? (negative : Bool) (text : List Char) :
    Option (JsonNumber × List Char) :=
  match readWhole? text with
  | none => none
  | some (whole, afterWhole) =>
      match readFraction? afterWhole with
      | none => none
      | some (fraction, afterFraction) =>
          (readExponent? afterFraction).map fun read =>
            (⟨negative, whole, fraction, read.1⟩, read.2)

/-- Read a number. -/
def readNumber? : List Char → Option (JsonNumber × List Char)
  | '-' :: rest => readMagnitude? true rest
  | text => readMagnitude? false text

namespace Json

mutual

/-- Read a document at the start of a text that begins with no blank. -/
def readAt? : (fuel : Nat) → List Char → Option (Json × List Char)
  | 0, _ => none
  | _ + 1, 'n' :: 'u' :: 'l' :: 'l' :: rest => some (.null, rest)
  | _ + 1, 't' :: 'r' :: 'u' :: 'e' :: rest => some (.boolean true, rest)
  | _ + 1, 'f' :: 'a' :: 'l' :: 's' :: 'e' :: rest => some (.boolean false, rest)
  | _ + 1, '"' :: rest =>
      (readQuoted? rest).map fun read => (.text read.1, read.2)
  | fuel + 1, '[' :: rest =>
      match skipBlanks rest with
      | ']' :: behind => some (.array [], behind)
      | items => (readItems? fuel items).map fun read => (.array read.1, read.2)
  | fuel + 1, '{' :: rest =>
      match skipBlanks rest with
      | '}' :: behind => some (.object [], behind)
      | members =>
          (readMembers? fuel members).map fun read => (.object read.1, read.2)
  | _ + 1, source =>
      (readNumber? source).map fun read => (.number read.1, read.2)

/-- Read the items of an array, of which there is at least one, and its end. -/
def readItems? : (fuel : Nat) → List Char → Option (List Json × List Char)
  | 0, _ => none
  | fuel + 1, source =>
      match readAt? fuel source with
      | none => none
      | some (item, behind) =>
          match skipBlanks behind with
          | ']' :: rest => some ([item], rest)
          | ',' :: rest =>
              (readItems? fuel (skipBlanks rest)).map fun read =>
                (item :: read.1, read.2)
          | _ => none

/-- Read the members of an object, of which there is at least one, and its end. -/
def readMembers? :
    (fuel : Nat) → List Char → Option (List (List JsonUnit × Json) × List Char)
  | 0, _ => none
  | fuel + 1, '"' :: source =>
      match readQuoted? source with
      | none => none
      | some (name, behindName) =>
          match skipBlanks behindName with
          | ':' :: value =>
              match readAt? fuel (skipBlanks value) with
              | none => none
              | some (item, behind) =>
                  match skipBlanks behind with
                  | '}' :: rest => some ([(name, item)], rest)
                  | ',' :: rest =>
                      (readMembers? fuel (skipBlanks rest)).map fun read =>
                        ((name, item) :: read.1, read.2)
                  | _ => none
          | _ => none
  | _ + 1, _ => none

end

/-- Read a document that is a whole text, blanks around it apart. -/
def readAll? (source : List Char) : Option Json :=
  match readAt? (2 * source.length + 1) (skipBlanks source) with
  | none => none
  | some (document, behind) =>
      if (skipBlanks behind).isEmpty then some document else none

/-- Read the document that a text holds. -/
def ofText? (source : String) : Option Json := readAll? source.toList

end Json

end StreamJoin
