import StreamJoin.Json.Document
import StreamJoin.Proofs.DigitTexts

namespace StreamJoin

/-!
# Reading what was written

Reading a written JSON document gives the document back, whatever it holds: texts
with any characters and halves of surrogate pairs, numbers with fractions and
exponents, nested arrays and objects.  That is the main result,
`Json.ofText?_toText`.

A number must be written as the grammar has it, with digits where digits must be and
without leading zeros (`JsonNumber.WellFormed`).  Nothing marks the end of a number,
so it is read back only if what follows does not go on with it; in a document a
comma, a bracket or the end follows.

The reader counts its fuel down with every level of nesting and every item.  Twice
the length of what was written is always enough.
-/

/-- A hexadecimal digit is read back. -/
theorem hexValue?_hexDigit {number : Nat} (small : number < 16) :
    hexValue? (hexDigit number) = some number := by
  have all :
      ∀ digit : Fin 16, hexValue? (hexDigit digit.val) = some digit.val := by decide
  exact all ⟨number, small⟩

/-- The four digits of an escape give back its code. -/
theorem readQuoted?_codeEscape_append
    {code : Nat}
    (small : code < 0x10000)
    (rest : List Char) :
    readQuoted? (codeEscape code ++ rest) =
      (readQuoted? rest).map (consUnit (unitOfCode code)) := by
  have digit (shift : Nat) :
      hexValue? (hexDigit (code / shift % 16)) = some (code / shift % 16) :=
    hexValue?_hexDigit (Nat.mod_lt _ (by decide))
  have lowest : hexValue? (hexDigit (code % 16)) = some (code % 16) :=
    hexValue?_hexDigit (Nat.mod_lt _ (by decide))
  have recombined :
      code / 4096 % 16 * 4096 + code / 256 % 16 * 256 + code / 16 % 16 * 16 +
        code % 16 = code := by
    omega
  have four :
      fourHexDigits? (hexDigit (code / 4096 % 16)) (hexDigit (code / 256 % 16))
          (hexDigit (code / 16 % 16)) (hexDigit (code % 16)) =
        some code := by
    simp only [fourHexDigits?, digit, lowest, recombined]
  simp only [codeEscape, List.cons_append, List.nil_append, readQuoted?, four]

/-- A control character is told by its code. -/
theorem unitOfCode_character {character : Char} (control : character.toNat < 0x20) :
    unitOfCode character.toNat = .character character := by
  rw [unitOfCode, if_neg (by omega), if_neg (by omega), Char.ofNat_toNat]

/-- The first half of a pair is told by its code. -/
theorem unitOfCode_highHalf (bits : Fin 1024) :
    unitOfCode (0xD800 + bits.val) = .highHalf bits := by
  have bound := bits.isLt
  rw [unitOfCode, if_pos (by omega), Nat.add_sub_cancel_left]
  exact congrArg JsonUnit.highHalf (Fin.ext (Nat.mod_eq_of_lt bound))

/-- The second half of a pair is told by its code. -/
theorem unitOfCode_lowHalf (bits : Fin 1024) :
    unitOfCode (0xDC00 + bits.val) = .lowHalf bits := by
  have bound := bits.isLt
  rw [unitOfCode, if_neg (by omega), if_pos (by omega), Nat.add_sub_cancel_left]
  exact congrArg JsonUnit.lowHalf (Fin.ext (Nat.mod_eq_of_lt bound))

/-- A character that needs no escape is read as it stands. -/
theorem readQuoted?_cons
    {character : Char}
    (noQuote : character ≠ '"')
    (noBackslash : character ≠ '\\')
    (noControl : ¬ character.toNat < 0x20)
    (rest : List Char) :
    readQuoted? (character :: rest) =
      (readQuoted? rest).map (consUnit (.character character)) := by
  rw [readQuoted?.eq_def]
  split <;> simp_all

/-- A quoted character is read back, whatever follows. -/
theorem readQuoted?_quotedCharacter_append (character : Char) (rest : List Char) :
    readQuoted? (quotedCharacter character ++ rest) =
      (readQuoted? rest).map (consUnit (.character character)) := by
  unfold quotedCharacter
  split
  case h_8 noQuote noBackslash _ _ _ _ _ =>
    split
    · rename_i control
      have small : character.toNat < 0x10000 := by omega
      rw [readQuoted?_codeEscape_append small, unitOfCode_character control]
    · rename_i noControl
      exact readQuoted?_cons noQuote noBackslash noControl rest
  all_goals rfl

/-- A written unit is read back in front of what follows it. -/
theorem readQuoted?_quotedUnit_append (unit : JsonUnit) (rest : List Char) :
    readQuoted? (quotedUnit unit ++ rest) =
      (readQuoted? rest).map (consUnit unit) := by
  cases unit with
  | character character => exact readQuoted?_quotedCharacter_append character rest
  | highHalf bits =>
      have bound := bits.isLt
      rw [quotedUnit, readQuoted?_codeEscape_append (by omega), unitOfCode_highHalf]
  | lowHalf bits =>
      have bound := bits.isLt
      rw [quotedUnit, readQuoted?_codeEscape_append (by omega), unitOfCode_lowHalf]

/-- A written text is read back up to its closing quote. -/
theorem readQuoted?_quotedUnits_append (units : List JsonUnit) (rest : List Char) :
    readQuoted? (quotedUnits units ++ rest) = some (units, rest) := by
  induction units with
  | nil => rfl
  | cons unit later inductionHypothesis =>
      have first :
          quotedUnits (unit :: later) ++ rest =
            quotedUnit unit ++ (quotedUnits later ++ rest) := by
        simp only [quotedUnits, List.flatMap_cons, List.append_assoc]
      rw [first, readQuoted?_quotedUnit_append, inductionHypothesis]
      rfl

/-- The next character is no digit, if there is one. -/
def EndsDigits (rest : List Char) : Prop :=
  ∀ character, rest.head? = some character → Digit.ofChar? character = none

/-- The next character cannot go on with a number, if there is one. -/
def EndsNumber (rest : List Char) : Prop :=
  EndsDigits rest ∧
    ∀ character, rest.head? = some character → character ∉ ['.', 'e', 'E']

/-- A character that is no digit ends digits. -/
theorem endsDigits_cons
    {character : Char}
    (noDigit : Digit.ofChar? character = none)
    (later : List Char) : EndsDigits (character :: later) := by
  rintro first ⟨⟩
  exact noDigit

/-- Nothing ends a number. -/
theorem endsNumber_nil : EndsNumber [] := ⟨nofun, nofun⟩

/-- A comma or a closing bracket ends a number. -/
theorem endsNumber_cons
    {character : Char}
    (isEnd : character ∈ [',', ']', '}'])
    (later : List Char) :
    EndsNumber (character :: later) := by
  have all :
      ∀ character ∈ [',', ']', '}'],
        Digit.ofChar? character = none ∧ character ∉ ['.', 'e', 'E'] := by
    simp only [List.forall_mem_cons]
    exact ⟨by decide, by decide, by decide, nofun⟩
  refine ⟨endsDigits_cons (all character isEnd).1 later, ?_⟩
  rintro first ⟨⟩
  exact (all character isEnd).2

/-- The text of a fraction, empty when there is none. -/
def fractionText : List Digit → List Char
  | [] => []
  | digits => '.' :: digitText digits

/-- The text of an exponent, empty when there is none. -/
def exponentText : Option JsonExponent → List Char
  | none => []
  | some exponent => 'e' :: (exponent.sign.write ++ digitText exponent.digits)

section Digits

variable {digits : List Digit} {rest : List Char}

/-- Digits are read up to what ends them. -/
theorem spanDigits_digitText_append (digits : List Digit) (ends : EndsDigits rest) :
    spanDigits (digitText digits ++ rest) = (digits, rest) := by
  induction digits with
  | nil =>
      cases rest with
      | nil => rfl
      | cons character later =>
          have noDigit : Digit.ofChar? character = none := ends character rfl
          simp [digitText, spanDigits, noDigit]
  | cons digit later inductionHypothesis =>
      have first :
          digitText (digit :: later) ++ rest =
            digit.toChar :: (digitText later ++ rest) :=
        rfl
      rw [first]
      simp only [spanDigits, Digit.ofChar?_toChar, inductionHypothesis]

/--
What can stand in front of the point of a number: a single zero, or no zero at the
start.
-/
structure WholeDigits (digits : List Digit) : Prop where
  nonempty : digits ≠ []
  noLeadingZero : digits.head? = some Digit.zero → digits = [Digit.zero]

/-- The digits of a number have no zero in front. -/
theorem wholeDigits_decimalDigits (number : Nat) :
    WholeDigits (decimalDigits number) where
  nonempty := decimalDigits_ne_nil number
  noLeadingZero isZero := by
    rcases Nat.eq_zero_or_pos number with rfl | positive
    · rfl
    · exact absurd isZero (head?_decimalDigits_ne_zero positive)

/-- The whole part is read back. -/
theorem readWhole?_digitText_append
    (isWhole : WholeDigits digits)
    (ends : EndsDigits rest) :
    readWhole? (digitText digits ++ rest) = some (digits, rest) := by
  have spanned := spanDigits_digitText_append digits ends
  obtain ⟨digit, later, rfl⟩ := List.exists_cons_of_ne_nil isWhole.nonempty
  by_cases isZero : digit = Digit.zero
  · obtain ⟨rfl, rfl⟩ :=
      List.cons.inj (isWhole.noLeadingZero (congrArg some isZero))
    rfl
  · have notZero :
        ∀ first : Digit, first.toChar = '0' → first = Digit.zero := by decide
    unfold readWhole?
    split
    · rename_i begins
      exact absurd (notZero digit (List.cons.inj begins).1) isZero
    · rw [spanned]

/-- The fraction is read back, also if there is none. -/
theorem readFraction?_fractionText_append
    (fraction : List Digit)
    (ends : EndsDigits rest)
    (noPoint : ∀ character, rest.head? = some character → character ≠ '.') :
    readFraction? (fractionText fraction ++ rest) = some (fraction, rest) := by
  cases fraction with
  | nil =>
      unfold readFraction?
      split
      · rename_i later begins
        exact absurd rfl (noPoint '.' (congrArg List.head? begins))
      · rfl
  | cons digit later =>
      simp only [fractionText, List.cons_append, readFraction?,
        spanDigits_digitText_append _ ends]

/-- The digits of an exponent are read back with their sign. -/
theorem readExponentDigits?_append
    {exponent : JsonExponent}
    (nonempty : exponent.digits ≠ [])
    (ends : EndsDigits rest) :
    readExponentDigits? (exponent.sign.write ++ digitText exponent.digits ++ rest) =
      some (exponent, rest) := by
  obtain ⟨sign, digits⟩ := exponent
  have spanned := spanDigits_digitText_append digits ends
  obtain ⟨digit, later, rfl⟩ := List.exists_cons_of_ne_nil nonempty
  have signed :
      spanExponentSign (sign.write ++ digitText (digit :: later) ++ rest) =
        (sign, digitText (digit :: later) ++ rest) := by
    cases sign with
    | plus => rfl
    | minus => rfl
    | unsigned =>
        have noSign :
            ∀ first : Digit, first.toChar ≠ '+' ∧ first.toChar ≠ '-' := by decide
        have begins :
            ExponentSign.unsigned.write ++ digitText (digit :: later) ++ rest =
              digitText (digit :: later) ++ rest := rfl
        rw [begins]
        unfold spanExponentSign
        split
        · rename_i plus
          exact absurd (List.cons.inj plus).1 (noSign digit).1
        · rename_i minus
          exact absurd (List.cons.inj minus).1 (noSign digit).2
        · rfl
  simp only [readExponentDigits?, signed, spanned]

/-- The exponent is read back, also if there is none. -/
theorem readExponent?_exponentText_append
    {exponent : Option JsonExponent}
    (nonempty : ∀ written, exponent = some written → written.digits ≠ [])
    (ends : EndsNumber rest) :
    readExponent? (exponentText exponent ++ rest) = some (exponent, rest) := by
  cases exponent with
  | none =>
      have noExponent (character : Char) (found : rest.head? = some character) :
          character ≠ 'e' ∧ character ≠ 'E' := by
        have noPart := ends.2 character found
        simp only [List.mem_cons, not_or] at noPart
        exact ⟨noPart.2.1, noPart.2.2.1⟩
      unfold readExponent?
      split
      · rename_i begins
        exact absurd rfl (noExponent 'e' (congrArg List.head? begins)).1
      · rename_i begins
        exact absurd rfl (noExponent 'E' (congrArg List.head? begins)).2
      · rfl
  | some written =>
      have read := readExponentDigits?_append (nonempty written rfl) ends.1
      simp only [exponentText, List.cons_append, readExponent?, read,
        Option.map_some]

end Digits

namespace JsonNumber

/-- A number has digits where the grammar asks for them, and no leading zeros. -/
structure WellFormed (number : JsonNumber) : Prop where
  whole : WholeDigits number.whole
  exponent : ∀ exponent, number.exponent = some exponent → exponent.digits ≠ []

/-- A number is written as its sign, whole part, fraction and exponent. -/
theorem write_eq (number : JsonNumber) :
    number.write =
      (if number.negative then ['-'] else []) ++ digitText number.whole ++
        fractionText number.fraction ++ exponentText number.exponent := by
  obtain ⟨negative, whole, fraction, exponent⟩ := number
  cases fraction <;> cases exponent <;> rfl

section Reading

variable {number : JsonNumber} {rest : List Char}

/-- What follows the whole part of a number ends its digits. -/
theorem endsDigits_fraction_exponent (ends : EndsNumber rest) :
    EndsDigits
      (fractionText number.fraction ++ (exponentText number.exponent ++ rest)) := by
  cases number.fraction with
  | cons digit later => exact endsDigits_cons (by decide) _
  | nil =>
      cases number.exponent with
      | some exponent => exact endsDigits_cons (by decide) _
      | none => exact ends.1

/-- A number is read back behind its sign. -/
theorem readMagnitude?_append
    (wellFormed : number.WellFormed)
    (ends : EndsNumber rest) :
    readMagnitude? number.negative
        (digitText number.whole ++ (fractionText number.fraction ++
          (exponentText number.exponent ++ rest))) =
      some (number, rest) := by
  have behindFraction : EndsDigits (exponentText number.exponent ++ rest) := by
    cases number.exponent with
    | some exponent => exact endsDigits_cons (by decide) _
    | none => exact ends.1
  have noPoint (character : Char)
      (found : (exponentText number.exponent ++ rest).head? = some character) :
      character ≠ '.' := by
    cases exponent_eq : number.exponent with
    | some exponent =>
        rw [exponent_eq] at found
        rintro rfl
        cases found
    | none =>
        rw [exponent_eq] at found
        rintro rfl
        exact ends.2 '.' found (by decide)
  have behindWhole :
      EndsDigits
        (fractionText number.fraction ++ (exponentText number.exponent ++ rest)) :=
    endsDigits_fraction_exponent ends
  simp only [readMagnitude?,
    readWhole?_digitText_append wellFormed.whole behindWhole,
    readFraction?_fractionText_append number.fraction behindFraction noPoint,
    readExponent?_exponentText_append wellFormed.exponent ends, Option.map_some]

/-- A written number is read back, if what follows does not go on with it. -/
theorem readNumber?_write_append
    (wellFormed : number.WellFormed)
    (ends : EndsNumber rest) :
    readNumber? (number.write ++ rest) = some (number, rest) := by
  have magnitude := readMagnitude?_append wellFormed ends
  rw [write_eq]
  simp only [List.append_assoc]
  cases negative_eq : number.negative with
  | true =>
      rw [negative_eq] at magnitude
      exact magnitude
  | false =>
      rw [negative_eq] at magnitude
      obtain ⟨digit, later, whole_eq⟩ :=
        List.exists_cons_of_ne_nil wellFormed.whole.nonempty
      have noMinus : ∀ first : Digit, first.toChar ≠ '-' := by decide
      rw [if_neg Bool.false_ne_true, List.nil_append]
      unfold readNumber?
      split
      · rename_i begins
        rw [whole_eq] at begins
        exact absurd (List.cons.inj begins).1 (noMinus digit)
      · exact magnitude

/-- A number begins with a minus sign or a digit. -/
theorem exists_write_eq_cons (wellFormed : number.WellFormed) :
    ∃ first later,
      number.write = first :: later ∧
        (first = '-' ∨ ∃ digit : Digit, first = digit.toChar) := by
  obtain ⟨digit, later, whole_eq⟩ :=
    List.exists_cons_of_ne_nil wellFormed.whole.nonempty
  rw [write_eq, whole_eq]
  cases number.negative with
  | true => exact ⟨'-', _, rfl, .inl rfl⟩
  | false => exact ⟨digit.toChar, _, rfl, .inr ⟨digit, rfl⟩⟩

end Reading

end JsonNumber

namespace Json

/-- All numbers of a document are well-formed. -/
inductive WellFormed : Json → Prop where
  | null : WellFormed .null
  | boolean (truth : Bool) : WellFormed (.boolean truth)
  | number {number : JsonNumber} (wellFormed : number.WellFormed) :
      WellFormed (.number number)
  | text (units : List JsonUnit) : WellFormed (.text units)
  | array {items : List Json} (each : ∀ item ∈ items, WellFormed item) :
      WellFormed (.array items)
  | object
      {members : List (List JsonUnit × Json)}
      (each : ∀ member ∈ members, WellFormed member.2) :
      WellFormed (.object members)

/-- A document begins with no blank and with no closing bracket. -/
theorem exists_write_eq_cons {document : Json} (wellFormed : document.WellFormed) :
    ∃ first later,
      document.write = first :: later ∧ isJsonBlank first = false ∧
        first ≠ ']' := by
  cases wellFormed with
  | null => exact ⟨'n', _, rfl, by decide, by decide⟩
  | boolean truth =>
      cases truth with
      | true => exact ⟨'t', _, rfl, by decide, by decide⟩
      | false => exact ⟨'f', _, rfl, by decide, by decide⟩
  | number wellFormed =>
      have digits :
          ∀ digit : Digit,
            isJsonBlank digit.toChar = false ∧ digit.toChar ≠ ']' := by
        decide
      obtain ⟨first, later, written, rfl | ⟨digit, rfl⟩⟩ :=
        JsonNumber.exists_write_eq_cons wellFormed
      · exact ⟨'-', later, written, by decide, by decide⟩
      · exact ⟨digit.toChar, later, written, digits digit⟩
  | text units => exact ⟨'"', _, rfl, by decide, by decide⟩
  | array each => exact ⟨'[', _, rfl, by decide, by decide⟩
  | object each => exact ⟨'{', _, rfl, by decide, by decide⟩

/-- A character that is not blank is not skipped. -/
theorem skipBlanks_cons
    {first : Char}
    (notBlank : isJsonBlank first = false)
    (later : List Char) :
    skipBlanks (first :: later) = first :: later := by
  rw [skipBlanks, List.dropWhile_cons_of_neg]
  rw [notBlank]
  exact Bool.false_ne_true

/-- A document does not begin with a blank. -/
theorem skipBlanks_write_append
    {document : Json}
    (wellFormed : document.WellFormed)
    (rest : List Char) :
    skipBlanks (document.write ++ rest) = document.write ++ rest := by
  obtain ⟨first, later, written, notBlank, -⟩ := exists_write_eq_cons wellFormed
  rw [written]
  exact skipBlanks_cons notBlank _

/-- What begins as a number does is read as a number. -/
theorem readAt?_of_number
    {first : Char}
    (isNumber : first = '-' ∨ ∃ digit : Digit, first = digit.toChar)
    (fuel : Nat)
    (later : List Char) :
    readAt? (fuel + 1) (first :: later) =
      (readNumber? (first :: later)).map fun read => (.number read.1, read.2) := by
  have noOther : first ∉ ['n', 't', 'f', '"', '[', '{'] := by
    have digits :
        ∀ digit : Digit, digit.toChar ∉ ['n', 't', 'f', '"', '[', '{'] := by decide
    rcases isNumber with rfl | ⟨digit, rfl⟩
    · decide
    · exact digits digit
  rw [readAt?.eq_def]
  split <;> simp_all

/--
A document is read back with enough fuel, whatever follows it that does not go on
with a number.
-/
def ReadBack (document : Json) : Prop :=
  ∀ fuel rest,
    2 * document.write.length ≤ fuel → EndsNumber rest →
      readAt? fuel (document.write ++ rest) = some (document, rest)

section Items

variable {items : List Json} {rest : List Char}

/-- Two items have a comma between them. -/
theorem writeItems_cons_cons
    (item next : Json)
    (others : List Json)
    (rest : List Char) :
    writeItems (item :: next :: others) ++ rest =
      item.write ++ ',' :: (writeItems (next :: others) ++ rest) := by
  simp only [writeItems, List.append_assoc, List.cons_append]

/-- The items of an array begin with no blank and with no closing bracket. -/
theorem exists_writeItems_eq_cons
    (nonempty : items ≠ [])
    (each : ∀ item ∈ items, item.WellFormed) :
    ∃ first later,
      writeItems items = first :: later ∧ isJsonBlank first = false ∧
        first ≠ ']' := by
  obtain ⟨item, others, rfl⟩ := List.exists_cons_of_ne_nil nonempty
  obtain ⟨first, later, written, begins⟩ :=
    exists_write_eq_cons (each item List.mem_cons_self)
  cases others with
  | nil => exact ⟨first, later, written, begins⟩
  | cons next others =>
      have both := writeItems_cons_cons item next others []
      rw [List.append_nil, written] at both
      exact ⟨first, _, both, begins⟩

/-- The items of an array are read back if each of them is. -/
theorem readItems?_writeItems_append
    {fuel : Nat}
    (nonempty : items ≠ [])
    (each : ∀ item ∈ items, item.WellFormed)
    (readBack : ∀ item ∈ items, item.ReadBack)
    (enough : 2 * (writeItems items).length < fuel) :
    readItems? fuel (writeItems items ++ ']' :: rest) = some (items, rest) := by
  induction items generalizing fuel with
  | nil => exact absurd rfl nonempty
  | cons item later inductionHypothesis =>
      obtain ⟨fuel, rfl⟩ :=
        Nat.exists_eq_add_one_of_ne_zero (Nat.ne_zero_of_lt enough)
      cases later with
      | nil =>
          have itemBack :
              readAt? fuel (item.write ++ ']' :: rest) = some (item, ']' :: rest) :=
            readBack item List.mem_cons_self fuel _ (Nat.le_of_lt_succ enough)
              (endsNumber_cons (by decide) _)
          simp only [writeItems, readItems?, itemBack,
            skipBlanks_cons (by decide : isJsonBlank ']' = false)]
      | cons next others =>
          have size :=
            congrArg List.length (writeItems_cons_cons item next others [])
          simp only [List.append_nil, List.length_append, List.length_cons] at size
          obtain ⟨first, following, begins, notBlank, -⟩ :=
            exists_writeItems_eq_cons (List.cons_ne_nil next others)
              fun other member => each other (List.mem_cons_of_mem _ member)
          have unskipped :
              skipBlanks (writeItems (next :: others) ++ ']' :: rest) =
                writeItems (next :: others) ++ ']' :: rest := by
            rw [begins]
            exact skipBlanks_cons notBlank _
          have itemBack :
              readAt? fuel
                  (item.write ++
                    ',' :: (writeItems (next :: others) ++ ']' :: rest)) =
                some (item, ',' :: (writeItems (next :: others) ++ ']' :: rest)) :=
            readBack item List.mem_cons_self fuel _ (by omega)
              (endsNumber_cons (by decide) _)
          have laterBack :
              readItems? fuel (writeItems (next :: others) ++ ']' :: rest) =
                some (next :: others, rest) :=
            inductionHypothesis (List.cons_ne_nil _ _)
              (fun other member => each other (List.mem_cons_of_mem _ member))
              (fun other member => readBack other (List.mem_cons_of_mem _ member))
              (by omega)
          simp only [writeItems_cons_cons, readItems?, itemBack,
            skipBlanks_cons (by decide : isJsonBlank ',' = false), unskipped,
            laterBack, Option.map_some]

/-- An array whose items are read back is read back. -/
theorem readBack_array
    (each : ∀ item ∈ items, item.WellFormed)
    (readBack : ∀ item ∈ items, item.ReadBack) :
    (Json.array items).ReadBack := by
  intro fuel rest enough _
  have written :
      (Json.array items).write ++ rest =
        '[' :: (writeItems items ++ ']' :: rest) := by
    simp only [write, List.cons_append, List.append_assoc, List.nil_append]
  have size := congrArg List.length written
  simp only [List.length_append, List.length_cons] at size
  obtain ⟨fuel, rfl⟩ := Nat.exists_eq_add_one_of_ne_zero (n := fuel) (by omega)
  rw [written]
  by_cases empty : items = []
  · subst empty
    simp only [writeItems, List.nil_append, readAt?,
      skipBlanks_cons (by decide : isJsonBlank ']' = false)]
  · obtain ⟨first, later, begins, notBlank, notEnd⟩ :=
      exists_writeItems_eq_cons empty each
    have unskipped :
        skipBlanks (writeItems items ++ ']' :: rest) =
          first :: (later ++ ']' :: rest) := by
      rw [begins]
      exact skipBlanks_cons notBlank _
    have itemsBack :
        readItems? fuel (writeItems items ++ ']' :: rest) = some (items, rest) :=
      readItems?_writeItems_append empty each readBack (by omega)
    rw [begins] at itemsBack
    simp only [readAt?, unskipped]
    split
    · rename_i isEnd
      exact absurd (List.cons.inj isEnd).1 notEnd
    · exact congrArg (Option.map fun read => (Json.array read.1, read.2)) itemsBack

end Items

section Members

variable {members : List (List JsonUnit × Json)} {rest : List Char}

/-- A member is its quoted name, a colon and its document. -/
theorem writeMembers_singleton
    (name : List JsonUnit)
    (item : Json)
    (rest : List Char) :
    writeMembers [(name, item)] ++ rest =
      '"' :: (quotedUnits name ++ ':' :: (item.write ++ rest)) := by
  simp only [writeMembers, List.append_assoc, List.cons_append]

/-- Two members have a comma between them. -/
theorem writeMembers_cons_cons
    (name : List JsonUnit)
    (item : Json)
    (next : List JsonUnit × Json)
    (others : List (List JsonUnit × Json))
    (rest : List Char) :
    writeMembers ((name, item) :: next :: others) ++ rest =
      '"' :: (quotedUnits name ++
        ':' :: (item.write ++ ',' :: (writeMembers (next :: others) ++ rest))) := by
  simp only [writeMembers, List.append_assoc, List.cons_append]

/-- The members of an object are read back if each of them is. -/
theorem readMembers?_writeMembers_append
    {fuel : Nat}
    (nonempty : members ≠ [])
    (each : ∀ member ∈ members, member.2.WellFormed)
    (readBack : ∀ member ∈ members, member.2.ReadBack)
    (enough : 2 * (writeMembers members).length < fuel) :
    readMembers? fuel (writeMembers members ++ '}' :: rest) =
      some (members, rest) := by
  induction members generalizing fuel with
  | nil => exact absurd rfl nonempty
  | cons member later inductionHypothesis =>
      obtain ⟨fuel, rfl⟩ :=
        Nat.exists_eq_add_one_of_ne_zero (Nat.ne_zero_of_lt enough)
      obtain ⟨name, item⟩ := member
      have itemWellFormed : item.WellFormed := each _ List.mem_cons_self
      have itemReadBack : item.ReadBack := readBack _ List.mem_cons_self
      cases later with
      | nil =>
          have size := congrArg List.length (writeMembers_singleton name item [])
          simp only [List.append_nil, List.length_append, List.length_cons] at size
          have itemBack :
              readAt? fuel (item.write ++ '}' :: rest) = some (item, '}' :: rest) :=
            itemReadBack fuel _ (by omega) (endsNumber_cons (by decide) _)
          simp only [writeMembers_singleton, readMembers?,
            readQuoted?_quotedUnits_append,
            skipBlanks_cons (by decide : isJsonBlank ':' = false),
            skipBlanks_write_append itemWellFormed, itemBack,
            skipBlanks_cons (by decide : isJsonBlank '}' = false)]
      | cons next others =>
          have size :=
            congrArg List.length (writeMembers_cons_cons name item next others [])
          simp only [List.append_nil, List.length_append, List.length_cons] at size
          have unskipped :
              skipBlanks (writeMembers (next :: others) ++ '}' :: rest) =
                writeMembers (next :: others) ++ '}' :: rest := by
            cases others <;> exact skipBlanks_cons (by decide) _
          have itemBack :
              readAt? fuel
                  (item.write ++
                    ',' :: (writeMembers (next :: others) ++ '}' :: rest)) =
                some
                  (item, ',' :: (writeMembers (next :: others) ++ '}' :: rest)) :=
            itemReadBack fuel _ (by omega) (endsNumber_cons (by decide) _)
          have laterBack :
              readMembers? fuel (writeMembers (next :: others) ++ '}' :: rest) =
                some (next :: others, rest) :=
            inductionHypothesis (List.cons_ne_nil _ _)
              (fun other member => each other (List.mem_cons_of_mem _ member))
              (fun other member => readBack other (List.mem_cons_of_mem _ member))
              (by omega)
          simp only [writeMembers_cons_cons, readMembers?,
            readQuoted?_quotedUnits_append,
            skipBlanks_cons (by decide : isJsonBlank ':' = false),
            skipBlanks_write_append itemWellFormed, itemBack,
            skipBlanks_cons (by decide : isJsonBlank ',' = false), unskipped,
            laterBack, Option.map_some]

/-- An object whose contents are read back is read back. -/
theorem readBack_object
    (each : ∀ member ∈ members, member.2.WellFormed)
    (readBack : ∀ member ∈ members, member.2.ReadBack) :
    (Json.object members).ReadBack := by
  intro fuel rest enough _
  have written :
      (Json.object members).write ++ rest =
        '{' :: (writeMembers members ++ '}' :: rest) := by
    simp only [write, List.cons_append, List.append_assoc, List.nil_append]
  have size := congrArg List.length written
  simp only [List.length_append, List.length_cons] at size
  obtain ⟨fuel, rfl⟩ := Nat.exists_eq_add_one_of_ne_zero (n := fuel) (by omega)
  rw [written]
  cases members with
  | nil =>
      simp only [writeMembers, List.nil_append, readAt?,
        skipBlanks_cons (by decide : isJsonBlank '}' = false)]
  | cons member others =>
      have membersBack :
          readMembers? fuel (writeMembers (member :: others) ++ '}' :: rest) =
            some (member :: others, rest) :=
        readMembers?_writeMembers_append (List.cons_ne_nil _ _) each readBack
          (by omega)
      obtain ⟨later, begins⟩ :
          ∃ later, writeMembers (member :: others) = '"' :: later := by
        cases others <;> exact ⟨_, rfl⟩
      rw [begins] at membersBack ⊢
      have unskipped :=
        skipBlanks_cons (by decide : isJsonBlank '"' = false) (later ++ '}' :: rest)
      rw [List.cons_append] at membersBack ⊢
      simp only [readAt?, unskipped]
      exact
        congrArg (Option.map fun read => (Json.object read.1, read.2)) membersBack

end Members

/-- Enough fuel for a document is not empty. -/
theorem exists_fuel
    {document : Json}
    {fuel : Nat}
    (wellFormed : document.WellFormed)
    (enough : 2 * document.write.length ≤ fuel) :
    ∃ less, fuel = less + 1 := by
  obtain ⟨first, later, written, -⟩ := exists_write_eq_cons wellFormed
  rw [written, List.length_cons] at enough
  exact Nat.exists_eq_add_one_of_ne_zero (by omega)

/-- Every document of the grammar is read back. -/
theorem readBack_of_wellFormed
    {document : Json}
    (wellFormed : document.WellFormed) :
    document.ReadBack := by
  induction wellFormed with
  | array each inductionHypothesis => exact readBack_array each inductionHypothesis
  | object each inductionHypothesis =>
      exact readBack_object each inductionHypothesis
  | null =>
      intro fuel rest enough _
      obtain ⟨fuel, rfl⟩ := exists_fuel .null enough
      rfl
  | boolean truth =>
      intro fuel rest enough _
      obtain ⟨fuel, rfl⟩ := exists_fuel (.boolean truth) enough
      cases truth <;> rfl
  | text units =>
      intro fuel rest enough _
      obtain ⟨fuel, rfl⟩ := exists_fuel (.text units) enough
      simp only [write, List.cons_append, readAt?, readQuoted?_quotedUnits_append,
        Option.map_some]
  | number wellFormed =>
      intro fuel rest enough ends
      obtain ⟨fuel, rfl⟩ := exists_fuel (.number wellFormed) enough
      obtain ⟨first, later, written, isNumber⟩ :=
        JsonNumber.exists_write_eq_cons wellFormed
      have back := JsonNumber.readNumber?_write_append wellFormed ends
      rw [written, List.cons_append] at back
      rw [write, written, List.cons_append, readAt?_of_number isNumber, back]
      rfl

/-- Reading the text of a document gives the document back. -/
theorem ofText?_toText {document : Json} (wellFormed : document.WellFormed) :
    ofText? document.toText = some document := by
  have unskipped := skipBlanks_write_append wellFormed []
  have back :=
    readBack_of_wellFormed wellFormed (2 * document.write.length + 1) [] (by omega)
      endsNumber_nil
  rw [List.append_nil] at unskipped back
  rw [ofText?, toText, String.toList_ofList, readAll?, unskipped, back]
  rfl

end Json

end StreamJoin
