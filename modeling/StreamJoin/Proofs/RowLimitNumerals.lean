import Mathlib.Data.List.TakeWhile
import StreamJoin.Join.Options
import StreamJoin.Proofs.DigitTexts

namespace StreamJoin

/-!
# The numeral of a row limit

The row limit among the options of a query is a text.  Without the blanks around it,
it must be a numeral: digits, with a plus sign in front of them or without, that
denote a number of 64 bits.  The main result, `JoinOptions.row_limit_grammar`, gives
for every text the limit that is read or the reason why the text is refused.

The digits are read from left to right.  So a text whose digits have become too
large is refused for that, whatever stands behind them, and every other text that is
no numeral has a character that is no digit.
-/

/--
A word is what is left of a text without its blanks at both ends: only blanks are
cut off, and no blank stands at an end of the word.
-/
def Trims (text word : List Char) : Prop :=
  ∃ front back,
    text = front ++ word ++ back ∧
      (∀ character ∈ front, isBlank character = true) ∧
      (∀ character ∈ back, isBlank character = true) ∧
      (∀ character, word.head? = some character → isBlank character = false) ∧
      ∀ character, word.getLast? = some character → isBlank character = false

section Trimming

variable {text word front rest : List Char}

/-- Blanks in front of something that begins otherwise are dropped. -/
theorem dropWhile_isBlank_append
    (blanks : ∀ character ∈ front, isBlank character = true)
    (begins :
      ∀ character, rest.head? = some character → isBlank character = false) :
    (front ++ rest).dropWhile isBlank = rest := by
  rw [List.dropWhile_append_of_pos blanks]
  cases rest with
  | nil => rfl
  | cons character later => simp [begins character rfl]

/-- No blank is left at the start of a text. -/
theorem isBlank_head?_dropWhile
    {character : Char}
    (found : (text.dropWhile isBlank).head? = some character) :
    isBlank character = false := by
  have notBlank := List.head?_dropWhile_not isBlank text
  simpa only [found] using notBlank

/-- Trimming takes away the blanks at both ends. -/
theorem trims_trimBlanks (text : List Char) : Trims text (trimBlanks text) := by
  have cutFront := (List.takeWhile_append_dropWhile (p := isBlank) (l := text)).symm
  generalize later_eq : text.dropWhile isBlank = later at cutFront
  have cutBack :=
    (List.takeWhile_append_dropWhile (p := isBlank) (l := later.reverse)).symm
  refine
    ⟨text.takeWhile isBlank, (later.reverse.takeWhile isBlank).reverse, ?_,
      fun _ member => List.mem_takeWhile_imp member,
      fun _ member => List.mem_takeWhile_imp (List.mem_reverse.mp member), ?_, ?_⟩
  · have rejoined := congrArg List.reverse cutBack
    rw [List.reverse_reverse, List.reverse_append] at rejoined
    rw [trimBlanks, later_eq, List.append_assoc, ← rejoined]
    exact cutFront
  · -- A word that is not empty begins as the text does behind its first blanks.
    intro character found
    have first : (text.dropWhile isBlank).head? = some character := by
      have rejoined := congrArg List.reverse cutBack
      rw [List.reverse_reverse, List.reverse_append] at rejoined
      rw [trimBlanks, later_eq] at found
      rw [later_eq, rejoined, List.head?_append, found]
      rfl
    exact isBlank_head?_dropWhile first
  · intro character found
    rw [trimBlanks, List.getLast?_reverse] at found
    exact isBlank_head?_dropWhile found

/--
Trimming gives the one word that is left of a text without its blanks at both ends.
-/
theorem trims_iff_trimBlanks_eq : Trims text word ↔ trimBlanks text = word := by
  constructor
  · rintro ⟨front, back, rfl, frontBlanks, backBlanks, begins, ends⟩
    have lastFirst : ∀ character ∈ back.reverse, isBlank character = true :=
      fun character member => backBlanks character (List.mem_reverse.mp member)
    cases word with
    | nil =>
        have allBlanks : ∀ character ∈ front ++ back, isBlank character = true :=
          fun character member =>
            (List.mem_append.mp member).elim (frontBlanks _) (backBlanks _)
        rw [trimBlanks, List.append_nil, List.dropWhile_eq_nil_iff.mpr allBlanks]
        rfl
    | cons character later =>
        have beginsBefore :
            ∀ first,
              (character :: later ++ back).head? = some first →
                isBlank first = false :=
          begins
        have endsReversed :
            ∀ last,
              (character :: later).reverse.head? = some last →
                isBlank last = false := by
          rw [List.head?_reverse]
          exact ends
        rw [trimBlanks, List.append_assoc,
          dropWhile_isBlank_append frontBlanks beginsBefore, List.reverse_append,
          dropWhile_isBlank_append lastFirst endsReversed, List.reverse_reverse]
  · rintro rfl
    exact trims_trimBlanks text

end Trimming

section Reading

variable {value : Nat} {text rest : List Char}

/-- Digits are taken one by one, until their number no longer fits. -/
theorem readDigits_digitText_append
    (within : value < wordBound)
    (digits : List Digit)
    (rest : List Char) :
    readDigits value (digitText digits ++ rest) =
      if extendByDigits value digits < wordBound then
        readDigits (extendByDigits value digits) rest
      else
        .error .tooLarge := by
  induction digits generalizing value with
  | nil => exact (if_pos within).symm
  | cons digit later inductionHypothesis =>
      have first :
          digitText (digit :: later) ++ rest =
            digit.toChar :: (digitText later ++ rest) :=
        rfl
      rw [first, extendByDigits_cons, readDigits, Digit.ofChar?_toChar]
      dsimp only
      split
      · rename_i extendedWithin
        exact inductionHypothesis extendedWithin
      · rename_i exceeds
        have grown := le_extendByDigits (10 * value + digit.val) later
        rw [if_neg (by omega)]

/-- A text is digits, and behind them nothing or a character that is no digit. -/
theorem exists_digits (text : List Char) :
    ∃ digits rest,
      text = digitText digits ++ rest ∧
        ∀ character,
          rest.head? = some character → Digit.ofChar? character = none := by
  induction text with
  | nil => exact ⟨[], [], rfl, nofun⟩
  | cons character later inductionHypothesis =>
      cases stands : Digit.ofChar? character with
      | none =>
          refine ⟨[], character :: later, rfl, ?_⟩
          rintro first ⟨⟩
          exact stands
      | some digit =>
          obtain rfl := Digit.ofChar?_eq_some_iff.mp stands
          obtain ⟨digits, rest, rfl, ends⟩ := inductionHypothesis
          exact ⟨digit :: digits, rest, rfl, ends⟩

/-- A character that is no digit is a fault. -/
theorem readDigits_of_no_digit
    (nonempty : rest ≠ [])
    (ends :
      ∀ character, rest.head? = some character → Digit.ofChar? character = none) :
    readDigits value rest = .error .invalidDigit := by
  cases rest with
  | nil => exact absurd rfl nonempty
  | cons character later => simp only [readDigits, ends character rfl]

/--
What becomes of a text: its number, or that its digits are too large, or a bad
character.
-/
theorem readDigits_cases (text : List Char) :
    (∃ digits,
      text = digitText digits ∧ valueOfDigits digits < wordBound ∧
        readDigits 0 text = .ok (valueOfDigits digits)) ∨
    (∃ digits rest,
      text = digitText digits ++ rest ∧ wordBound ≤ valueOfDigits digits ∧
        readDigits 0 text = .error .tooLarge) ∨
    readDigits 0 text = .error .invalidDigit := by
  obtain ⟨digits, rest, rfl, ends⟩ := exists_digits text
  have read := readDigits_digitText_append (by decide : 0 < wordBound) digits rest
  rcases Nat.lt_or_ge (valueOfDigits digits) wordBound with fits | exceeds
  · have goesOn := read.trans (if_pos fits)
    cases rest with
    | nil => exact .inl ⟨digits, List.append_nil _, fits, goesOn⟩
    | cons character later =>
        exact
          .inr
            (.inr
              (goesOn.trans (readDigits_of_no_digit (List.cons_ne_nil _ _) ends)))
  · exact
      .inr
        (.inl
          ⟨digits, rest, rfl, exceeds,
            read.trans (if_neg (Nat.not_lt.mpr exceeds))⟩)

end Reading

/-- What stands in front of the digits of a numeral: at most one plus sign. -/
def numeralSigns : List (List Char) := [[], ['+']]

/--
A text is a numeral of a number: at least one digit, behind a plus sign or nothing.
-/
def IsNumeral (text : List Char) (number : Nat) : Prop :=
  ∃ sign ∈ numeralSigns, ∃ digits,
    digits ≠ [] ∧ text = sign ++ digitText digits ∧ valueOfDigits digits = number

/--
A text begins, behind a plus sign or nothing, with digits of a number beyond 64
bits.
-/
def BeginsTooLarge (text : List Char) : Prop :=
  ∃ sign ∈ numeralSigns, ∃ digits rest,
    text = sign ++ (digitText digits ++ rest) ∧ 2 ^ 64 ≤ valueOfDigits digits

/-- A text without a plus sign at its start. -/
def behindSign : List Char → List Char
  | '+' :: digits => digits
  | text => text

section Numerals

variable {text : List Char} {number : Nat}

/-- A text is a sign, which may be absent, and what is behind it. -/
theorem exists_sign (text : List Char) :
    ∃ sign ∈ numeralSigns, text = sign ++ behindSign text := by
  unfold behindSign
  split
  · exact ⟨['+'], by decide, rfl⟩
  · exact ⟨[], by decide, rfl⟩

/-- Behind the sign of a numeral are its digits. -/
theorem behindSign_sign_append
    {sign : List Char}
    (isSign : sign ∈ numeralSigns)
    {digits : List Digit}
    (nonempty : digits ≠ [])
    (rest : List Char) :
    behindSign (sign ++ (digitText digits ++ rest)) = digitText digits ++ rest := by
  obtain ⟨digit, later, rfl⟩ := List.exists_cons_of_ne_nil nonempty
  rcases List.mem_pair.mp isSign with rfl | rfl
  · have noPlus : ∀ first : Digit, first.toChar ≠ '+' := by decide
    unfold behindSign
    split
    · rename_i begins
      exact absurd (List.cons.inj begins).1 (noPlus digit)
    · rfl
  · rfl

/-- Behind a sign the digits are read. -/
theorem readNumeral_of_nonempty (nonempty : behindSign text ≠ []) :
    readNumeral text = readDigits 0 (behindSign text) := by
  unfold readNumeral behindSign at *
  split <;> simp_all

/-- A text without digits has nothing to read, or a plus sign alone. -/
theorem readNumeral_of_empty (empty : behindSign text = []) :
    text = [] ∧ readNumeral text = .error .empty ∨
      text ≠ [] ∧ readNumeral text = .error .invalidDigit := by
  unfold behindSign at empty
  split at empty
  · subst empty
    exact .inr ⟨List.cons_ne_nil _ _, rfl⟩
  · subst empty
    exact .inl ⟨rfl, rfl⟩

/-- A numeral of a number of 64 bits is read. -/
theorem readNumeral_of_isNumeral
    (isNumeral : IsNumeral text number)
    (fits : number < wordBound) :
    readNumeral text = .ok number := by
  obtain ⟨sign, isSign, digits, nonempty, rfl, rfl⟩ := isNumeral
  have behind := behindSign_sign_append isSign nonempty []
  rw [List.append_nil] at behind
  have hasDigits : behindSign (sign ++ digitText digits) ≠ [] := by
    rw [behind]
    exact fun empty => nonempty (List.map_eq_nil_iff.mp empty)
  have read := readDigits_digitText_append (by decide : 0 < wordBound) digits []
  rw [List.append_nil] at read
  rw [readNumeral_of_nonempty hasDigits, behind, read]
  exact if_pos fits

/-- Digits that are too large are refused for that, whatever stands behind them. -/
theorem readNumeral_of_beginsTooLarge (begins : BeginsTooLarge text) :
    readNumeral text = .error .tooLarge := by
  obtain ⟨sign, isSign, digits, rest, rfl, exceeds⟩ := begins
  have nonempty : digits ≠ [] := by
    rintro rfl
    exact absurd exceeds (by decide)
  have behind := behindSign_sign_append isSign nonempty rest
  have hasDigits : behindSign (sign ++ (digitText digits ++ rest)) ≠ [] := by
    rw [behind]
    exact
      fun empty =>
        nonempty (List.map_eq_nil_iff.mp (List.append_eq_nil_iff.mp empty).1)
  rw [readNumeral_of_nonempty hasDigits, behind,
    readDigits_digitText_append (by decide : 0 < wordBound)]
  exact if_neg (Nat.not_lt.mpr exceeds)

/-- What becomes of a text that is read as a numeral. -/
theorem readNumeral_cases (text : List Char) :
    (text = [] ∧ readNumeral text = .error .empty) ∨
    (∃ number < wordBound, IsNumeral text number ∧ readNumeral text = .ok number) ∨
    (BeginsTooLarge text ∧ readNumeral text = .error .tooLarge) ∨
    (text ≠ [] ∧ readNumeral text = .error .invalidDigit) := by
  by_cases empty : behindSign text = []
  · rcases readNumeral_of_empty empty with isEmpty | isSign
    · exact .inl isEmpty
    · exact .inr (.inr (.inr isSign))
  · obtain ⟨sign, isSign, split⟩ := exists_sign text
    rw [readNumeral_of_nonempty empty]
    rcases readDigits_cases (behindSign text) with
      ⟨digits, written, fits, read⟩ |
      ⟨digits, rest, written, exceeds, read⟩ | refused
    · refine
        .inr
          (.inl ⟨_, fits, ⟨sign, isSign, digits, ?_, written ▸ split, rfl⟩, read⟩)
      rintro rfl
      exact empty written
    · exact
        .inr
          (.inr
            (.inl ⟨⟨sign, isSign, digits, rest, written ▸ split, exceeds⟩, read⟩))
    · refine .inr (.inr (.inr ⟨?_, refused⟩))
      rintro rfl
      exact empty rfl

/-- A numeral below the word bound is read, and nothing else is. -/
theorem readNumeral_eq_ok_iff :
    readNumeral text = .ok number ↔ IsNumeral text number ∧ number < wordBound := by
  constructor
  · intro read
    rcases readNumeral_cases text with
      ⟨-, other⟩ | ⟨found, fits, isNumeral, other⟩ | ⟨-, other⟩ | ⟨-, other⟩
    · cases other.symm.trans read
    · cases other.symm.trans read
      exact ⟨isNumeral, fits⟩
    · cases other.symm.trans read
    · cases other.symm.trans read
  · rintro ⟨isNumeral, fits⟩
    exact readNumeral_of_isNumeral isNumeral fits

/-- Only the empty text is refused as empty. -/
theorem readNumeral_eq_empty_iff :
    readNumeral text = .error .empty ↔ text = [] := by
  constructor
  · intro read
    rcases readNumeral_cases text with
      ⟨isEmpty, -⟩ | ⟨found, -, -, other⟩ | ⟨-, other⟩ | ⟨-, other⟩
    · exact isEmpty
    · cases other.symm.trans read
    · cases other.symm.trans read
    · cases other.symm.trans read
  · rintro rfl
    rfl

/-- A text is refused as too large exactly if it begins so. -/
theorem readNumeral_eq_tooLarge_iff :
    readNumeral text = .error .tooLarge ↔ BeginsTooLarge text := by
  constructor
  · intro read
    rcases readNumeral_cases text with
      ⟨-, other⟩ | ⟨found, -, -, other⟩ | ⟨begins, -⟩ | ⟨-, other⟩
    · cases other.symm.trans read
    · cases other.symm.trans read
    · exact begins
    · cases other.symm.trans read
  · exact readNumeral_of_beginsTooLarge

/-- Any other text that is refused has an invalid digit. -/
theorem readNumeral_eq_invalidDigit_iff :
    readNumeral text = .error .invalidDigit ↔
      text ≠ [] ∧ ¬ BeginsTooLarge text ∧
        ¬ ∃ number < wordBound, IsNumeral text number := by
  constructor
  · intro read
    refine ⟨?_, fun begins => ?_, ?_⟩
    · rintro rfl
      cases read
    · cases (readNumeral_of_beginsTooLarge begins).symm.trans read
    · rintro ⟨number, fits, isNumeral⟩
      cases (readNumeral_of_isNumeral isNumeral fits).symm.trans read
  · rintro ⟨nonempty, small, noNumeral⟩
    rcases readNumeral_cases text with
      ⟨isEmpty, -⟩ | ⟨found, fits, isNumeral, -⟩ | ⟨begins, -⟩ | ⟨-, read⟩
    · exact absurd isEmpty nonempty
    · exact absurd ⟨found, fits, isNumeral⟩ noNumeral
    · exact absurd begins small
    · exact read

end Numerals

namespace JoinOptions

section RowLimit

variable {options : Std.TreeMap String String} {value : String} {word : List Char}
  {limit : Nat}

/-- The fault of a row limit that is no numeral: the whole text with the reason. -/
def rowLimitFault (value : String) (problem : NumeralProblem) : Fault :=
  .badOption rowLimitKey value problem.message

/-- With the option given, its trimmed text is read. -/
theorem ofQueryOptions_of_some (given : options[rowLimitKey]? = some value) :
    ofQueryOptions options =
      match readNumeral (trimBlanks value.toList) with
      | .ok limit => .ok ⟨some limit⟩
      | .error problem => .error (rowLimitFault value problem) := by
  simp only [ofQueryOptions, given, readRowLimit]
  cases readNumeral (trimBlanks value.toList) <;> rfl

/-- The option is accepted exactly if its trimmed text is read. -/
theorem ofQueryOptions_eq_ok_iff (given : options[rowLimitKey]? = some value) :
    ofQueryOptions options = .ok ⟨some limit⟩ ↔
      readNumeral (trimBlanks value.toList) = .ok limit := by
  rw [ofQueryOptions_of_some given]
  cases readNumeral (trimBlanks value.toList) <;> simp

/-- Different problems of a numeral have different wordings. -/
theorem message_injective {problem other : NumeralProblem} :
    problem.message = other.message → problem = other := by
  cases problem <;> cases other <;> decide

/-- The option is refused for the reason why its trimmed text is. -/
theorem ofQueryOptions_eq_error_iff
    (problem : NumeralProblem)
    (given : options[rowLimitKey]? = some value) :
    ofQueryOptions options = .error (rowLimitFault value problem) ↔
      readNumeral (trimBlanks value.toList) = .error problem := by
  rw [ofQueryOptions_of_some given]
  cases readNumeral (trimBlanks value.toList) with
  | ok limit => exact ⟨nofun, nofun⟩
  | error other =>
      constructor
      · intro same
        have sameMessage := (Fault.badOption.inj (Except.error.inj same)).2.2
        exact congrArg Except.error (message_injective sameMessage)
      · rintro ⟨⟩
        rfl

/-- The blanks around the numeral of a number are cut off. -/
theorem trims_repr
    (number : Nat)
    {front back : List Char}
    (frontBlanks : ∀ character ∈ front, isBlank character = true)
    (backBlanks : ∀ character ∈ back, isBlank character = true) :
    Trims (front ++ number.repr.toList ++ back) number.repr.toList := by
  have notBlank : ∀ digit : Digit, isBlank digit.toChar = false := by decide
  have noBlank : ∀ character ∈ number.repr.toList, isBlank character = false := by
    intro character member
    rw [← digitText_decimalDigits] at member
    obtain ⟨digit, -, rfl⟩ := List.mem_map.mp member
    exact notBlank digit
  exact
    ⟨front, back, rfl, frontBlanks, backBlanks,
      fun _ first => noBlank _ (List.mem_of_mem_head? first),
      fun _ last => noBlank _ (List.mem_of_mem_getLast? last)⟩

/-- A number as it is printed is a numeral. -/
theorem isNumeral_repr (number : Nat) : IsNumeral number.repr.toList number :=
  ⟨[], by decide, decimalDigits number, decimalDigits_ne_nil number,
    (digitText_decimalDigits number).symm, valueOfDigits_decimalDigits number⟩

end RowLimit

/--
Without a row limit among the options of a query the options of the join are the
default ones.  Otherwise the text of the limit, without the blanks at its ends,
decides.  The limit is read exactly if this word is a numeral of a number of 64
bits.  The fault of any other text carries the whole text: the word is empty, or it
begins with digits of too large a number, or it has a bad digit.  So the decimal
text of a number of 64 bits is read back with any blanks around it.
-/
theorem row_limit_grammar (options : Std.TreeMap String String) :
    (options[rowLimitKey]? = none → ofQueryOptions options = .ok default) ∧
    ∀ value, options[rowLimitKey]? = some value →
      (∃ word, Trims value.toList word) ∧
      (∀ word, Trims value.toList word →
        (∀ limit,
          ofQueryOptions options = .ok ⟨some limit⟩ ↔
            IsNumeral word limit ∧ limit < 2 ^ 64) ∧
        (ofQueryOptions options =
            .error
              (.badOption rowLimitKey value
                "cannot parse integer from empty string") ↔
          word = []) ∧
        (ofQueryOptions options =
            .error
              (.badOption rowLimitKey value
                "number too large to fit in target type") ↔
          BeginsTooLarge word) ∧
        (ofQueryOptions options =
            .error (.badOption rowLimitKey value "invalid digit found in string") ↔
          word ≠ [] ∧ ¬ BeginsTooLarge word ∧
            ¬ ∃ limit < 2 ^ 64, IsNumeral word limit)) ∧
      ∀ limit < 2 ^ 64, ∀ front back,
        (∀ character ∈ front, isBlank character = true) →
        (∀ character ∈ back, isBlank character = true) →
        value.toList = front ++ limit.repr.toList ++ back →
          ofQueryOptions options = .ok ⟨some limit⟩ := by
  refine
    ⟨fun absent => by rw [ofQueryOptions, absent], fun value given => ⟨?_, ?_, ?_⟩⟩
  · exact ⟨_, trims_trimBlanks value.toList⟩
  · intro word trims
    obtain rfl := trims_iff_trimBlanks_eq.mp trims
    exact
      ⟨fun limit => (ofQueryOptions_eq_ok_iff given).trans readNumeral_eq_ok_iff,
        (ofQueryOptions_eq_error_iff .empty given).trans readNumeral_eq_empty_iff,
        (ofQueryOptions_eq_error_iff .tooLarge given).trans
          readNumeral_eq_tooLarge_iff,
        (ofQueryOptions_eq_error_iff .invalidDigit given).trans
          readNumeral_eq_invalidDigit_iff⟩
  · intro limit fits front back frontBlanks backBlanks written
    have trims := trims_repr limit frontBlanks backBlanks
    rw [← written, trims_iff_trimBlanks_eq] at trims
    rw [ofQueryOptions_eq_ok_iff given, trims]
    exact readNumeral_of_isNumeral (isNumeral_repr limit) fits

/--
The largest limit between blanks, one that is too large, and options of other
operators.
-/
theorem row_limit_grammar_sample :
    let others : Std.TreeMap String String := .ofList [("timeoutMs", "10")]
    let padded := "\u3000 18446744073709551615\n"
    let exceeding := "\t+0018446744073709551616 rows"
    ofQueryOptions others = .ok default ∧
      ofQueryOptions (others.insert rowLimitKey padded) =
        .ok ⟨some 18446744073709551615⟩ ∧
      ofQueryOptions (others.insert rowLimitKey exceeding) =
        .error
          (.badOption rowLimitKey exceeding
            "number too large to fit in target type") := by
  intro others padded exceeding
  have trims : Trims exceeding.toList "+0018446744073709551616 rows".toList :=
    trims_iff_trimBlanks_eq.mpr (by decide)
  have begins : BeginsTooLarge "+0018446744073709551616 rows".toList :=
    ⟨['+'], by decide,
      [0, 0, 1, 8, 4, 4, 6, 7, 4, 4, 0, 7, 3, 7, 0, 9, 5, 5, 1, 6, 1, 6],
      " rows".toList, by decide, by decide⟩
  refine ⟨(row_limit_grammar others).1 (by decide +kernel), ?_, ?_⟩
  · exact
      ((row_limit_grammar _).2 padded (by decide +kernel)).2.2 18446744073709551615
        (by decide) ['\u3000', ' '] ['\n'] (List.all_eq_true.mp rfl)
        (List.all_eq_true.mp rfl) (by decide +kernel)
  · exact
      (((row_limit_grammar _).2 exceeding (by decide +kernel)).2.1 _
        trims).2.2.1.mpr begins

end JoinOptions

end StreamJoin
