import Mathlib.Data.List.Dedup
import Mathlib.Data.List.Forall2
import StreamJoin.Key.Grouping
import StreamJoin.Proofs.KeyFeeds

namespace StreamJoin

/-!
# Equal keys are grouped

Values are equal if they have one type and the same content, where floating-point
numbers are compared by their words.  Keys are equal if they have the same values,
position by position.  Both are equivalences on all values, those that are no number
included, so a hash table can be asked for a key; and as a key can be read back from
what it feeds to the hash, the table looks at all of the key.

Grouping through a hash table therefore puts two keys of a list together exactly if
they are equal.  The invariant of the loop is that the table knows the first
position of every key seen so far, and of no other key.
-/

/--
Whether two values have one type and the same content; words of numbers are
compared.
-/
def Value.sameContent : Value → Value → Bool
  | .null, .null => true
  | .boolean truth, .boolean other => truth == other
  | .int number, .int other => number == other
  | .long number, .long other => number == other
  | .float word, .float other => word == other
  | .double word, .double other => word == other
  | .string text, .string other => text == other
  | .bytes content, .bytes other => content == other
  | _, _ => false

/-- Whether two keys have as many values, and the same ones position by position. -/
def Key.SamePositions (left right : Key) : Prop :=
  List.Forall₂ (fun value other => value.sameContent other = true) left.values
    right.values

/-- What structural equality is on values. -/
structure Value.EqualByContent : Prop where
  beq_eq : ∀ left right : Value, (left == right) = left.sameContent right
  equivalence : Equivalence fun left right : Value => (left == right) = true
  null_iff : ∀ value : Value, (Value.null == value) = true ↔ value.isNull = true
  sameType : ∀ left right : Value, (left == right) = true → left.type? = right.type?
  float_iff :
    ∀ word other : UInt32, (Value.float word == .float other) = true ↔ word = other
  double_iff :
    ∀ word other : UInt64,
      (Value.double word == .double other) = true ↔ word = other

/-- What structural equality is on keys. -/
structure Key.EqualByPosition : Prop where
  beq_iff : ∀ left right : Key, (left == right) = true ↔ left.SamePositions right
  equivalence : Equivalence fun left right : Key => (left == right) = true
  sameSize : ∀ left right : Key, (left == right) = true → left.size = right.size

/-- The test for equality is an equivalence where it decides equality. -/
theorem equivalence_beq (Content : Type) [DecidableEq Content] :
    Equivalence fun left right : Content => (left == right) = true where
  refl := beq_self_eq_true
  symm same := by
    rw [beq_iff_eq] at same ⊢
    exact same.symm
  trans same later := by
    rw [beq_iff_eq] at same later ⊢
    exact same.trans later

/-- Values have the same content exactly if they are equal. -/
theorem Value.sameContent_iff {left right : Value} :
    left.sameContent right = true ↔ left = right := by
  cases left <;> cases right <;> simp [sameContent]

/-- Equality of values is equality of their contents. -/
theorem Value.equalByContent : Value.EqualByContent where
  beq_eq left right := by
    rw [Bool.eq_iff_iff, beq_iff_eq, sameContent_iff]
  equivalence := equivalence_beq Value
  null_iff value := by
    rw [beq_iff_eq]
    cases value <;> simp [isNull]
  sameType left right same := congrArg type? (beq_iff_eq.mp same)
  float_iff word other := by
    rw [beq_iff_eq, Value.float.injEq]
  double_iff word other := by
    rw [beq_iff_eq, Value.double.injEq]

/-- Keys agree in all positions exactly if they are equal. -/
theorem Key.samePositions_iff {left right : Key} :
    left.SamePositions right ↔ left = right := by
  obtain ⟨values⟩ := left
  obtain ⟨others⟩ := right
  simp only [SamePositions, Value.sameContent_iff, List.forall₂_eq_eq_eq,
    Key.mk.injEq]

/-- Equality of keys is equality in all positions. -/
theorem Key.equalByPosition : Key.EqualByPosition where
  beq_iff left right := by
    rw [beq_iff_eq, samePositions_iff]
  equivalence := equivalence_beq Key
  sameSize left right same := congrArg size (beq_iff_eq.mp same)

/--
A table that has the first positions of the keys seen so far, and nothing else.
-/
structure KnowsFirst (firstPositions : Std.HashMap Key Nat) (seen : List Key) :
    Prop where
  position_eq :
    ∀ key, firstPositions[key]? = if key ∈ seen then some (seen.idxOf key) else none
  size_eq : firstPositions.size = seen.dedup.length

namespace KnowsFirst

variable {firstPositions : Std.HashMap Key Nat} {seen : List Key} {key : Key}

/-- An empty map knows of no key where it stands first. -/
theorem empty : KnowsFirst ∅ [] where
  position_eq key := by simp
  size_eq := rfl

/-- A key that was seen before changes nothing. -/
theorem again
    (knows : KnowsFirst firstPositions seen)
    (member : key ∈ seen) :
    KnowsFirst firstPositions (seen ++ [key]) where
  position_eq other := by
    rw [knows.position_eq]
    by_cases known : other ∈ seen
    · rw [if_pos known, if_pos (List.mem_append_left [key] known),
        List.idxOf_append_of_mem known]
    · have notNow : other ≠ key := fun same => known (same ▸ member)
      rw [if_neg known, if_neg (by simp [known, notNow])]
  size_eq := by
    have sameKeys : (seen ++ [key]).dedup.length = (key :: seen).dedup.length :=
      (List.perm_append_singleton key seen).dedup.length_eq
    rw [sameKeys, List.dedup_cons_of_mem member, knows.size_eq]

/-- A new key is entered with its position. -/
theorem insert
    (knows : KnowsFirst firstPositions seen)
    (fresh : key ∉ seen) :
    KnowsFirst (firstPositions.insert key seen.length) (seen ++ [key]) where
  position_eq other := by
    rw [Std.HashMap.getElem?_insert, knows.position_eq]
    by_cases isKey : key = other
    · subst isKey
      simp [List.idxOf_append_of_notMem fresh]
    · by_cases known : other ∈ seen
      · simp [isKey, known, List.idxOf_append_of_mem known]
      · simp [isKey, known, Ne.symm isKey]
  size_eq := by
    have notEntered : key ∉ firstPositions := by
      rw [Std.HashMap.mem_iff_isSome_getElem?, knows.position_eq, if_neg fresh]
      exact Bool.false_ne_true
    have sameKeys : (seen ++ [key]).dedup.length = (key :: seen).dedup.length :=
      (List.perm_append_singleton key seen).dedup.length_eq
    rw [Std.HashMap.size_insert, if_neg notEntered, knows.size_eq, sameKeys,
      List.dedup_cons_of_notMem fresh, List.length_cons]

/--
Every key from here on is assigned the first position at which the whole list has
it.
-/
theorem groupFrom_eq
    (knows : KnowsFirst firstPositions seen)
    (rest : List Key) :
    groupFrom firstPositions seen.length rest =
      ⟨rest.map (seen ++ rest).idxOf, (seen ++ rest).dedup.length⟩ := by
  induction rest generalizing firstPositions seen with
  | nil => rw [groupFrom, knows.size_eq, List.append_nil, List.map_nil]
  | cons key rest inductionHypothesis =>
      have split : seen ++ key :: rest = seen ++ [key] ++ rest :=
        List.append_cons seen key rest
      have nextIndex : seen.length + 1 = (seen ++ [key]).length := by simp
      by_cases known : key ∈ seen
      · have found : firstPositions[key]? = some (seen.idxOf key) := by
          rw [knows.position_eq, if_pos known]
        simp only [groupFrom, found, nextIndex,
          inductionHypothesis (knows.again known), List.map_cons, ← split,
          List.idxOf_append_of_mem known]
      · have notFound : firstPositions[key]? = none := by
          rw [knows.position_eq, if_neg known]
        simp only [groupFrom, notFound, nextIndex,
          inductionHypothesis (knows.insert known), List.map_cons, ← split,
          List.idxOf_append_of_notMem known, List.idxOf_cons_self, Nat.add_zero]

end KnowsFirst

/--
Keys are grouped by their first position, and there are as many groups as distinct
keys.
-/
theorem groupKeys_eq (keys : List Key) :
    groupKeys keys = ⟨keys.map keys.idxOf, keys.dedup.length⟩ :=
  KnowsFirst.empty.groupFrom_eq keys

/--
Groups of a list of keys: each key is represented by the first position of a key
equal to it, two keys are in one group exactly if they have the same values position
by position, and there are as many groups as different keys.
-/
structure KeyGroups.Identifies (groups : KeyGroups) (keys : List Key) : Prop where
  length_eq : groups.representatives.length = keys.length
  first_iff :
    ∀ index first : Nat,
      groups.representatives[index]? = some first ↔
        ∃ key, keys[index]? = some key ∧ keys[first]? = some key ∧
          ∀ earlier < first, keys[earlier]? ≠ some key
  together_iff :
    ∀ (index other : Nat) (key otherKey : Key),
      keys[index]? = some key → keys[other]? = some otherKey →
        (groups.representatives[index]? = groups.representatives[other]? ↔
          key.SamePositions otherKey)
  distinct_eq : groups.distinct = keys.dedup.length

/-- The first position of a key in a list that has it. -/
theorem idxOf_eq_iff
    {keys : List Key}
    {key : Key}
    {first : Nat}
    (member : key ∈ keys) :
    keys.idxOf key = first ↔
      keys[first]? = some key ∧ ∀ earlier < first, keys[earlier]? ≠ some key := by
  constructor
  · rintro rfl
    refine ⟨List.getElem?_idxOf member, fun earlier isEarlier atEarlier => ?_⟩
    obtain ⟨inside, isKey⟩ := List.getElem?_eq_some_iff.mp atEarlier
    have notKey := List.not_of_lt_findIdx isEarlier
    simp [isKey] at notKey
  · rintro ⟨atFirst, notBefore⟩
    rcases Nat.lt_trichotomy (keys.idxOf key) first with before | same | behind
    · exact absurd (List.getElem?_idxOf member) (notBefore _ before)
    · exact same
    · obtain ⟨inside, isKey⟩ := List.getElem?_eq_some_iff.mp atFirst
      have notKey := List.not_of_lt_findIdx behind
      simp [isKey] at notKey

/-- Two keys are in one group exactly if they are equal. -/
theorem identifies_groupKeys (keys : List Key) :
    (groupKeys keys).Identifies keys where
  length_eq := by
    rw [groupKeys_eq, List.length_map]
  first_iff index first := by
    rw [groupKeys_eq, List.getElem?_map, Option.map_eq_some_iff]
    refine exists_congr fun key => and_congr_right fun atIndex => ?_
    exact idxOf_eq_iff (List.mem_of_getElem? atIndex)
  together_iff index other key otherKey atIndex atOther := by
    rw [groupKeys_eq, List.getElem?_map, List.getElem?_map, atIndex, atOther,
      Key.samePositions_iff]
    simp only [Option.map_some, Option.some.injEq]
    exact List.idxOf_inj (List.mem_of_getElem? atIndex)
  distinct_eq := by
    rw [groupKeys_eq]

/--
Structural equality is an equivalence on values and on keys, keys are equal exactly
if they feed the same bytes to a hash, and grouping through a hash table puts keys
together exactly if they are equal, each behind its first occurrence.
-/
theorem key_identity_sound :
    Value.EqualByContent ∧ Key.EqualByPosition ∧
      (∀ left right : Key, left.LengthsFit → right.LengthsFit →
        (left.feed = right.feed ↔ left = right)) ∧
      ∀ keys : List Key, (groupKeys keys).Identifies keys :=
  ⟨Value.equalByContent, Key.equalByPosition, fun _ _ => Key.feed_eq_iff,
    identifies_groupKeys⟩

/-- A text and then bytes, of which the text is empty. -/
def textThenBytes : Key := ⟨[.string "", .bytes [0xFF, 6]]⟩

/-- Bytes and then a text, of which the bytes are empty. -/
def bytesThenText : Key := ⟨[.bytes [], .string "\x06"]⟩

/-- A zero with a null behind it. -/
def zeroKey : Key := ⟨[.double 0, .null]⟩

/-- The other zero with a null behind it. -/
def negativeZeroKey : Key := ⟨[.double 0x8000000000000000, .null]⟩

/-- A word that is no number, with a null behind it. -/
def notNumberKey : Key := ⟨[.double 0x7FF8000000000001, .null]⟩

/-- A word that is no number is found again, and the two zeros are kept apart. -/
theorem key_identity_sound_sample :
    textThenBytes.feed ≠ bytesThenText.feed ∧
      (groupKeys
          [zeroKey, notNumberKey, negativeZeroKey,
            notNumberKey]).representatives[3]? =
        some 1 ∧
      (groupKeys [zeroKey, notNumberKey, negativeZeroKey, notNumberKey]).distinct =
        3 := by
  obtain ⟨_, _, feeds, groups⟩ := key_identity_sound
  have textFits : textThenBytes.LengthsFit := by decide
  have bytesFit : bytesThenText.LengthsFit := by decide
  have different : textThenBytes ≠ bytesThenText := by decide
  refine ⟨fun same => different ((feeds _ _ textFits bytesFit).mp same), ?_, ?_⟩
  · rw [(groups _).first_iff]
    exact ⟨notNumberKey, rfl, rfl, by decide⟩
  · rw [(groups _).distinct_eq]
    decide

end StreamJoin
