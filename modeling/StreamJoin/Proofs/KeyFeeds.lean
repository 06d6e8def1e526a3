import Mathlib.Algebra.Ring.Nat
import StreamJoin.Key.Digest

namespace StreamJoin

/-!
# Keys are read back from their feeds

A key is hashed through the bytes that it feeds.  Two different keys never feed the
same bytes, so whatever a hash does with the bytes, it is a hash of the key and of
nothing less.

The reason is that the feed of a value tells where it ends: its first byte is the
type, and behind it stands a fixed number of bytes, a text in front of the first
byte that no text contains, or as many bytes as the eight bytes before them say.  So
from two feeds with anything behind them one can split off the first values, and the
values of a key come off one by one.

A length is fed in eight bytes.  The contents of a byte string can be read back if
its length is a number of eight bytes, as that of every byte string in memory is.
-/

/-- A number is fed with as many bytes as were asked for. -/
theorem length_littleEndian (count number : Nat) :
    (littleEndian count number).length = count := by
  induction count generalizing number with
  | zero => rfl
  | succ count inductionHypothesis =>
      exact congrArg (· + 1) (inductionHypothesis (number / 256))

/-- Numbers that fit in their bytes are split off, whatever stands behind them. -/
theorem littleEndian_append_inj
    {count number other : Nat}
    {rest more : List UInt8}
    (fits : number < 256 ^ count)
    (otherFits : other < 256 ^ count)
    (same : littleEndian count number ++ rest = littleEndian count other ++ more) :
    number = other ∧ rest = more := by
  induction count generalizing number other with
  | zero =>
      rw [Nat.pow_zero] at fits otherFits
      exact ⟨by omega, same⟩
  | succ count inductionHypothesis =>
      obtain ⟨sameByte, sameLater⟩ := List.cons.inj same
      have sameLow : number % 256 = other % 256 := congrArg UInt8.toNat sameByte
      rw [Nat.pow_succ'] at fits otherFits
      obtain ⟨sameHigh, sameRest⟩ :=
        inductionHypothesis (Nat.div_lt_of_lt_mul fits)
          (Nat.div_lt_of_lt_mul otherFits) sameLater
      exact ⟨by omega, sameRest⟩

/-- What stands before the first occurrence of a marker is split off. -/
theorem append_marker_inj
    {marker : UInt8}
    {first other rest more : List UInt8}
    (notInFirst : marker ∉ first)
    (notInOther : marker ∉ other)
    (same : first ++ marker :: rest = other ++ marker :: more) :
    first = other ∧ rest = more := by
  induction first generalizing other with
  | nil =>
      cases other with
      | nil => exact ⟨rfl, (List.cons.inj same).2⟩
      | cons byte later =>
          exact absurd ((List.cons.inj same).1 ▸ List.mem_cons_self) notInOther
  | cons byte later inductionHypothesis =>
      cases other with
      | nil => exact absurd ((List.cons.inj same).1 ▸ List.mem_cons_self) notInFirst
      | cons otherByte otherLater =>
          obtain ⟨rfl, sameLater⟩ := List.cons.inj same
          obtain ⟨rfl, sameRest⟩ :=
            inductionHypothesis (List.not_mem_of_not_mem_cons notInFirst)
              (List.not_mem_of_not_mem_cons notInOther) sameLater
          exact ⟨rfl, sameRest⟩

/--
The first bytes of the four lengths of a character are the highest, up to 247.
-/
theorem toNat_le_of_mem_utf8EncodeChar
    {character : Char}
    {byte : UInt8}
    (member : byte ∈ String.utf8EncodeChar character) :
    byte.toNat ≤ 247 := by
  have low {number : Nat} (small : number ≤ 247) :
      (UInt8.ofNat number).toNat ≤ 247 :=
    Nat.le_trans (Nat.mod_le number 256) small
  unfold String.utf8EncodeChar at member
  simp only at member
  split at member
  · obtain rfl := List.mem_singleton.mp member
    exact low (by omega)
  · split at member
    · simp only [List.mem_cons, List.not_mem_nil, or_false] at member
      rcases member with rfl | rfl <;> exact low (by omega)
    · split at member <;>
        simp only [List.mem_cons, List.not_mem_nil, or_false] at member
      · rcases member with rfl | rfl | rfl <;> exact low (by omega)
      · rcases member with rfl | rfl | rfl | rfl <;> exact low (by omega)

/-- No text contains the byte that closes texts. -/
theorem closing_notMem_utf8Bytes (text : String) : 0xFF ∉ utf8Bytes text := by
  intro member
  obtain ⟨character, _, inEncoding⟩ := List.mem_flatMap.mp member
  have tooHigh := toNat_le_of_mem_utf8EncodeChar inEncoding
  contradiction

/-- A text is told by its bytes. -/
theorem utf8Bytes_injective
    {text other : String}
    (same : utf8Bytes text = utf8Bytes other) :
    text = other := by
  have sameBytes : text.toByteArray = other.toByteArray := by
    rw [← String.utf8Encode_toList, ← String.utf8Encode_toList]
    exact congrArg List.toByteArray same
  exact String.toByteArray_inj.mp sameBytes

namespace Value

/--
A value whose length, if it has one, is a number of the eight bytes in which it is
fed.
-/
def LengthFits : Value → Prop
  | .bytes content => content.length < 256 ^ 8
  | _ => True

instance : DecidablePred LengthFits
  | .bytes content => inferInstanceAs (Decidable (content.length < 256 ^ 8))
  | .null => isTrue trivial
  | .boolean _ => isTrue trivial
  | .int _ => isTrue trivial
  | .long _ => isTrue trivial
  | .float _ => isTrue trivial
  | .double _ => isTrue trivial
  | .string _ => isTrue trivial

/-- The first byte of a feed. -/
def tag : Value → UInt8
  | .null => 0
  | .boolean _ => 1
  | .int _ => 2
  | .long _ => 3
  | .float _ => 4
  | .double _ => 5
  | .string _ => 6
  | .bytes _ => 7

/-- The feed of a value behind its first byte. -/
def content : Value → List UInt8
  | .null => []
  | .boolean truth => [if truth then 1 else 0]
  | .int number => littleEndian 4 number.toUInt32.toNat
  | .long number => littleEndian 8 number.toUInt64.toNat
  | .float word => littleEndian 4 word.toNat
  | .double word => littleEndian 8 word.toNat
  | .string text => utf8Bytes text ++ [0xFF]
  | .bytes content => lengthFeed content.length ++ content

/-- The feed of a value begins with its tag. -/
theorem feed_eq_tag_cons (value : Value) :
    value.feed = value.tag :: value.content := by
  cases value <;> rfl

variable {left right : Value} {rest more : List UInt8}

/-- Of two values of one type the contents are split off. -/
theorem content_append_inj
    (leftFits : left.LengthFits)
    (rightFits : right.LengthFits)
    (sameTag : left.tag = right.tag)
    (same : left.content ++ rest = right.content ++ more) :
    left = right ∧ rest = more := by
  have word32 (word : UInt32) : word.toNat < 256 ^ 4 := word.toNat_lt
  have word64 (word : UInt64) : word.toNat < 256 ^ 8 := word.toNat_lt
  cases left <;> cases right <;> cases sameTag
  case null.null => exact ⟨rfl, same⟩
  case boolean.boolean truth other =>
    obtain ⟨sameByte, sameRest⟩ := List.cons.inj same
    cases truth <;> cases other <;> first | exact ⟨rfl, sameRest⟩ | cases sameByte
  case int.int number other =>
    obtain ⟨sameWord, sameRest⟩ :=
      littleEndian_append_inj (word32 _) (word32 _) same
    have sameNumber := congrArg UInt32.toInt32 (UInt32.toNat_inj.mp sameWord)
    rw [Int32.toInt32_toUInt32, Int32.toInt32_toUInt32] at sameNumber
    exact ⟨congrArg Value.int sameNumber, sameRest⟩
  case long.long number other =>
    obtain ⟨sameWord, sameRest⟩ :=
      littleEndian_append_inj (word64 _) (word64 _) same
    have sameNumber := congrArg UInt64.toInt64 (UInt64.toNat_inj.mp sameWord)
    rw [Int64.toInt64_toUInt64, Int64.toInt64_toUInt64] at sameNumber
    exact ⟨congrArg Value.long sameNumber, sameRest⟩
  case float.float word other =>
    obtain ⟨sameWord, sameRest⟩ :=
      littleEndian_append_inj (word32 _) (word32 _) same
    exact ⟨congrArg Value.float (UInt32.toNat_inj.mp sameWord), sameRest⟩
  case double.double word other =>
    obtain ⟨sameWord, sameRest⟩ :=
      littleEndian_append_inj (word64 _) (word64 _) same
    exact ⟨congrArg Value.double (UInt64.toNat_inj.mp sameWord), sameRest⟩
  case string.string text other =>
    simp only [content, List.append_assoc, List.singleton_append] at same
    obtain ⟨sameBytes, sameRest⟩ :=
      append_marker_inj (closing_notMem_utf8Bytes text)
        (closing_notMem_utf8Bytes other) same
    exact ⟨congrArg Value.string (utf8Bytes_injective sameBytes), sameRest⟩
  case bytes.bytes content other =>
    simp only [Value.content, List.append_assoc] at same
    obtain ⟨sameLength, sameLater⟩ :=
      littleEndian_append_inj leftFits rightFits same
    obtain ⟨rfl, sameRest⟩ := List.append_inj sameLater sameLength
    exact ⟨rfl, sameRest⟩

/-- From two feeds, whatever stands behind them, the values are split off. -/
theorem feed_append_inj
    (leftFits : left.LengthFits)
    (rightFits : right.LengthFits)
    (same : left.feed ++ rest = right.feed ++ more) :
    left = right ∧ rest = more := by
  rw [feed_eq_tag_cons, feed_eq_tag_cons] at same
  obtain ⟨sameTag, sameContent⟩ := List.cons.inj same
  exact content_append_inj leftFits rightFits sameTag sameContent

end Value

/-- The values of a row are read back from their feeds. -/
theorem flatMap_feed_inj
    {lefts rights : List Value}
    (leftFits : ∀ value ∈ lefts, value.LengthFits)
    (rightFits : ∀ value ∈ rights, value.LengthFits)
    (same : lefts.flatMap Value.feed = rights.flatMap Value.feed) :
    lefts = rights := by
  induction lefts generalizing rights with
  | nil =>
      cases rights with
      | nil => rfl
      | cons right rest =>
          rw [List.flatMap_cons, Value.feed_eq_tag_cons] at same
          cases same
  | cons left rest inductionHypothesis =>
      cases rights with
      | nil =>
          rw [List.flatMap_cons, Value.feed_eq_tag_cons] at same
          cases same
      | cons right more =>
          rw [List.forall_mem_cons] at leftFits rightFits
          rw [List.flatMap_cons, List.flatMap_cons] at same
          obtain ⟨rfl, sameRest⟩ :=
            Value.feed_append_inj leftFits.1 rightFits.1 same
          rw [inductionHypothesis leftFits.2 rightFits.2 sameRest]

namespace Key

/-- A key of values whose lengths can be fed. -/
def LengthsFit (key : Key) : Prop := ∀ value ∈ key.values, value.LengthFits

instance : DecidablePred LengthsFit := fun key =>
  inferInstanceAs (Decidable (∀ value ∈ key.values, value.LengthFits))

/-- Keys feed the same bytes exactly if they are the same. -/
theorem feed_eq_iff
    {left right : Key}
    (leftFits : left.LengthsFit)
    (rightFits : right.LengthsFit) :
    left.feed = right.feed ↔ left = right := by
  refine ⟨fun same => ?_, congrArg feed⟩
  have sameWidth :
      (lengthFeed left.size).length = (lengthFeed right.size).length := by
    rw [lengthFeed, lengthFeed, length_littleEndian, length_littleEndian]
  obtain ⟨_, sameValues⟩ := List.append_inj same sameWidth
  obtain ⟨values⟩ := left
  obtain ⟨others⟩ := right
  exact congrArg Key.mk (flatMap_feed_inj leftFits rightFits sameValues)

end Key

end StreamJoin
