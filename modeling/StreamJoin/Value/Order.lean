import StreamJoin.Value.Basic

namespace StreamJoin

/-!
# The structural order of values

A total order on values that agrees with structural equality.  It is not the SQL
order: it ranks values by type first, and floating-point values by their words.
The broadcast table lists its keys in this order.

A value is ranked through its *sort key*, a list of numbers compared like words in
a dictionary.  The main statement is `sortKey_injective`: no two values share a
sort key, so values that the order calls equal are the same value.
-/

namespace Value

/--
The numbers by which a value is ranked: the place of its type, then its content.
-/
def sortKey : Value → List Nat
  | .null => [0]
  | .boolean truth => [1, truth.toNat]
  | .int number => [2, (number.toInt + 2147483648).toNat]
  | .long number => [3, (number.toInt + 9223372036854775808).toNat]
  | .float word => [4, word.toNat]
  | .double word => [5, word.toNat]
  | .string text => 6 :: codePoints text
  | .bytes content => 7 :: content.map UInt8.toNat

/-- Texts with the same code points are the same. -/
theorem codePoints_injective
    {left right : String}
    (sameCodePoints : codePoints left = codePoints right) :
    left = right := by
  unfold codePoints at sameCodePoints
  have sameCharacters : left.toList = right.toList :=
    List.map_inj_right
      (fun _ _ sameNumber => Char.toNat_inj.mp sameNumber)
      |>.mp sameCodePoints
  exact String.toList_inj.mp sameCharacters

/-- Values with the same sort key are the same. -/
theorem sortKey_injective
    {left right : Value}
    (sameSortKey : left.sortKey = right.sortKey) :
    left = right := by
  cases left with
  | null => cases right <;> simp_all [sortKey]
  | boolean truth =>
      cases right <;> simp_all [sortKey]
      rename_i other
      cases truth <;> cases other <;> simp_all
  | int number =>
      cases right <;> simp_all [sortKey]
      rename_i other
      have lowNumber := number.le_toInt
      have lowOther := other.le_toInt
      exact Int32.toInt_inj.mp (by omega)
  | long number =>
      cases right <;> simp_all [sortKey]
      rename_i other
      have lowNumber := number.le_toInt
      have lowOther := other.le_toInt
      exact Int64.toInt_inj.mp (by omega)
  | float word =>
      cases right <;> simp_all [sortKey]
      exact UInt32.toNat_inj.mp sameSortKey
  | double word =>
      cases right <;> simp_all [sortKey]
      exact UInt64.toNat_inj.mp sameSortKey
  | string text =>
      cases right <;> simp_all [sortKey]
      exact codePoints_injective sameSortKey
  | bytes content =>
      cases right <;> simp_all [sortKey]
      exact List.map_inj_right (fun _ _ sameNumber => UInt8.toNat_inj.mp sameNumber)
        |>.mp sameSortKey

end Value

end StreamJoin
