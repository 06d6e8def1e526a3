import StreamJoin.Value.Order

namespace StreamJoin

/-!
# Join keys

A key is the list of values that a row has in the columns of an equi-join.  Two
keys are equal exactly when their values are, position by position, so a null in a
key matches a null.  The empty key belongs to a join without equality columns: all
rows share it.

Keys are totally ordered, for the broadcast table, and hashed, for grouping.  The
hash is a digest of the byte sequence `Key.feed`.
-/

/-- The values that identify a bucket of rows. -/
structure Key where
  values : List Value
  deriving Repr, DecidableEq

namespace Key

/-- The key without values. -/
def empty : Key := ⟨[]⟩

/-- The number of values in a key. -/
def size (key : Key) : Nat := key.values.length

/-- Whether a key has no values. -/
def isEmpty (key : Key) : Bool := key.values.isEmpty

/-- Whether a value of the key is null. -/
def hasNull (key : Key) : Bool := key.values.any Value.isNull

/-- The sort keys of the values of a key. -/
def sortKey (key : Key) : List (List Nat) := key.values.map Value.sortKey

instance : Ord Key where
  compare left right := compare left.sortKey right.sortKey

/-- Keys with the same sort key are the same. -/
theorem sortKey_injective
    {left right : Key}
    (sameSortKey : left.sortKey = right.sortKey) :
    left = right := by
  cases left with
  | mk leftValues =>
      cases right with
      | mk rightValues =>
          have sameValues : leftValues = rightValues :=
            List.map_inj_right (fun _ _ => Value.sortKey_injective)
              |>.mp sameSortKey
          rw [sameValues]

/-- Two keys are ordered as their sort keys are. -/
theorem compare_eq (left right : Key) :
    compare left right = compare left.sortKey right.sortKey := rfl

instance : Std.TransOrd Key where
  eq_swap := by
    intro left right
    rw [compare_eq, compare_eq]
    exact Std.OrientedOrd.eq_swap
  isLE_trans := by
    intro first second third firstLE secondLE
    rw [compare_eq] at firstLE secondLE ⊢
    exact Std.TransOrd.isLE_trans firstLE secondLE

instance : Std.LawfulEqOrd Key where
  compare_self := by
    intro key
    rw [compare_eq]
    exact Std.ReflOrd.compare_self
  eq_of_compare := by
    intro left right sameOrder
    rw [compare_eq] at sameOrder
    exact sortKey_injective (Std.LawfulEqOrd.eq_of_compare sameOrder)

end Key

end StreamJoin
