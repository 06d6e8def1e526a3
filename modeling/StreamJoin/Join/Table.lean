import Std.Data.TreeMap
import Std.Data.TreeSet
import StreamJoin.Key.Basic

namespace StreamJoin

/-!
# The broadcast table

The right rows of a join, in one bucket for each key.  A bucket holds its rows in
the order in which they arrived, equal rows included.  The table lists its buckets
in the order of their keys; the order in which a sweep visits them is a choice of
its own, a `BucketOrder`.

Beside the table stand the marks: for each key the positions in its bucket of the
rows that were paired with some left row.  Positions rather than rows are marked, so
equal rows of one bucket are told apart.
-/

/-- The right rows of a join by key. -/
structure Table where
  buckets : Std.TreeMap Key (Array Row)

namespace Table

/-- The table without rows. -/
def empty : Table := ⟨∅⟩

/-- Add a row at the end of the bucket of its key. -/
def insert (table : Table) (key : Key) (row : Row) : Table :=
  ⟨table.buckets.alter key fun bucket => some ((bucket.getD #[]).push row)⟩

/-- Add rows in order, each under its own key. -/
def insertAll (table : Table) (keyOf : Row → Key) (rows : List Row) : Table :=
  rows.foldl (fun extended row => extended.insert (keyOf row) row) table

/-- The rows with a key, in order of arrival. -/
def bucket (table : Table) (key : Key) : List Row :=
  (table.buckets[key]?.getD #[]).toList

/-- Whether some row has a key. -/
def contains (table : Table) (key : Key) : Bool := table.buckets.contains key

/-- The number of different keys. -/
def keyCount (table : Table) : Nat := table.buckets.size

/-- The keys with their buckets, in the order of the keys. -/
def toList (table : Table) : List (Key × List Row) :=
  table.buckets.toList.map fun entry => (entry.1, entry.2.toList)

/-- The empty table has no rows under any key. -/
theorem bucket_empty (key : Key) : empty.bucket key = [] := by
  simp [empty, bucket]

/-- Adding a row extends the bucket of its key and no other one. -/
theorem bucket_insert
    (table : Table)
    (key other : Key)
    (row : Row) :
    (table.insert key row).bucket other =
      table.bucket other ++ (if key = other then [row] else []) := by
  unfold insert bucket
  rw [Std.TreeMap.getElem?_alter]
  by_cases sameKey : key = other
  · subst sameKey
    simp [Std.ReflCmp.compare_self]
  · have otherOrder : compare key other ≠ .eq :=
      fun sameOrder => sameKey (Std.LawfulEqOrd.eq_of_compare sameOrder)
    simp [sameKey, otherOrder]

end Table

/-- The positions in each bucket that were paired with some left row. -/
structure Marks where
  positions : Std.TreeMap Key (Std.TreeSet Nat)

namespace Marks

/-- No position is marked. -/
def empty : Marks := ⟨∅⟩

/-- Mark a position in the bucket of a key. -/
def mark (marks : Marks) (key : Key) (position : Nat) : Marks :=
  ⟨marks.positions.alter key fun marked => some ((marked.getD ∅).insert position)⟩

/-- Mark positions in order. -/
def markAll (marks : Marks) (hits : List (Key × Nat)) : Marks :=
  hits.foldl (fun extended hit => extended.mark hit.1 hit.2) marks

/-- The marked positions in the bucket of a key. -/
def marked (marks : Marks) (key : Key) : Std.TreeSet Nat :=
  marks.positions[key]?.getD ∅

/-- Without marks no position of any bucket is marked. -/
theorem contains_marked_empty (key : Key) (position : Nat) :
    (empty.marked key).contains position = false := by
  simp [empty, marked]

/-- Marking adds one position to the bucket of one key. -/
theorem contains_marked_mark
    (marks : Marks)
    (key other : Key)
    (position place : Nat) :
    ((marks.mark key position).marked other).contains place =
      ((key == other && position == place) ||
        (marks.marked other).contains place) := by
  unfold mark marked
  rw [Std.TreeMap.getElem?_alter]
  by_cases sameKey : key = other
  · subst sameKey
    have samePlace :
        (compare position place == Ordering.eq) = (position == place) := by
      rw [Bool.eq_iff_iff]
      simp
    simp [Std.ReflCmp.compare_self, Std.TreeSet.contains_insert, samePlace]
  · have otherOrder : compare key other ≠ .eq :=
      fun sameOrder => sameKey (Std.LawfulEqOrd.eq_of_compare sameOrder)
    simp [sameKey, otherOrder]

end Marks

/--
An order in which the buckets of a table are visited.  A table promises only that
every bucket is visited once, so any rearrangement will do.
-/
structure BucketOrder where
  arrange : List (Key × List Row) → List (Key × List Row)
  perm_arrange : ∀ buckets, (arrange buckets).Perm buckets

/-- The order of the keys. -/
def BucketOrder.byKey : BucketOrder := ⟨id, List.Perm.refl⟩

namespace Table

/--
The rows of a bucket whose positions, counted from `position` on, are not marked.
-/
def unmarkedFrom (marked : Std.TreeSet Nat) (position : Nat) : List Row → List Row
  | [] => []
  | row :: rest =>
      if marked.contains position then
        unmarkedFrom marked (position + 1) rest
      else
        row :: unmarkedFrom marked (position + 1) rest

/--
The rows that were never paired, bucket by bucket.  A bucket with as many marks as
rows is skipped at once, because marks are different positions of the bucket.
-/
def unmarked (table : Table) (order : BucketOrder) (marks : Marks) : List Row :=
  (order.arrange table.toList).flatMap fun entry =>
    let marked := marks.marked entry.1
    if marked.size = entry.2.length then
      []
    else
      unmarkedFrom marked 0 entry.2

end Table

end StreamJoin
