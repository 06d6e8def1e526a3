import Mathlib.Data.List.Perm.Subperm
import StreamJoin.Join.Table

namespace StreamJoin

/-!
# What the broadcast table holds

A table that was filled row by row is an order-preserving grouping: looking up a key
gives the rows with that key in order of arrival, and the buckets together hold
every row once.  With marks that record which rows were paired, the rows that a
sweep hands out are the rows that were not paired, each as often as it arrived, in
whatever order the buckets are visited.
-/

/--
Picking the rows of one key after another gives back all rows, if no key is named
twice and none is left out.
-/
theorem flatMap_filter_perm
    {Item Label : Type}
    [DecidableEq Label]
    (labelOf : Item → Label)
    (labels : List Label)
    (items : List Item)
    (noDuplicates : labels.Nodup)
    (covered : ∀ item ∈ items, labelOf item ∈ labels) :
    (labels.flatMap fun label => items.filter fun item => labelOf item = label).Perm
      items := by
  induction labels generalizing items with
  | nil =>
      have noItems : items = [] :=
        List.eq_nil_iff_forall_not_mem.mpr fun item member =>
          List.not_mem_nil (covered item member)
      simp [noItems]
  | cons label rest inductionHypothesis =>
      obtain ⟨labelFresh, restNodup⟩ := List.nodup_cons.mp noDuplicates
      let others := items.filter fun item => !decide (labelOf item = label)
      have othersCovered : ∀ item ∈ others, labelOf item ∈ rest := by
        intro item member
        obtain ⟨inItems, otherLabel⟩ := List.mem_filter.mp member
        have someLabel := covered item inItems
        simp only [Bool.not_eq_eq_eq_not, Bool.not_true, decide_eq_false_iff_not]
          at otherLabel
        exact (List.mem_cons.mp someLabel).resolve_left otherLabel
      -- The other labels do not see that the items of the first one are gone.
      have sameParts :
          (rest.flatMap fun other =>
              items.filter fun item => labelOf item = other) =
            rest.flatMap fun other =>
              others.filter fun item => labelOf item = other := by
        apply List.flatMap_congr
        intro other member
        rw [List.filter_filter]
        apply List.filter_congr
        intro item _
        by_cases sameLabel : labelOf item = other
        · have otherNe : other ≠ label :=
            fun same => labelFresh (same ▸ member)
          simp [sameLabel, otherNe]
        · simp [sameLabel]
      rw [List.flatMap_cons, sameParts]
      exact
        ((inductionHypothesis others restNodup othersCovered).append_left _).trans
          (List.filter_append_perm _ items)

namespace Table

variable {keyOf : Row → Key}

/-- The table of rows that arrived one after another. -/
def ofRows (keyOf : Row → Key) (rows : List Row) : Table :=
  empty.insertAll keyOf rows

/-- More rows come into a table behind those that filled it. -/
theorem insertAll_ofRows (stored rows : List Row) :
    (ofRows keyOf stored).insertAll keyOf rows = ofRows keyOf (stored ++ rows) := by
  simp [ofRows, insertAll]

/-- Adding rows extends each bucket by the rows of its key, in order. -/
theorem bucket_insertAll
    (table : Table)
    (rows : List Row)
    (key : Key) :
    (table.insertAll keyOf rows).bucket key =
      table.bucket key ++ rows.filter fun row => keyOf row = key := by
  induction rows generalizing table with
  | nil =>
      simp [insertAll]
  | cons row rest inductionHypothesis =>
      have rowByRow :
          table.insertAll keyOf (row :: rest) =
            (table.insert (keyOf row) row).insertAll keyOf rest := rfl
      rw [rowByRow, inductionHypothesis, bucket_insert]
      by_cases sameKey : keyOf row = key <;> simp [sameKey]

/-- A bucket holds the rows with its key, in order. -/
theorem bucket_ofRows (rows : List Row) (key : Key) :
    (ofRows keyOf rows).bucket key = rows.filter fun row => keyOf row = key := by
  rw [ofRows, bucket_insertAll, bucket_empty, List.nil_append]

/-- A row adds its key to the keys of a table. -/
theorem contains_insert
    (table : Table)
    (key other : Key)
    (row : Row) :
    (table.insert key row).contains other =
      (table.contains other || decide (key = other)) := by
  unfold insert contains
  rw [Std.TreeMap.contains_alter]
  by_cases sameKey : key = other
  · subst sameKey
    simp [Std.ReflCmp.compare_self]
  · have otherOrder : compare key other ≠ .eq :=
      fun sameOrder => sameKey (Std.LawfulEqOrd.eq_of_compare sameOrder)
    simp [sameKey, otherOrder]

/-- Rows add their keys to the keys of a table. -/
theorem contains_insertAll
    (table : Table)
    (rows : List Row)
    (key : Key) :
    (table.insertAll keyOf rows).contains key =
      (table.contains key || rows.any fun row => keyOf row = key) := by
  induction rows generalizing table with
  | nil =>
      simp [insertAll]
  | cons row rest inductionHypothesis =>
      have rowByRow :
          table.insertAll keyOf (row :: rest) =
            (table.insert (keyOf row) row).insertAll keyOf rest := rfl
      rw [rowByRow, inductionHypothesis, contains_insert, List.any_cons,
        Bool.or_assoc]

/-- The keys of a table are those of its rows. -/
theorem contains_ofRows (rows : List Row) (key : Key) :
    (ofRows keyOf rows).contains key = rows.any fun row => keyOf row = key := by
  rw [ofRows, contains_insertAll]
  simp [empty, contains]

/-- No key has two buckets. -/
theorem nodup_keys_toList (table : Table) : (table.toList.map Prod.fst).Nodup := by
  have distinct := Std.TreeMap.distinct_keys_toList (t := table.buckets)
  rw [toList, List.map_map, List.nodup_iff_pairwise_ne, List.pairwise_map]
  refine distinct.imp ?_
  intro first second differ sameKey
  apply differ
  have sameKey : first.1 = second.1 := sameKey
  rw [sameKey]
  exact Std.ReflCmp.compare_self

/-- A listed bucket is the one that a look-up of its key finds. -/
theorem bucket_of_mem_toList
    {table : Table}
    {entry : Key × List Row}
    (listed : entry ∈ table.toList) :
    table.bucket entry.1 = entry.2 := by
  obtain ⟨stored, member, rfl⟩ := List.mem_map.mp listed
  have found : table.buckets[stored.1]? = some stored.2 :=
    Std.TreeMap.mem_toList_iff_getElem?_eq_some.mp member
  simp [bucket, found]

/-- The listed keys are those that the table contains. -/
theorem mem_keys_toList {table : Table} {key : Key} :
    key ∈ table.toList.map Prod.fst ↔ table.contains key = true := by
  have keys_eq : table.toList.map Prod.fst = table.buckets.keys := by
    rw [← Std.TreeMap.map_fst_toList_eq_keys, toList, List.map_map]
    rfl
  rw [keys_eq, Std.TreeMap.mem_keys]
  exact Std.TreeMap.contains_iff_mem.symm

/--
Keeping some rows of every bucket, in any order of the buckets, keeps those rows of
all that arrived.
-/
theorem flatMap_arrange_ofRows_perm
    (order : BucketOrder)
    (rows : List Row)
    (kept : Row → Bool) :
    ((order.arrange (ofRows keyOf rows).toList).flatMap fun entry =>
        entry.2.filter kept).Perm
      (rows.filter kept) := by
  let table := ofRows keyOf rows
  have byKey :
      (table.toList.flatMap fun entry => entry.2.filter kept) =
        (table.toList.map Prod.fst).flatMap fun key =>
          (rows.filter kept).filter fun row => keyOf row = key := by
    rw [List.flatMap_map]
    apply List.flatMap_congr
    intro entry listed
    rw [← bucket_of_mem_toList listed, bucket_ofRows, List.filter_filter,
      List.filter_filter]
    apply List.filter_congr
    intro row _
    exact Bool.and_comm ..
  refine ((order.perm_arrange table.toList).flatMap_right _).trans ?_
  rw [byKey]
  apply flatMap_filter_perm keyOf _ _ (nodup_keys_toList table)
  intro row member
  apply mem_keys_toList.mpr
  rw [contains_ofRows, List.any_eq_true]
  exact ⟨row, (List.mem_filter.mp member).1, by simp⟩

end Table

/-- Marks that record exactly the rows of a table with some property. -/
def Marks.Record (marks : Marks) (table : Table) (paired : Row → Bool) : Prop :=
  ∀ (key : Key) (position : Nat),
    (marks.marked key).contains position = true ↔
      ∃ row, (table.bucket key)[position]? = some row ∧ paired row = true

namespace Marks.Record

variable {marks : Marks} {table : Table} {paired : Row → Bool}

/-- The mark at the position of a row tells whether the row has the property. -/
theorem contains_eq
    (record : marks.Record table paired)
    {key : Key}
    {position : Nat}
    {row : Row}
    (stored : (table.bucket key)[position]? = some row) :
    (marks.marked key).contains position = paired row := by
  rw [Bool.eq_iff_iff, record key position]
  constructor
  · rintro ⟨other, otherStored, isPaired⟩
    rw [stored] at otherStored
    exact Option.some.inj otherStored ▸ isPaired
  · intro isPaired
    exact ⟨row, stored, isPaired⟩

/-- Marks stand only at positions of their bucket. -/
theorem lt_of_contains
    (record : marks.Record table paired)
    {key : Key}
    {position : Nat}
    (marked : (marks.marked key).contains position = true) :
    position < (table.bucket key).length := by
  obtain ⟨row, stored, _⟩ := (record key position).mp marked
  exact (List.getElem?_eq_some_iff.mp stored).1

/-- As many marks as rows: every position of the bucket is marked. -/
theorem contains_of_size_eq
    (record : marks.Record table paired)
    {key : Key}
    (sameSize : (marks.marked key).size = (table.bucket key).length)
    {position : Nat}
    (inBucket : position < (table.bucket key).length) :
    (marks.marked key).contains position = true := by
  let positions := (marks.marked key).toList
  have noDuplicates : positions.Nodup := by
    rw [List.nodup_iff_pairwise_ne]
    refine Std.TreeSet.distinct_toList.imp ?_
    intro first second differ same
    exact differ (same ▸ Std.ReflCmp.compare_self)
  have inside : positions ⊆ List.range (table.bucket key).length := by
    intro place member
    rw [List.mem_range]
    apply record.lt_of_contains
    exact Std.TreeSet.contains_iff_mem.mpr (Std.TreeSet.mem_toList.mp member)
  have sameLength :
      (List.range (table.bucket key).length).length = positions.length := by
    rw [List.length_range, ← sameSize, Std.TreeSet.length_toList]
  have all : positions.Perm (List.range (table.bucket key).length) :=
    (noDuplicates.subperm inside).perm_of_length_le (Nat.le_of_eq sameLength)
  have listed : position ∈ positions :=
    all.mem_iff.mpr (List.mem_range.mpr inBucket)
  exact Std.TreeSet.contains_iff_mem.mpr (Std.TreeSet.mem_toList.mp listed)

end Marks.Record

namespace Table

/-- The walk along a bucket keeps the rows without the recorded property. -/
theorem unmarkedFrom_eq_filter
    {marked : Std.TreeSet Nat}
    {paired : Row → Bool}
    (position : Nat)
    (rows : List Row)
    (recorded : ∀ (index : Nat) (row : Row),
      rows[index]? = some row → marked.contains (position + index) = paired row) :
    unmarkedFrom marked position rows = rows.filter fun row => !paired row := by
  induction rows generalizing position with
  | nil =>
      rfl
  | cons row rest inductionHypothesis =>
      have atHead : marked.contains position = paired row :=
        recorded 0 row rfl
      have inTail := inductionHypothesis (position + 1) (by
        intro index later stored
        have shifted := recorded (index + 1) later stored
        have oneOn : position + (index + 1) = position + 1 + index := by omega
        rwa [oneOn] at shifted)
      rw [unmarkedFrom, atHead, inTail]
      cases isPaired : paired row <;> simp [isPaired]

/-- What the sweep takes of a bucket, by its short cut or by walking along it. -/
theorem unmarked_bucket
    {table : Table}
    {marks : Marks}
    {paired : Row → Bool}
    (record : marks.Record table paired)
    (key : Key) :
    (if (marks.marked key).size = (table.bucket key).length then
        []
      else
        unmarkedFrom (marks.marked key) 0 (table.bucket key)) =
      (table.bucket key).filter fun row => !paired row := by
  by_cases sameSize : (marks.marked key).size = (table.bucket key).length
  · rw [if_pos sameSize, eq_comm, List.filter_eq_nil_iff]
    intro row member
    obtain ⟨position, inBucket, rfl⟩ := List.getElem_of_mem member
    have isPaired :=
      record.contains_eq (List.getElem?_eq_getElem inBucket)
    rw [record.contains_of_size_eq sameSize inBucket] at isPaired
    simp [← isPaired]
  · rw [if_neg sameSize]
    apply unmarkedFrom_eq_filter
    intro index row stored
    rw [Nat.zero_add]
    exact record.contains_eq stored

/--
The sweep hands out the rows that were not paired, each as often as it arrived.
-/
theorem unmarked_ofRows_perm
    {keyOf : Row → Key}
    {rows : List Row}
    {marks : Marks}
    {paired : Row → Bool}
    (order : BucketOrder)
    (record : marks.Record (ofRows keyOf rows) paired) :
    ((ofRows keyOf rows).unmarked order marks).Perm
      (rows.filter fun row => !paired row) := by
  have bucketByBucket :
      (ofRows keyOf rows).unmarked order marks =
        (order.arrange (ofRows keyOf rows).toList).flatMap fun entry =>
          entry.2.filter fun row => !paired row := by
    unfold unmarked
    apply List.flatMap_congr
    intro entry arranged
    have listed : entry ∈ (ofRows keyOf rows).toList :=
      (order.perm_arrange _).mem_iff.mp arranged
    rw [← bucket_of_mem_toList listed]
    exact unmarked_bucket record entry.1
  rw [bucketByBucket]
  exact flatMap_arrange_ofRows_perm order rows _

end Table

end StreamJoin
