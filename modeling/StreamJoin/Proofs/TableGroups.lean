import Mathlib.Data.Set.Function
import StreamJoin.Key.Columns
import StreamJoin.Proofs.HistoryTally
import StreamJoin.Proofs.MarkedPositions

namespace StreamJoin

/-!
# Rows grouped by their key columns

What it means that a table groups rows is said here without the way in which a table
is filled, and without the way in which keys are read: a bucket holds the rows whose
key columns hold the values of its key, in order of arrival and as often as they
arrived.

Rows may be equal, so it is arrivals that are counted, not rows.  Each arrival has
one place, a bucket and a position in it, and each place of the table belongs to one
arrival.

A table that is filled row by row groups the rows, provided that they have all key
columns.
-/

namespace KeyColumns

/--
What a row holds in the key columns, and nothing for a column that it does not have.
-/
def valuesIn (selected : KeyColumns) (row : Row) : List (Option Value) :=
  selected.columns.map fun column => row[column]?

/-- A row whose key columns hold the values of a key. -/
def Matches (selected : KeyColumns) (key : Key) (row : Row) : Prop :=
  selected.valuesIn row = key.values.map some

instance (selected : KeyColumns) (key : Key) :
    DecidablePred (selected.Matches key) :=
  fun row =>
    inferInstanceAs (Decidable (selected.valuesIn row = key.values.map some))

variable {selected : KeyColumns} {row : Row}

/-- The key of a row with all key columns is what these columns hold. -/
theorem valuesIn_eq
    (present : ∀ column ∈ selected.columns, row[column]?.isSome = true) :
    selected.valuesIn row = (selected.key row).values.map some := by
  simp only [valuesIn, key, List.map_map]
  apply List.map_congr_left
  intro column member
  obtain ⟨value, found⟩ := Option.isSome_iff_exists.mp (present column member)
  simp [found]

/-- A row with all key columns matches a key exactly if that is its key. -/
theorem matches_iff
    (present : ∀ column ∈ selected.columns, row[column]?.isSome = true)
    (key : Key) :
    selected.Matches key row ↔ selected.key row = key := by
  rw [Matches, valuesIn_eq present, List.map_inj_right fun _ _ => Option.some.inj]
  constructor
  · exact fun sameValues => congrArg Key.mk sameValues
  · exact congrArg Key.values

end KeyColumns

section Arrivals

variable {Item : Type} {kept : Item → Bool} {items : List Item} {item : Item}

/-- An item that is kept stands behind those kept ones that came before it. -/
theorem getElem?_filter_of_arrival
    {arrival : Nat}
    (arrived : items[arrival]? = some item)
    (isKept : kept item = true) :
    (items.filter kept)[(items.take arrival).countP kept]? = some item := by
  obtain ⟨inside, rfl⟩ := List.getElem?_eq_some_iff.mp arrived
  have split :
      items.filter kept =
        (items.take arrival).filter kept ++ (items.drop arrival).filter kept := by
    rw [← List.filter_append, List.take_append_drop]
  rw [split, List.countP_eq_length_filter,
    List.getElem?_append_right (Nat.le_refl _), Nat.sub_self,
    List.drop_eq_getElem_cons inside, List.filter_cons_of_pos isKept]
  rfl

/-- Behind an item that is kept there are more of them. -/
theorem countP_take_lt
    {arrival later : Nat}
    (arrived : items[arrival]? = some item)
    (isKept : kept item = true)
    (earlier : arrival < later) :
    (items.take arrival).countP kept < (items.take later).countP kept := by
  obtain ⟨inside, rfl⟩ := List.getElem?_eq_some_iff.mp arrived
  have oneMore :
      (items.take (arrival + 1)).countP kept =
        (items.take arrival).countP kept + 1 := by
    rw [List.take_succ_eq_append_getElem inside, List.countP_append,
      List.countP_singleton, if_pos isKept]
  have grows :
      (items.take (arrival + 1)).countP kept ≤ (items.take later).countP kept :=
    (List.take_sublist_take_left earlier).countP_le
  omega

/-- Whatever stands among the kept items arrived behind as many of them. -/
theorem exists_arrival
    {position : Nat}
    (stands : (items.filter kept)[position]? = some item) :
    ∃ arrival,
      items[arrival]? = some item ∧
        (items.take arrival).countP kept = position := by
  induction items generalizing position with
  | nil => cases stands
  | cons first rest inductionHypothesis =>
      cases isKept : kept first with
      | true =>
          rw [List.filter_cons_of_pos isKept] at stands
          cases position with
          | zero => exact ⟨0, stands, rfl⟩
          | succ position =>
              obtain ⟨arrival, arrived, counted⟩ := inductionHypothesis stands
              refine ⟨arrival + 1, arrived, ?_⟩
              rw [List.take_succ_cons, List.countP_cons_of_pos isKept, counted]
      | false =>
          have notKept : ¬ kept first = true := Bool.eq_false_iff.mp isKept
          rw [List.filter_cons_of_neg notKept] at stands
          obtain ⟨arrival, arrived, counted⟩ := inductionHypothesis stands
          refine ⟨arrival + 1, arrived, ?_⟩
          rw [List.take_succ_cons, List.countP_cons_of_neg notKept, counted]

end Arrivals

namespace Table

/-- The places of a table: the key of a bucket and a position in it. -/
def places (table : Table) : Set (Key × Nat) :=
  {place | place.2 < (table.bucket place.1).length}

/--
A map from arrivals to the places of a table, one to one, under which a place holds
the row that arrived and the rows of a bucket stand in order of arrival.
-/
structure Places (table : Table) (rows : List Row) (place : Nat → Key × Nat) :
    Prop where
  bijOn : Set.BijOn place {arrival | arrival < rows.length} table.places
  row_eq :
    ∀ arrival < rows.length,
      (table.bucket (place arrival).1)[(place arrival).2]? = rows[arrival]?
  ordered :
    ∀ first < rows.length, ∀ second < rows.length,
      (place first).1 = (place second).1 →
        (first < second ↔ (place first).2 < (place second).2)

/-- A table that groups given rows by what they hold in the key columns. -/
structure Groups (table : Table) (selected : KeyColumns) (rows : List Row) :
    Prop where
  bucket_eq :
    ∀ key, table.bucket key = rows.filter fun row => selected.Matches key row
  getElem?_eq_none_iff :
    ∀ key, table.buckets[key]? = none ↔ ∀ row ∈ rows, ¬ selected.Matches key row
  mem_toList_iff :
    ∀ key bucket,
      (key, bucket) ∈ table.toList ↔ bucket ≠ [] ∧ table.bucket key = bucket
  nodup_keys : (table.toList.map Prod.fst).Nodup
  exists_places : ∃ place, table.Places rows place
  length_toList : table.toList.length = table.keyCount
  keyCount_eq : table.keyCount = (rows.map selected.valuesIn).dedup.length

variable {keyOf : Row → Key} {rows : List Row} {row : Row} {key : Key}

/--
The place that an arrival comes to: the bucket of its key, behind the earlier rows
there.
-/
def placeOf (keyOf : Row → Key) (rows : List Row) (arrival : Nat) : Key × Nat :=
  let key := (rows[arrival]?.map keyOf).getD .empty
  (key, (rows.take arrival).countP fun row => keyOf row = key)

/-- The place of an arrival is behind the earlier rows with its key. -/
theorem placeOf_eq {arrival : Nat} (arrived : rows[arrival]? = some row) :
    placeOf keyOf rows arrival =
      (keyOf row,
        (rows.take arrival).countP fun other => keyOf other = keyOf row) := by
  simp only [placeOf, arrived, Option.map_some, Option.getD_some]

/-- A look-up finds each arrival at its place. -/
theorem getElem?_bucket_placeOf
    {arrival : Nat}
    (arrived : rows[arrival]? = some row) :
    ((ofRows keyOf rows).bucket (placeOf keyOf rows arrival).1)[
        (placeOf keyOf rows arrival).2]? =
      some row := by
  rw [placeOf_eq arrived, bucket_ofRows]
  exact getElem?_filter_of_arrival arrived (decide_eq_true rfl)

/-- A later row with the same key has a later place. -/
theorem placeOf_ordered
    {first second : Nat}
    {row other : Row}
    (firstArrived : rows[first]? = some row)
    (secondArrived : rows[second]? = some other)
    (sameKey : keyOf row = keyOf other)
    (earlier : first < second) :
    (placeOf keyOf rows first).2 < (placeOf keyOf rows second).2 := by
  rw [placeOf_eq firstArrived, placeOf_eq secondArrived, ← sameKey]
  exact countP_take_lt firstArrived (decide_eq_true rfl) earlier

/-- The places in a bucket are in order of arrival. -/
theorem placeOf_lt_iff
    {first second : Nat}
    {row other : Row}
    (firstArrived : rows[first]? = some row)
    (secondArrived : rows[second]? = some other)
    (sameKey : keyOf row = keyOf other) :
    first < second ↔
      (placeOf keyOf rows first).2 < (placeOf keyOf rows second).2 := by
  refine ⟨placeOf_ordered firstArrived secondArrived sameKey, fun before => ?_⟩
  rcases Nat.lt_trichotomy first second with earlier | same | later
  · exact earlier
  · rw [same] at before
    exact absurd before (Nat.lt_irrefl _)
  · have moved := placeOf_ordered secondArrived firstArrived sameKey.symm later
    exact absurd before (Nat.lt_asymm moved)

/-- Each arrival has its place in a table that was filled row by row. -/
theorem places_ofRows (keyOf : Row → Key) (rows : List Row) :
    (ofRows keyOf rows).Places rows (placeOf keyOf rows) := by
  have arrives : ∀ arrival < rows.length, ∃ row, rows[arrival]? = some row :=
    fun arrival inside =>
      ⟨rows.get ⟨arrival, inside⟩, List.getElem?_eq_getElem inside⟩
  have ordered :
      ∀ first < rows.length, ∀ second < rows.length,
        (placeOf keyOf rows first).1 = (placeOf keyOf rows second).1 →
          (first < second ↔
            (placeOf keyOf rows first).2 < (placeOf keyOf rows second).2) := by
    intro first firstInside second secondInside sameKey
    obtain ⟨row, firstArrived⟩ := arrives first firstInside
    obtain ⟨other, secondArrived⟩ := arrives second secondInside
    rw [placeOf_eq firstArrived, placeOf_eq secondArrived] at sameKey
    exact placeOf_lt_iff firstArrived secondArrived sameKey
  exact {
    bijOn := by
      refine ⟨?inside, ?apart, ?reached⟩
      case inside =>
        intro arrival inside
        obtain ⟨row, arrived⟩ := arrives arrival inside
        exact (List.getElem?_eq_some_iff.mp (getElem?_bucket_placeOf arrived)).1
      case apart =>
        intro first firstInside second secondInside samePlace
        have sameKey := congrArg Prod.fst samePlace
        have samePosition := congrArg Prod.snd samePlace
        have notEarlier := ordered first firstInside second secondInside sameKey
        have notLater := ordered second secondInside first firstInside sameKey.symm
        omega
      case reached =>
        rintro ⟨key, position⟩ inside
        obtain ⟨row, stands⟩ :
            ∃ row, ((ofRows keyOf rows).bucket key)[position]? = some row :=
          ⟨_, List.getElem?_eq_getElem inside⟩
        rw [bucket_ofRows] at stands
        obtain ⟨arrival, arrived, counted⟩ := exists_arrival stands
        have hasKey : keyOf row = key :=
          of_decide_eq_true (List.mem_filter.mp (List.mem_of_getElem? stands)).2
        refine ⟨arrival, (List.getElem?_eq_some_iff.mp arrived).1, ?_⟩
        rw [placeOf_eq arrived, hasKey, counted]
    row_eq := by
      intro arrival inside
      obtain ⟨row, arrived⟩ := arrives arrival inside
      rw [getElem?_bucket_placeOf arrived, arrived]
    ordered := ordered
  }

/--
A table that was filled row by row groups the rows, if these have all key columns.
-/
theorem groups_ofRows
    {selected : KeyColumns}
    (present :
      ∀ row ∈ rows, ∀ column ∈ selected.columns, row[column]?.isSome = true) :
    (ofRows selected.key rows).Groups selected rows where
  bucket_eq key := by
    rw [bucket_ofRows]
    apply List.filter_congr
    intro row member
    rw [decide_eq_decide, KeyColumns.matches_iff (present row member)]
  getElem?_eq_none_iff key := by
    have found :
        (ofRows selected.key rows).buckets[key]?.isSome =
          rows.any fun row => selected.key row = key := by
      rw [← Std.TreeMap.contains_eq_isSome_getElem?]
      exact contains_ofRows rows key
    rw [← Option.isNone_iff_eq_none, ← Option.isSome_eq_false_iff, found,
      List.any_eq_false]
    apply forall₂_congr
    intro row member
    rw [decide_eq_true_iff, KeyColumns.matches_iff (present row member)]
  mem_toList_iff key bucket := by
    constructor
    · intro listed
      exact ⟨ne_nil_of_mem_toList_ofRows listed, bucket_of_mem_toList listed⟩
    · rintro ⟨nonempty, rfl⟩
      have inside : 0 < ((ofRows selected.key rows).bucket key).length :=
        List.length_pos_of_ne_nil nonempty
      obtain ⟨entry, listed, rfl⟩ :=
        List.mem_map.mp (mem_keys_toList.mpr (contains_of_lt_length_bucket inside))
      rwa [bucket_of_mem_toList listed]
  nodup_keys := nodup_keys_toList _
  exists_places := ⟨placeOf selected.key rows, places_ofRows selected.key rows⟩
  length_toList := by simp [toList, keyCount]
  keyCount_eq := by
    have readAlike :
        rows.map selected.valuesIn =
          (rows.map selected.key).map fun key => key.values.map some := by
      rw [List.map_map]
      exact
        List.map_congr_left fun row member =>
          KeyColumns.valuesIn_eq (present row member)
    have injective : Function.Injective fun key : Key => key.values.map some := by
      intro first second same
      exact
        congrArg Key.mk ((List.map_inj_right fun _ _ => Option.some.inj).mp same)
    rw [keyCount_ofRows, readAlike, List.dedup_map_of_injective injective,
      List.length_map]

end Table

end StreamJoin
