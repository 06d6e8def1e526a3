import Mathlib.Algebra.Ring.Nat
import StreamJoin.Proofs.NestedLoop

namespace StreamJoin

/-!
# Marks inside their buckets

A probe marks positions while it walks along a bucket, and keeps the marks that it
made in front of a predicate that fails.  Nothing is assumed here about the outcome
of a probe: each position that it marks is one of the bucket that it looked up.

A table of rows that arrived one after another has no empty bucket, and its buckets
together are as long as the list of these rows.
-/

namespace JoinPlan

variable {plan : JoinPlan} {left : Row} {key : Key} {hit : Key × Nat}

/-- The walk along a bucket marks positions that it has passed. -/
theorem hit_inside_pairWith
    {position : Nat}
    {bucket : List Row}
    (found : hit ∈ (plan.pairWith left key position bucket).hits) :
    hit.1 = key ∧ hit.2 < position + bucket.length := by
  induction bucket generalizing position with
  | nil => cases found
  | cons right rest inductionHypothesis =>
      rw [List.length_cons]
      rcases evaluated : plan.residuals.accepts (pair left right) with fault | _ | _
      · rw [pairWith_of_error evaluated] at found
        cases found
      · rw [pairWith_of_rejected evaluated] at found
        obtain ⟨sameKey, passed⟩ := inductionHypothesis found
        exact ⟨sameKey, by omega⟩
      · rw [pairWith_of_accepted evaluated] at found
        rcases List.mem_cons.mp found with rfl | later
        · exact ⟨rfl, by simp only; omega⟩
        · obtain ⟨sameKey, passed⟩ := inductionHypothesis later
          exact ⟨sameKey, by omega⟩

/-- Padding a left row marks nothing. -/
theorem mem_hits_of_padUnpaired
    {paired : Probe}
    (found : hit ∈ (plan.padUnpaired left paired).hits) :
    hit ∈ paired.hits := by
  unfold padUnpaired at found
  split at found
  · exact found
  · split at found
    · cases found
    · exact found

variable {table : Table}

/-- A left row hits positions inside the buckets. -/
theorem hit_inside_probeRow (found : hit ∈ (plan.probeRow table left).hits) :
    hit.2 < (table.bucket hit.1).length := by
  unfold probeRow at found
  split at found
  · cases found
  · obtain ⟨sameKey, inside⟩ := hit_inside_pairWith (mem_hits_of_padUnpaired found)
    rw [sameKey]
    omega

/--
Each position that a probe marks is one of its bucket, also if the probe fails.
-/
theorem hit_inside_probeRows
    {lefts : List Row}
    (found : hit ∈ (plan.probeRows table lefts).hits) :
    hit.2 < (table.bucket hit.1).length := by
  induction lefts with
  | nil => cases found
  | cons left rest inductionHypothesis =>
      simp only [probeRows, Probe.append] at found
      split at found
      · exact hit_inside_probeRow found
      · rcases List.mem_append.mp found with first | later
        · exact hit_inside_probeRow first
        · exact inductionHypothesis later

end JoinPlan

namespace Table

/-- How many rows the buckets of a table hold together. -/
def rowCount (table : Table) : Nat :=
  (table.toList.map fun entry => entry.2.length).sum

/-- A bucket with a position in it belongs to a key of the table. -/
theorem contains_of_lt_length_bucket
    {table : Table}
    {key : Key}
    {position : Nat}
    (inside : position < (table.bucket key).length) :
    table.contains key = true := by
  rw [contains, Std.TreeMap.contains_eq_isSome_getElem?]
  unfold bucket at inside
  cases found : table.buckets[key]? with
  | none => simp [found] at inside
  | some rows => rfl

variable {keyOf : Row → Key} {rows : List Row}

/-- The buckets of a table hold each row that arrived once. -/
theorem rowCount_ofRows : (ofRows keyOf rows).rowCount = rows.length := by
  have everyRow :
      (((BucketOrder.byKey.arrange (ofRows keyOf rows).toList).flatMap fun entry =>
          entry.2.filter fun _ => true).Perm
        (rows.filter fun _ => true)) :=
    flatMap_arrange_ofRows_perm .byKey rows fun _ => true
  simpa [rowCount, BucketOrder.byKey, List.length_flatMap] using everyRow.length_eq

/-- A bucket is there only for the rows in it. -/
theorem ne_nil_of_mem_toList_ofRows
    {entry : Key × List Row}
    (listed : entry ∈ (ofRows keyOf rows).toList) :
    entry.2 ≠ [] := by
  have present : (ofRows keyOf rows).contains entry.1 = true :=
    mem_keys_toList.mp (List.mem_map_of_mem listed)
  rw [contains_ofRows, List.any_eq_true] at present
  obtain ⟨row, arrived, sameKey⟩ := present
  rw [← bucket_of_mem_toList listed, bucket_ofRows]
  exact List.ne_nil_of_mem (List.mem_filter.mpr ⟨arrived, sameKey⟩)

end Table

namespace Marks

/--
Each key with marks is a key of the table, and its marks are some positions of its
bucket.
-/
def Inside (marks : Marks) (table : Table) : Prop :=
  ∀ (key : Key) (places : Std.TreeSet Nat), marks.positions[key]? = some places →
    table.contains key = true ∧
      (∃ position, places.contains position = true) ∧
      ∀ position,
        places.contains position = true → position < (table.bucket key).length

/-- No mark is inside any table. -/
theorem inside_empty (table : Table) : empty.Inside table := by
  intro key places found
  simp [empty] at found

variable {marks : Marks} {table : Table}

/-- A mark at a position of a bucket stays inside the table. -/
theorem Inside.mark
    {key : Key}
    {position : Nat}
    (inside : marks.Inside table)
    (inBucket : position < (table.bucket key).length) :
    (marks.mark key position).Inside table := by
  intro other places found
  simp only [Marks.mark, Std.TreeMap.getElem?_alter] at found
  by_cases sameKey : compare key other = .eq
  · obtain rfl : key = other := Std.LawfulEqOrd.eq_of_compare sameKey
    rw [if_pos sameKey] at found
    obtain rfl := Option.some.inj found
    refine ⟨Table.contains_of_lt_length_bucket inBucket,
      ⟨position, Std.TreeSet.contains_insert_self⟩, ?_⟩
    intro place marked
    rw [Std.TreeSet.contains_insert, Bool.or_eq_true] at marked
    rcases marked with here | before
    · have samePlace : position = place :=
        Std.LawfulEqOrd.eq_of_compare (beq_iff_eq.mp here)
      exact samePlace ▸ inBucket
    · cases earlier : marks.positions[key]? with
      | none => simp [earlier] at before
      | some placed =>
          rw [earlier] at before
          exact (inside key placed earlier).2.2 place before
  · rw [if_neg sameKey] at found
    exact inside other places found

/-- Marks at positions of buckets stay inside the table. -/
theorem Inside.markAll
    {hits : List (Key × Nat)}
    (inside : marks.Inside table)
    (inBuckets : ∀ hit ∈ hits, hit.2 < (table.bucket hit.1).length) :
    (marks.markAll hits).Inside table := by
  induction hits generalizing marks with
  | nil => exact inside
  | cons hit rest inductionHypothesis =>
      exact
        inductionHypothesis (inside.mark (inBuckets hit List.mem_cons_self))
          fun later member => inBuckets later (List.mem_cons_of_mem _ member)

/-- Rows that arrive later leave the marks where they are. -/
theorem Inside.insertAll
    {keyOf : Row → Key}
    {rows : List Row}
    (inside : marks.Inside table) :
    marks.Inside (table.insertAll keyOf rows) := by
  intro key places found
  obtain ⟨present, marked, inBucket⟩ := inside key places found
  refine ⟨?_, marked, ?_⟩
  · rw [Table.contains_insertAll, present, Bool.true_or]
  · intro position place
    rw [Table.bucket_insertAll, List.length_append]
    exact Nat.lt_add_right _ (inBucket position place)

end Marks

end StreamJoin
