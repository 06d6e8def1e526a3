import Mathlib.Data.List.Nodup
import StreamJoin.Proofs.JoinLifecycle
import StreamJoin.Proofs.RecordedRuns

namespace StreamJoin

/-!
# The marks are the pairs

A join that sweeps the right side at its end remembers by marks which right rows
were paired.  The marks stand at the positions of exactly those rows, for every
sequence of left blocks that it has probed, and they are only ever added to.  So the
sweep, which passes over a bucket with as many marks as rows without looking at it,
hands out each unpaired row once and no other one.

A right row is named by its place, the key of its bucket and its position there.
Equal rows of one bucket have different places, and it is places that are counted.
-/

namespace Marks

/-- The marked places, bucket by bucket. -/
def places (marks : Marks) : List (Key × Nat) :=
  marks.positions.toList.flatMap fun entry =>
    entry.2.toList.map fun position => (entry.1, position)

/-- A place is marked exactly if its position is marked in its bucket. -/
theorem mem_places {marks : Marks} {place : Key × Nat} :
    place ∈ marks.places ↔ (marks.marked place.1).contains place.2 = true := by
  obtain ⟨key, position⟩ := place
  simp only [places, List.mem_flatMap, List.mem_map, Prod.mk.injEq]
  constructor
  · rintro ⟨⟨other, marked⟩, listed, place, member, rfl, rfl⟩
    have found : marks.positions[other]? = some marked :=
      Std.TreeMap.mem_toList_iff_getElem?_eq_some.mp listed
    rw [Marks.marked, found]
    exact Std.TreeSet.contains_iff_mem.mpr (Std.TreeSet.mem_toList.mp member)
  · intro isMarked
    unfold Marks.marked at isMarked
    cases found : marks.positions[key]? with
    | none => simp [found] at isMarked
    | some marked =>
        simp only [found, Option.getD_some] at isMarked
        exact
          ⟨(key, marked), Std.TreeMap.mem_toList_iff_getElem?_eq_some.mpr found,
            position,
            Std.TreeSet.mem_toList.mpr (Std.TreeSet.contains_iff_mem.mp isMarked),
            rfl, rfl⟩

/-- No place is marked twice. -/
theorem nodup_places (marks : Marks) : marks.places.Nodup := by
  rw [places, List.nodup_flatMap]
  constructor
  · intro entry _
    have distinct : entry.2.toList.Nodup := by
      rw [List.nodup_iff_pairwise_ne]
      refine Std.TreeSet.distinct_toList.imp ?_
      intro first second differ same
      exact differ (same ▸ Std.ReflCmp.compare_self)
    exact distinct.map fun first second same => congrArg Prod.snd same
  · refine (Std.TreeMap.distinct_keys_toList (t := marks.positions)).imp ?_
    intro first second differ place inFirst inSecond
    obtain ⟨_, _, rfl⟩ := List.mem_map.mp inFirst
    obtain ⟨_, _, same⟩ := List.mem_map.mp inSecond
    have sameKey : second.1 = first.1 := (Prod.mk.inj same).1
    exact differ (sameKey ▸ Std.ReflCmp.compare_self)

end Marks

namespace Table

/-- The rows of a bucket with their places. -/
def placedIn (key : Key) (bucket : List Row) : List ((Key × Nat) × Row) :=
  bucket.zipIdx.map fun item => ((key, item.2), item.1)

/--
The rows of a table with their places, in the order in which a sweep visits them.
-/
def placed (table : Table) (order : BucketOrder) : List ((Key × Nat) × Row) :=
  (order.arrange table.toList).flatMap fun entry => placedIn entry.1 entry.2

variable {table : Table} {key : Key} {bucket rows : List Row} {keyOf : Row → Key}

/-- A row is placed in a bucket exactly where it stands there. -/
theorem mem_placedIn {placed : (Key × Nat) × Row} :
    placed ∈ placedIn key bucket ↔
      placed.1.1 = key ∧ bucket[placed.1.2]? = some placed.2 := by
  obtain ⟨⟨other, position⟩, row⟩ := placed
  simp only [placedIn, List.mem_map, Prod.mk.injEq, Prod.exists,
    List.mem_zipIdx_iff_getElem?]
  constructor
  · rintro ⟨_, _, stored, ⟨rfl, rfl⟩, rfl⟩
    exact ⟨rfl, stored⟩
  · rintro ⟨rfl, stored⟩
    exact ⟨row, position, stored, ⟨rfl, rfl⟩, rfl⟩

/-- A place is listed with the row that a look-up of its key finds there. -/
theorem mem_placed (order : BucketOrder) {placed : (Key × Nat) × Row} :
    placed ∈ table.placed order ↔
      (table.bucket placed.1.1)[placed.1.2]? = some placed.2 := by
  obtain ⟨⟨key, position⟩, row⟩ := placed
  simp only [Table.placed, List.mem_flatMap, mem_placedIn,
    (order.perm_arrange _).mem_iff]
  constructor
  · rintro ⟨entry, listed, rfl, stored⟩
    rwa [bucket_of_mem_toList listed]
  · intro stored
    have inside : position < (table.bucket key).length :=
      (List.getElem?_eq_some_iff.mp stored).1
    obtain ⟨entry, listed, rfl⟩ :=
      List.mem_map.mp (mem_keys_toList.mpr (contains_of_lt_length_bucket inside))
    exact ⟨entry, listed, rfl, bucket_of_mem_toList listed ▸ stored⟩

/-- The places of a bucket are its positions, in order. -/
theorem map_fst_placedIn :
    (placedIn key bucket).map Prod.fst =
      (List.range bucket.length).map fun position => (key, position) := by
  rw [List.range_eq_range', ← List.zipIdx_map_snd 0 bucket, placedIn, List.map_map,
    List.map_map]
  rfl

/-- The rows that are placed in a bucket are its rows, in order. -/
theorem map_snd_placedIn : (placedIn key bucket).map Prod.snd = bucket := by
  rw [placedIn, List.map_map]
  exact List.zipIdx_map_fst 0 bucket

/-- No place is listed twice. -/
theorem nodup_placed (table : Table) (order : BucketOrder) :
    ((table.placed order).map Prod.fst).Nodup := by
  have distinct : ((order.arrange table.toList).map Prod.fst).Nodup :=
    ((order.perm_arrange _).map Prod.fst).nodup_iff.mpr (nodup_keys_toList table)
  rw [Table.placed, List.map_flatMap, List.nodup_flatMap]
  constructor
  · intro entry _
    rw [map_fst_placedIn]
    exact List.nodup_range.map fun first second same => congrArg Prod.snd same
  · rw [List.nodup_iff_pairwise_ne, List.pairwise_map] at distinct
    refine distinct.imp ?_
    intro first second differ place inFirst inSecond
    simp only [map_fst_placedIn, List.mem_map] at inFirst inSecond
    obtain ⟨_, _, rfl⟩ := inFirst
    obtain ⟨_, _, same⟩ := inSecond
    exact differ (congrArg Prod.fst same).symm

/-- The listed rows are those that arrived, in some order. -/
theorem placed_ofRows_perm (order : BucketOrder) :
    (((ofRows keyOf rows).placed order).map Prod.snd).Perm rows := by
  have everyRow :
      ((order.arrange (ofRows keyOf rows).toList).flatMap fun entry =>
          entry.2.filter fun _ => true).Perm
        (rows.filter fun _ => true) :=
    flatMap_arrange_ofRows_perm order rows fun _ => true
  simpa only [Table.placed, List.map_flatMap, map_snd_placedIn,
    List.filter_true] using everyRow

end Table

namespace Marks.Record

variable {marks : Marks} {table : Table} {paired : Row → Bool}

/-- The sweep of one bucket hands out its unpaired rows, place by place. -/
theorem map_placedIn (kept : Row → Bool) (key : Key) (bucket : List Row) :
    ((Table.placedIn key bucket).filter fun placed => kept placed.2).map Prod.snd =
      bucket.filter kept := by
  have sameTest :
      (fun placed : (Key × Nat) × Row => kept placed.2) = kept ∘ Prod.snd := rfl
  rw [sameTest, ← List.filter_map, Table.map_snd_placedIn]

/--
Passing over the buckets with as many marks as rows, the sweep hands out the row of
each place that is not paired, once, and no other row.
-/
theorem unmarked_eq
    (record : marks.Record table paired)
    (order : BucketOrder) :
    table.unmarked order marks =
      ((table.placed order).filter fun placed => !paired placed.2).map
        Prod.snd := by
  rw [Table.unmarked, Table.placed, List.filter_flatMap, List.map_flatMap]
  apply List.flatMap_congr
  intro entry arranged
  have listed : entry ∈ table.toList := (order.perm_arrange _).mem_iff.mp arranged
  rw [map_placedIn (fun row => !paired row), ← Table.bucket_of_mem_toList listed]
  exact Table.unmarked_bucket record entry.1

/-- The marked places are the places of the paired rows. -/
theorem places_perm
    (record : marks.Record table paired)
    (order : BucketOrder) :
    marks.places.Perm
      (((table.placed order).filter fun placed => paired placed.2).map
        Prod.fst) := by
  have distinct :
      (((table.placed order).filter fun placed => paired placed.2).map
        Prod.fst).Nodup :=
    (List.filter_sublist.map Prod.fst).nodup (table.nodup_placed order)
  rw [List.perm_ext_iff_of_nodup marks.nodup_places distinct]
  intro place
  rw [mem_places, record place.1 place.2]
  simp only [List.mem_map, List.mem_filter, Table.mem_placed]
  constructor
  · rintro ⟨row, stored, isPaired⟩
    exact ⟨(place, row), ⟨stored, isPaired⟩, rfl⟩
  · rintro ⟨placed, ⟨stored, isPaired⟩, rfl⟩
    exact ⟨placed.2, stored, isPaired⟩

/-- Marks and rows of the sweep together are as many as the rows of the table. -/
theorem length_places_add_length_unmarked
    (record : marks.Record table paired)
    (order : BucketOrder) :
    marks.places.length + (table.unmarked order marks).length =
      (table.placed order).length := by
  rw [(record.places_perm order).length_eq, record.unmarked_eq order,
    List.length_map, List.length_map]
  have split :=
    List.filter_append_perm (fun placed : (Key × Nat) × Row => paired placed.2)
      (table.placed order)
  rw [← split.length_eq, List.length_append]

end Marks.Record

namespace JoinState

variable {state : JoinState} {key : Key} {position : Nat} {rights lefts : List Row}

/-- Whether a join has marked a position of a bucket. -/
def isMarked (state : JoinState) (key : Key) (position : Nat) : Bool :=
  ((state.marks?.getD .empty).marked key).contains position

/-- The places that a join has marked. -/
def pairedPlaces (state : JoinState) : List (Key × Nat) :=
  (state.marks?.getD .empty).places

/-- The right rows that a join holds, with their places. -/
def placedRights (state : JoinState) : List ((Key × Nat) × Row) :=
  state.table.placed state.plan.bucketOrder

/--
A join whose marks are the pairs of given left rows with the right rows in its
table, and whose sweep hands out the right rows without a pair.
-/
structure MarksPairs (state : JoinState) (rights lefts : List Row) : Prop where
  isMarked_iff :
    ∀ key position,
      state.isMarked key position = true ↔
        ∃ right, (state.table.bucket key)[position]? = some right ∧
          ∃ left ∈ lefts, state.plan.leftKeys.key left = key ∧
            state.plan.residuals.accepts (JoinPlan.pair left right) = .ok true
  mem_placedRights :
    ∀ placed, placed ∈ state.placedRights ↔
      (state.table.bucket placed.1.1)[placed.1.2]? = some placed.2
  nodup_placedRights : (state.placedRights.map Prod.fst).Nodup
  placedRights_perm : (state.placedRights.map Prod.snd).Perm rights
  unmatchedRows_eq :
    state.unmatchedRows =
      (state.placedRights.filter fun placed =>
          !state.isMarked placed.1.1 placed.1.2).map
        fun placed => state.plan.padLeft placed.2
  tableRows_eq :
    state.pairedPlaces.length + state.unmatchedRows.length = state.tableRows

/-- Two rows pair exactly if their keys are equal and the predicates accept them. -/
theorem pairs_eq_true_iff {plan : JoinPlan} {left right : Row} :
    plan.pairs left right = true ↔
      plan.rightKeys.key right = plan.leftKeys.key left ∧
        plan.residuals.accepts (JoinPlan.pair left right) = .ok true := by
  simp only [JoinPlan.pairs, JoinPlan.sameKey, JoinPlan.survives, Bool.and_eq_true,
    decide_eq_true_eq]
  rcases evaluated : plan.residuals.accepts (JoinPlan.pair left right) with
    fault | _ | _ <;>
      simp

/-- What a join holds says which right rows its marks stand for. -/
theorem Holds.record
    {phase : Phase}
    (holds : state.Holds state.plan phase rights lefts)
    (sweeps : state.kind.sweepsRight = true) :
    (state.marks?.getD .empty).Record state.table fun right =>
      lefts.any fun left => state.plan.pairs left right := by
  have allocated : state.marks? = some (state.plan.marksOf rights lefts) :=
    holds.marks_eq.trans (if_pos sweeps)
  rw [allocated, holds.table_eq]
  exact
    JoinPlan.record_marksOf (JoinKind.presence?_of_sweepsRight sweeps) holds.sound

/-- A row that is stored in a bucket has the key of the bucket. -/
theorem Holds.key_of_stored
    {phase : Phase}
    {right : Row}
    (holds : state.Holds state.plan phase rights lefts)
    (stored : (state.table.bucket key)[position]? = some right) :
    state.plan.rightKeys.key right = key := by
  rw [holds.table_eq, JoinPlan.tableOf, Table.bucket_ofRows] at stored
  simpa using (List.mem_filter.mp (List.mem_of_getElem? stored)).2

/-- A join that holds right and left rows has marked the right rows that pair. -/
theorem Holds.marksPairs
    {phase : Phase}
    (holds : state.Holds state.plan phase rights lefts)
    (sweeps : state.kind.sweepsRight = true) :
    state.MarksPairs rights lefts := by
  have record := holds.record sweeps
  have arrived : (state.placedRights.map Prod.snd).Perm rights := by
    rw [placedRights, holds.table_eq]
    exact Table.placed_ofRows_perm state.plan.bucketOrder
  exact {
    isMarked_iff := fun key position => by
      rw [isMarked, record key position]
      apply exists_congr
      intro right
      apply and_congr_right
      intro stored
      simp only [List.any_eq_true, pairs_eq_true_iff, holds.key_of_stored stored,
        eq_comm (a := key)]
    mem_placedRights := fun placed => Table.mem_placed state.plan.bucketOrder
    nodup_placedRights := Table.nodup_placed state.table state.plan.bucketOrder
    placedRights_perm := arrived
    unmatchedRows_eq := by
      have sameTest :
          (state.placedRights.filter fun placed =>
              !lefts.any fun left => state.plan.pairs left placed.2) =
            state.placedRights.filter fun placed =>
              !state.isMarked placed.1.1 placed.1.2 := by
        apply List.filter_congr
        intro placed listed
        rw [isMarked,
          record.contains_eq ((Table.mem_placed state.plan.bucketOrder).mp listed)]
      rw [unmatchedRows, record.unmarked_eq, List.map_map, ← sameTest]
      rfl
    tableRows_eq := by
      have counted :=
        record.length_places_add_length_unmarked state.plan.bucketOrder
      rw [pairedPlaces, unmatchedRows, List.length_map, counted, holds.tableRows_eq,
        ← arrived.length_eq, List.length_map]
      rfl
  }

/-- Everything that one state has marked another one has marked too. -/
def KeepsMarks (first later : JoinState) : Prop :=
  ∀ key position,
    first.isMarked key position = true → later.isMarked key position = true

namespace KeepsMarks

variable {first second third : JoinState} {block : Block}

/-- Equal marks are kept. -/
theorem of_eq (same : second.marks? = first.marks?) : first.KeepsMarks second := by
  intro key position marked
  rwa [isMarked, same]

/-- Marks that are kept twice are kept. -/
theorem trans
    (earlier : first.KeepsMarks second)
    (later : second.KeepsMarks third) :
    first.KeepsMarks third :=
  fun key position marked => later key position (earlier key position marked)

/-- Marking more keeps what was marked. -/
theorem markHits (state : JoinState) (hits : List (Key × Nat)) :
    state.KeepsMarks (state.markHits hits) := by
  intro key position marked
  unfold isMarked JoinState.markHits at *
  cases allocated : state.marks? with
  | none => simp [allocated, Marks.contains_marked_empty] at marked
  | some marks =>
      rw [allocated] at marked
      exact
        (JoinPlan.contains_marked_markAll marks hits key position).mpr (.inr marked)

/-- A right block keeps all marks. -/
theorem receiveRight (state : JoinState) (block : Block) :
    state.KeepsMarks (state.beginBuild.receiveRight block).state := by
  cases block with
  | data batch =>
      simp only [JoinState.receiveRight]
      split
      · exact .of_eq rfl
      · next accepted =>
          obtain ⟨_, rfl⟩ := eq_of_store accepted
          exact .of_eq rfl
  | _ => exact .of_eq rfl

/-- A left block keeps all marks. -/
theorem receiveLeft (state : JoinState) (block : Block) :
    state.KeepsMarks (state.receiveLeft block).state := by
  cases block with
  | idle => exact .of_eq rfl
  | failed cause => exact .of_eq rfl
  | ended =>
      simp only [JoinState.receiveLeft, finishProbe]
      split <;> exact .of_eq rfl
  | data batch =>
      simp only [JoinState.receiveLeft, probe]
      split
      · exact .of_eq rfl
      · split
        · exact .trans (.markHits state _) (.of_eq rfl)
        · exact .trans (.markHits state _) (.of_eq rfl)

end KeepsMarks

end JoinState

namespace BroadcastJoin

variable {Left Right : Type} [Operator Left]
variable {join : BroadcastJoin Left Right}

/-- The answer of a pull that ends a join is its sweep. -/
def EndsInSweep (pulled : Pull (BroadcastJoin Left Right)) : Prop :=
  pulled.next.state.phase = .done →
    pulled.block =
        .ofRows pulled.next.state.unmatchedRows
          pulled.next.state.plan.resultSchema ∧
      pulled.next.state.stats.unmatchedRightRows =
        pulled.next.state.unmatchedRows.length

/-- If taking a left block ends a join, its answer is the sweep. -/
theorem endsInSweep_pullLeft
    (probing : join.state.phase = .probing)
    (sweeps : join.state.kind.sweepsRight = true) :
    EndsInSweep join.pullLeft := by
  unfold EndsInSweep
  rw [pullLeft_eq_receive]
  simp only
  cases (Operator.pull join.left).block with
  | idle =>
      intro done
      cases probing.symm.trans done
  | failed cause =>
      intro done
      cases done
  | ended =>
      have swept :
          join.state.receiveLeft .ended =
            JoinState.sweep { join.state with phase := .sweeping } := by
        simp only [JoinState.receiveLeft, JoinState.finishProbe, sweeps, if_true]
      rw [swept]
      exact fun _ => ⟨rfl, rfl⟩
  | data batch =>
      simp only [JoinState.receiveLeft, JoinState.probe]
      split
      · intro done
        cases done
      · split
        · intro done
          cases done
        · intro done
          cases probing.symm.trans done

variable [Drainable Right]

/-- If a pull ends a join, its answer is the sweep. -/
theorem endsInSweep_pull
    (sweeps : join.state.kind.sweepsRight = true)
    (notDone : join.state.phase ≠ .done) :
    EndsInSweep (Operator.pull join) := by
  cases active : join.state.isActive with
  | false =>
      intro done
      have unchanged : (Operator.pull join).next = join :=
        (pull_of_inactive active).2
      rw [unchanged] at done
      exact absurd done notDone
  | true =>
      have pulled : Operator.pull join = join.framed join.advance :=
        pull_of_isActive active
      have ends : EndsInSweep join.advance := by
        revert sweeps
        apply advance_induction
          (motive := fun join pulled =>
            join.state.kind.sweepsRight = true → EndsInSweep pulled)
          _ _ _ active
        · exact fun join _ probing sweeps => endsInSweep_pullLeft probing sweeps
        · intro join answered _ _ answers _ done
          have building : join.state.beginBuild.phase = .building := rfl
          rcases JoinState.receiveRight_cases building with
              ⟨goesOn | turned, _⟩ | ⟨cause, failed, _⟩
          · cases goesOn.symm.trans done
          · cases turned.symm.trans done
          · cases failed.symm.trans done
        · intro join _ _ _ later sweeps
          have samePlan : join.behindRight.state.plan = join.state.plan :=
            JoinState.plan_receiveRight
          exact
            later
              ((congrArg (fun plan => plan.kind.sweepsRight) samePlan).trans sweeps)
      rw [pulled]
      exact ends

/-- As long as a join is not closed, no request takes a mark away. -/
theorem keepsMarks_afterCalls
    {calls : List Call}
    (opened : (Operator.afterCalls join calls).state.closed = false) :
    join.state.KeepsMarks (Operator.afterCalls join calls).state := by
  induction calls generalizing join with
  | nil => exact .of_eq rfl
  | cons call rest inductionHypothesis =>
      refine .trans ?_ (inductionHypothesis opened)
      cases call with
      | pull =>
          exact
            related_pull (fun _ => .of_eq rfl) .trans .receiveRight .receiveLeft
              join
      | close =>
          have closed : (Operator.next join .close).state.closed = true :=
            closed_close join
          rw [Operator.afterCalls, closed_afterCalls closed] at opened
          cases opened

/--
Whatever is asked of an accepted join that sweeps its right side: behind the end of
its right input, as long as it is open and did not fail, its marks are the pairs of
the left rows that it probed, and its sweep would hand out each right row without a
pair once and no other one; marks are only added; and the pull that ends the join
hands out these rows.
-/
theorem marks_record_pairs
    {left : Left}
    {right : Right}
    {spec : JoinSpec}
    {options : JoinOptions}
    {order : BucketOrder}
    (accepted : ofSpec left right spec options order = .ok join)
    (sweeps : join.state.kind = .right ∨ join.state.kind = .full)
    (calls later : List Call) :
    let reached := Operator.afterCalls join calls
    let run := join.recordAfter calls
    run.state = reached.state ∧
      (reached.state.closed = false →
        reached.state.phase = .probing ∨ reached.state.phase = .done →
          reached.state.MarksPairs (rowsOf run.rights) (rowsOf run.lefts)) ∧
      ((Operator.afterCalls reached later).state.closed = false →
        reached.state.KeepsMarks (Operator.afterCalls reached later).state) ∧
      (reached.state.phase ≠ .done → EndsInSweep (Operator.pull reached)) := by
  intro reached run
  have sameState : run.state = reached.state := state_recordAfter join calls
  have samePlan : reached.state.plan = join.state.plan := plan_afterCalls join calls
  have reachedSweeps : reached.state.kind.sweepsRight = true := by
    rw [JoinState.kind, samePlan, ← JoinState.kind]
    rcases sweeps with isRight | isFull
    · rw [isRight]
      rfl
    · rw [isFull]
      rfl
  refine ⟨sameState, ?_, keepsMarks_afterCalls, endsInSweep_pull reachedSweeps⟩
  intro opened position
  have course : run.Course := course_recordAfter accepted calls
  rw [← sameState] at opened position reachedSweeps ⊢
  generalize run = record at course opened position reachedSweeps
  cases course with
  | building beforeProbing =>
      rcases position with probing | done
      · cases probing ▸ beforeProbing
      · cases done ▸ beforeProbing
  | refused failed =>
      rcases position with probing | done
      · cases failed.symm.trans probing
      · cases failed.symm.trans done
  | @streaming state stored lefts _ _ _ holds =>
      have noFailure : state.phase.cause? = none := by
        rcases position with probing | done
        · exact congrArg Phase.cause? probing
        · exact congrArg Phase.cause? done
      have endedAdds : rowsOf (stored ++ [.ended]) = rowsOf stored := by
        rw [rowsOf_append]
        exact List.append_nil _
      rw [endedAdds]
      exact (holds opened noFailure).marksPairs reachedSweeps

/-- A key with a number. -/
def markedSchema : Schema := ⟨[⟨"key", .int⟩, ⟨"number", .int⟩]⟩

/-- A join that sweeps, with a predicate behind the keys. -/
def markedSpec : JoinSpec :=
  { JoinSpec.equiJoin .right markedSchema markedSchema ⟨[0]⟩ ⟨[0]⟩ with
    residuals := ⟨[(Comparison.columns 1 .below 3).toPredicate]⟩ }

/--
Three right rows with one key, two of them equal, and a predicate that holds of
these two.
-/
def markedJoin : BroadcastJoin Replay Replay :=
  ⟨.ofPlan ((JoinPlan.ofSpec markedSpec .default).toOption.get rfl),
    .ofBatches markedSchema [[[.int 1, .int 5]], [[.int 2, .int 5]]],
    .ofBatches markedSchema
      [[[.int 1, .int 7], [.int 1, .int 3]], [[.int 1, .int 7]]]⟩

/-- Both equal rows are marked, and the sweep hands out the third one. -/
theorem marks_record_pairs_sample :
    let reached := Operator.afterCalls markedJoin [.pull]
    let ended := Operator.afterCalls reached [.pull, .pull]
    reached.state.pairedPlaces = [(⟨[.int 1]⟩, 0), (⟨[.int 1]⟩, 2)] ∧
      reached.state.MarksPairs
        [[.int 1, .int 7], [.int 1, .int 3], [.int 1, .int 7]] [[.int 1, .int 5]] ∧
      reached.state.KeepsMarks ended.state ∧
      ended.state.phase = .done ∧
      ended.state.MarksPairs
        [[.int 1, .int 7], [.int 1, .int 3], [.int 1, .int 7]]
        [[.int 1, .int 5], [.int 2, .int 5]] ∧
      ended.state.unmatchedRows = [[.null, .null, .int 1, .int 3]] ∧
      (Operator.pull (Operator.afterCalls reached [.pull])).block =
        .ofRows ended.state.unmatchedRows ended.state.plan.resultSchema := by
  have accepted :
      ofSpec markedJoin.left markedJoin.right markedSpec .default =
        .ok markedJoin := rfl
  have first := marks_record_pairs accepted (.inl rfl) [.pull] [.pull, .pull]
  have second := marks_record_pairs accepted (.inl rfl) [.pull, .pull] []
  have third := marks_record_pairs accepted (.inl rfl) [.pull, .pull, .pull] []
  exact
    ⟨by decide, first.2.1 rfl (.inl rfl), first.2.2.1 rfl, rfl,
      third.2.1 rfl (.inr rfl), by decide, (second.2.2.2 nofun rfl).1⟩

end BroadcastJoin

end StreamJoin
