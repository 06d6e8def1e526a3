import StreamJoin.Proofs.KeyReads
import StreamJoin.Proofs.PlanRequirements

namespace StreamJoin

/-!
# Rows of declared width

The checks that are made before a join is built are complete, and with the checks of
the blocks that it receives they make sure that nothing is missing in a run: no key
is read of a row that has not all key columns, and all rows that a join hands out
are as wide as its result schema says, whatever its children hand out.
-/

/--
A data block under the result schema of a plan, with rows as wide as the schema
says.
-/
def JoinPlan.FitsResult (plan : JoinPlan) (block : Block) : Prop :=
  ∀ batch, block = .data batch →
    batch.schema = plan.resultSchema ∧
      ∀ row ∈ batch.rows, row.length = plan.resultSchema.width

/-- A table of right rows of their declared width. -/
def JoinPlan.FitsTable (plan : JoinPlan) (table : Table) : Prop :=
  ∀ key, ∀ row ∈ table.bucket key, row.length = plan.rightWidth

namespace JoinPlan

variable {plan : JoinPlan} {table : Table} {left row : Row}
  {rows bucket lefts : List Row}

/-- The empty table holds no row of a wrong width. -/
theorem fitsTable_empty : plan.FitsTable .empty := by
  intro key row member
  rw [Table.bucket_empty] at member
  cases member

/-- Rows of the declared width may be added to a table. -/
theorem FitsTable.insertAll
    {keyOf : Row → Key}
    (fits : plan.FitsTable table)
    (rowsFit : ∀ row ∈ rows, row.length = plan.rightWidth) :
    plan.FitsTable (table.insertAll keyOf rows) := by
  intro key row member
  rw [Table.bucket_insertAll] at member
  rcases List.mem_append.mp member with before | added
  · exact fits key row before
  · exact rowsFit row (List.mem_filter.mp added).1

/-- A left row padded on the right is as wide as the result. -/
theorem length_padRight (leftFits : left.length = plan.leftWidth) :
    (plan.padRight left).length = plan.resultSchema.width := by
  rw [padRight, List.length_append, length_nulls, leftFits, plan.width_resultSchema]

/-- A right row padded on the left is as wide as the result. -/
theorem length_padLeft (rightFits : row.length = plan.rightWidth) :
    (plan.padLeft row).length = plan.resultSchema.width := by
  rw [padLeft, List.length_append, length_nulls, rightFits, plan.width_resultSchema]

/-- The pairs of a left row with a bucket are as wide as the result. -/
theorem length_of_mem_pairWith
    {key : Key}
    {position : Nat}
    (leftFits : left.length = plan.leftWidth)
    (bucketFits : ∀ right ∈ bucket, right.length = plan.rightWidth)
    (member : row ∈ (plan.pairWith left key position bucket).rows) :
    row.length = plan.resultSchema.width := by
  induction bucket generalizing position with
  | nil => cases member
  | cons right rest inductionHypothesis =>
      have restFits :=
        fun other inRest => bucketFits other (List.mem_cons_of_mem right inRest)
      rcases evaluated : plan.residuals.accepts (pair left right) with fault | _ | _
      · rw [pairWith_of_error evaluated] at member
        cases member
      · rw [pairWith_of_rejected evaluated] at member
        exact inductionHypothesis restFits member
      · rw [pairWith_of_accepted evaluated] at member
        rcases List.mem_cons.mp member with rfl | later
        · rw [pair, List.length_append, leftFits,
            bucketFits right List.mem_cons_self, plan.width_resultSchema]
        · exact inductionHypothesis restFits later

/-- What a left row is answered with is as wide as the result. -/
theorem length_of_mem_probeRow
    (tableFits : plan.FitsTable table)
    (leftFits : left.length = plan.leftWidth)
    (member : row ∈ (plan.probeRow table left).rows) :
    row.length = plan.resultSchema.width := by
  have padded :
      ∀ other ∈ [plan.padRight left], other.length = plan.resultSchema.width := by
    intro other isPadded
    rw [List.mem_singleton.mp isPadded]
    exact length_padRight leftFits
  unfold probeRow at member
  simp only at member
  split at member
  · simp only [Probe.ofRows] at member
    split at member
    · exact padded row member
    · cases member
  · unfold padUnpaired at member
    split at member
    · exact length_of_mem_pairWith leftFits (tableFits _) member
    · split at member
      · exact padded row member
      · exact length_of_mem_pairWith leftFits (tableFits _) member

/-- What left rows are answered with is as wide as the result. -/
theorem length_of_mem_probeRows
    (tableFits : plan.FitsTable table)
    (leftsFit : ∀ left ∈ lefts, left.length = plan.leftWidth)
    (member : row ∈ (plan.probeRows table lefts).rows) :
    row.length = plan.resultSchema.width := by
  induction lefts with
  | nil => cases member
  | cons left rest inductionHypothesis =>
      have firstFits := leftsFit left List.mem_cons_self
      have restFit :=
        fun other inRest => leftsFit other (List.mem_cons_of_mem left inRest)
      simp only [probeRows, Probe.append] at member
      split at member
      · exact length_of_mem_probeRow tableFits firstFits member
      · rcases List.mem_append.mp member with first | later
        · exact length_of_mem_probeRow tableFits firstFits first
        · exact inductionHypothesis restFit later

end JoinPlan

namespace Table

/-- The unmarked rows of a bucket are rows of it. -/
theorem mem_of_mem_unmarkedFrom
    {marked : Std.TreeSet Nat}
    {position : Nat}
    {row : Row}
    {rows : List Row}
    (member : row ∈ unmarkedFrom marked position rows) :
    row ∈ rows := by
  induction rows generalizing position with
  | nil => exact member
  | cons first rest inductionHypothesis =>
      unfold unmarkedFrom at member
      split at member
      · exact List.mem_cons_of_mem first (inductionHypothesis member)
      · rcases List.mem_cons.mp member with rfl | later
        · exact List.mem_cons_self
        · exact List.mem_cons_of_mem first (inductionHypothesis later)

/-- A sweep takes its rows from the buckets, whatever is marked. -/
theorem exists_bucket_of_mem_unmarked
    {table : Table}
    {order : BucketOrder}
    {marks : Marks}
    {row : Row}
    (member : row ∈ table.unmarked order marks) :
    ∃ key, row ∈ table.bucket key := by
  obtain ⟨entry, arranged, inEntry⟩ := List.mem_flatMap.mp member
  have listed : entry ∈ table.toList := (order.perm_arrange _).mem_iff.mp arranged
  refine ⟨entry.1, ?_⟩
  rw [bucket_of_mem_toList listed]
  simp only at inEntry
  split at inEntry
  · cases inEntry
  · exact mem_of_mem_unmarkedFrom inEntry

end Table

namespace JoinState

variable {state : JoinState} {block : Block}

/-- A right block leaves no row of a wrong width in the table. -/
theorem fitsTable_receiveRight
    (fits : state.plan.FitsTable state.table)
    (block : Block) :
    state.plan.FitsTable (state.receiveRight block).state.table := by
  cases block with
  | data batch =>
      simp only [receiveRight]
      split
      · exact fits
      · next accepted =>
          obtain ⟨checked, rfl⟩ := eq_of_store accepted
          exact fits.insertAll (length_of_checkWidths checked)
  | _ => exact fits

/-- A left block does not touch the table. -/
theorem table_receiveLeft :
    (state.receiveLeft block).state.table = state.table := by
  obtain ⟨_, _, _, received⟩ := exists_receiveLeft_eq state block
  rw [received]

/-- The rows of the sweep are as wide as the result. -/
theorem fitsResult_sweep (fits : state.plan.FitsTable state.table) :
    state.plan.FitsResult state.sweep.block := by
  intro batch isData
  cases isData
  refine ⟨rfl, fun row member => ?_⟩
  obtain ⟨right, unmarked, rfl⟩ := List.mem_map.mp member
  obtain ⟨key, inBucket⟩ := Table.exists_bucket_of_mem_unmarked unmarked
  exact JoinPlan.length_padLeft (fits key right inBucket)

/-- The rows of a probed block are as wide as the result. -/
theorem fitsResult_probe
    (fits : state.plan.FitsTable state.table)
    (rows : List Row) :
    state.plan.FitsResult (state.probe rows).block := by
  unfold probe
  split
  · exact nofun
  · next checked =>
      simp only
      split
      · exact nofun
      · intro batch isData
        cases isData
        exact
          ⟨rfl, fun row member =>
            JoinPlan.length_of_mem_probeRows fits (length_of_checkWidths checked)
              member⟩

/--
Whatever left block a join receives, the rows of its answer are as wide as its
result.
-/
theorem fitsResult_receiveLeft
    (fits : state.plan.FitsTable state.table)
    (block : Block) :
    state.plan.FitsResult (state.receiveLeft block).block := by
  cases block with
  | idle =>
      intro batch isData
      cases isData
  | failed cause =>
      intro batch isData
      cases isData
  | data batch => exact fitsResult_probe fits batch.rows
  | ended =>
      simp only [receiveLeft, finishProbe]
      split
      · have sweeping :
            { state with phase := .sweeping }.plan.FitsTable state.table := fits
        exact fitsResult_sweep sweeping
      · intro batch isData
        cases isData

end JoinState

/--
A join that holds right rows of their declared width and has handed out wide enough
rows.
-/
structure JoinRecord.Fits (record : JoinRecord) : Prop where
  table : record.state.plan.FitsTable record.state.table
  answers : ∀ block ∈ record.answers, record.state.plan.FitsResult block

/-- Every run keeps the widths of all rows that it holds and hands out. -/
theorem JoinRecord.maintained_fits : Maintained Fits where
  receivesRight := by
    intro state rights lefts answers block _ _ fits
    have samePlan : (state.beginBuild.receiveRight block).state.plan = state.plan :=
      JoinState.plan_receiveRight
    constructor
    · have begun : state.beginBuild.plan.FitsTable state.beginBuild.table :=
        fits.table
      rw [samePlan]
      exact JoinState.fitsTable_receiveRight begun block
    · intro answer member
      rw [samePlan]
      rcases List.mem_append.mp member with before | now
      · exact fits.answers answer before
      · intro batch isData
        have control :=
          (JoinState.control_of_receiveRight (Option.mem_toList.mp now)).1
        rw [isData] at control
        cases control
  receivesLeft := by
    intro state rights lefts answers block _ _ fits
    have samePlan : (state.receiveLeft block).state.plan = state.plan :=
      JoinState.plan_receiveLeft
    constructor
    · rw [samePlan, JoinState.table_receiveLeft]
      exact fits.table
    · intro answer member
      rw [samePlan]
      rcases List.mem_append.mp member with before | now
      · exact fits.answers answer before
      · rw [List.mem_singleton.mp now]
        exact JoinState.fitsResult_receiveLeft fits.table block
  repeatsLast := by
    intro state rights lefts answers _ fits
    refine ⟨fits.table, fun answer member => ?_⟩
    rcases List.mem_append.mp member with before | now
    · exact fits.answers answer before
    · intro batch isData
      rw [List.mem_singleton.mp now, JoinState.lastBlock] at isData
      split at isData <;> cases isData
  released fits := ⟨JoinPlan.fitsTable_empty, fits.answers⟩

namespace BroadcastJoin

variable {Left Right : Type}

/-- A join is made exactly if its description is accepted as a plan. -/
theorem ofSpec_outcome_iff
    {left : Left}
    {right : Right}
    {spec : JoinSpec}
    {options : JoinOptions}
    {order : BucketOrder} :
    ((∃ join, ofSpec left right spec options order = .ok join) ↔
        ∃ plan, JoinPlan.ofSpec spec options order = .ok plan) ∧
      ∀ fault,
        ofSpec left right spec options order = .error fault ↔
          JoinPlan.ofSpec spec options order = .error fault := by
  unfold ofSpec
  cases JoinPlan.ofSpec spec options order <;> simp [Except.map]

variable [Operator Left] [Drainable Right]

/--
What holds of a join behind any requests: it took the blocks of its children into
account as a fresh join does, read keys of rows only that have their declared width
and every key column, and handed out rows only that are as wide as its result schema
says.
-/
structure KeepsWidths (join : BroadcastJoin Left Right) (calls : List Call) :
    Prop where
  state_eq : (join.recordAfter calls).state = (Operator.afterCalls join calls).state
  replayed : (join.recordAfter calls).Replayed
  readable :
    ∀ read ∈
        (join.state.plan.replay (join.recordAfter calls).rights
          (join.recordAfter calls).lefts).reads,
      join.state.plan.Readable read
  fitsResult :
    ∀ block ∈ Operator.replies join calls, join.state.plan.FitsResult block

/-- Whatever is asked of an accepted join, it keeps the widths. -/
theorem keepsWidths
    {left : Left}
    {right : Right}
    {spec : JoinSpec}
    {options : JoinOptions}
    {order : BucketOrder}
    {join : BroadcastJoin Left Right}
    (accepted : ofSpec left right spec options order = .ok join)
    (calls : List Call) :
    join.KeepsWidths calls := by
  have sameState := state_recordAfter join calls
  have replayed :=
    maintained_recordAfter JoinRecord.maintained_replayed accepted
      ⟨.ofPlan join.state.plan, .inl rfl⟩ calls
  have fits :=
    maintained_recordAfter JoinRecord.maintained_fits accepted
      ⟨JoinPlan.fitsTable_empty, nofun⟩ calls
  have samePlan : (join.recordAfter calls).state.plan = join.state.plan := by
    rw [sameState, plan_afterCalls]
  exact {
    state_eq := sameState
    replayed := replayed.2
    readable := JoinPlan.readable_replay join.state.plan _ _
    fitsResult := fun block member => samePlan ▸ fits.answers block member
  }

/--
A description is accepted exactly if it meets all requirements, and a fault is that
of the first requirement that it violates.  An accepted join has the plan that was
described over the children as they were given.  Whatever is asked of it and
whatever its children answer, it never reads a key of a row without all key columns,
and every row that it hands out is as wide as its result schema says.
-/
theorem checks_cover_runs
    (left : Left)
    (right : Right)
    (spec : JoinSpec)
    (options : JoinOptions)
    (order : BucketOrder) :
    ((∃ join, ofSpec left right spec options order = .ok join) ↔ spec.Acceptable) ∧
      (∀ fault,
        ofSpec left right spec options order = .error fault ↔
          spec.firstViolation? = some fault) ∧
      ∀ join, ofSpec left right spec options order = .ok join →
        join.state.plan.Describes spec options order ∧
          join = ⟨.ofPlan join.state.plan, left, right⟩ ∧
          ∀ calls, join.KeepsWidths calls := by
  obtain ⟨acceptedAlike, refusedAlike⟩ := ofSpec_outcome_iff
  refine ⟨acceptedAlike.trans JoinPlan.exists_plan_iff, ?_, ?_⟩
  · exact fun fault => (refusedAlike fault).trans JoinPlan.ofSpec_eq_error_iff
  · intro join accepted
    obtain ⟨plan, checked, join_eq⟩ := exists_plan_of_ofSpec accepted
    refine ⟨?_, eq_ofPlan accepted, keepsWidths accepted⟩
    rw [join_eq]
    exact JoinPlan.ofSpec_eq_ok_iff.mp checked

/-- A number with its key behind it. -/
def checkedSchema : Schema := ⟨[⟨"number", .int⟩, ⟨"key", .int⟩]⟩

/-- The rows are joined by their second columns. -/
def checkedSpec : JoinSpec :=
  .equiJoin .left checkedSchema checkedSchema ⟨[1]⟩ ⟨[1]⟩

/-- A small join whose left child comes to a row without the key column. -/
def checkedJoin : BroadcastJoin Replay Replay :=
  ⟨.ofPlan ((JoinPlan.ofSpec checkedSpec .default).toOption.get rfl),
    .ofBatches checkedSchema
      [[[.int 5, .int 1], [.int 6, .int 2]], [[.int 7, .int 1], [.int 8]]],
    .ofBatches checkedSchema [[[.int 9, .int 1]]]⟩

/--
The second left block is refused before any of its keys is read.  Of two violated
requirements the earlier one gives the fault.
-/
theorem checks_cover_runs_sample :
    let run := checkedJoin.recordAfter [.pull, .pull]
    checkedSpec.Acceptable ∧
      ofSpec checkedJoin.left checkedJoin.right
          { checkedSpec with rightKeys := some ⟨[1, 4]⟩ } .default =
        .error (.keyCountMismatch 1 2) ∧
      checkedJoin.KeepsWidths [.pull, .pull] ∧
      Operator.replies checkedJoin [.pull, .pull] =
        [.ofRows
            [[.int 5, .int 1, .int 9, .int 1], [.int 6, .int 2, .null, .null]]
            (checkedSchema.join checkedSchema),
          .failed (.wrongRowWidth .left 2 1)] ∧
      (checkedJoin.state.plan.replay run.rights run.lefts).reads =
        [(.right, [.int 9, .int 1]), (.left, [.int 5, .int 1]),
          (.left, [.int 6, .int 2])] := by
  have accepted :
      ofSpec checkedJoin.left checkedJoin.right checkedSpec .default =
        .ok checkedJoin := rfl
  obtain ⟨acceptable, _, runs⟩ :=
    checks_cover_runs checkedJoin.left checkedJoin.right checkedSpec .default .byKey
  obtain ⟨_, refused, _⟩ :=
    checks_cover_runs checkedJoin.left checkedJoin.right
      { checkedSpec with rightKeys := some ⟨[1, 4]⟩ } .default .byKey
  exact
    ⟨acceptable.mp ⟨checkedJoin, accepted⟩, (refused _).mpr (by decide),
      (runs checkedJoin accepted).2.2 [.pull, .pull], by decide, by decide⟩

end BroadcastJoin

end StreamJoin
