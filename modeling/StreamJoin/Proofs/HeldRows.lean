import StreamJoin.Join.State
import StreamJoin.Proofs.NestedLoop

namespace StreamJoin

/-!
# What a join holds between two pulls

A join that neither ended nor failed is determined, its statistics apart, by its
plan, its phase, the right rows that it stored and the left rows that it probed.
`Holds` says so, and each step of a join is described through it: which failure the
step meets, and what the join holds after it otherwise.
-/

/-- The failure of rows of which one has not the width that its schema declares. -/
def widthFault? (side : Side) (expected : Nat) (rows : List Row) : Option Fault :=
  (rows.find? fun row => row.length ≠ expected).map fun row =>
    .wrongRowWidth side expected row.length

namespace JoinPlan

/-- The failure of a table that would come to hold a number of rows. -/
def limitFault? (plan : JoinPlan) (rows : Nat) : Option Fault :=
  match plan.options.rowLimit with
  | some limit => if limit < rows then some (.rowLimitExceeded limit) else none
  | none => none

/--
The failure of a right block after the right rows before it: for data the row limit
comes first and the widths second.
-/
def rightFault? (plan : JoinPlan) (before : List Row) : Block → Option Fault
  | .data block =>
      (plan.limitFault? (before.length + block.size)).or
        (widthFault? .right plan.rightWidth block.rows)
  | .failed cause => some cause
  | .ended
  | .idle => none

/--
The failure of a left block against all right rows: for data the widths of the whole
block come first and the residual predicates second.
-/
def leftFault? (plan : JoinPlan) (rights : List Row) : Block → Option Fault
  | .data block =>
      (widthFault? .left plan.leftWidth block.rows).or
        (plan.pairFault? rights block.rows)
  | .failed cause => some cause
  | .ended
  | .idle => none

end JoinPlan

/-- A row of a wrong width is refused with the fault of the first one. -/
theorem checkWidths_of_fault
    {side : Side}
    {expected : Nat}
    {rows : List Row}
    {fault : Fault}
    (wrong : widthFault? side expected rows = some fault) :
    checkWidths side expected rows = .error fault := by
  obtain ⟨row, found, rfl⟩ := Option.map_eq_some_iff.mp wrong
  rw [checkWidths, firstWrongWidth?, found, Option.map_some]

/-- Rows of the right width are accepted. -/
theorem checkWidths_of_noFault
    {side : Side}
    {expected : Nat}
    {rows : List Row}
    (right : widthFault? side expected rows = none) :
    checkWidths side expected rows = .ok () := by
  have noneFound := Option.map_eq_none_iff.mp right
  rw [checkWidths, firstWrongWidth?, noneFound, Option.map_none]

/-- Kinds with a sweep look for pairs. -/
theorem JoinKind.presence?_of_sweepsRight
    {kind : JoinKind}
    (sweeps : kind.sweepsRight = true) :
    kind.presence? = none := by
  cases kind <;> simp_all [JoinKind.sweepsRight, JoinKind.presence?]

namespace JoinState

/--
A join that stored given right rows, probed given left rows without a failure, and
is not closed.
-/
structure Holds
    (state : JoinState)
    (plan : JoinPlan)
    (phase : Phase)
    (rights lefts : List Row) : Prop where
  plan_eq : state.plan = plan
  phase_eq : state.phase = phase
  opened : state.closed = false
  table_eq : state.table = plan.tableOf rights
  tableRows_eq : state.tableRows = rights.length
  marks_eq :
    state.marks? =
      if plan.kind.sweepsRight then some (plan.marksOf rights lefts) else none
  sound : plan.pairFault? rights lefts = none

variable {state : JoinState} {plan : JoinPlan} {phase : Phase}
  {rights lefts : List Row}

/--
A join that is about to drain its right child for the first time holds no rows.
-/
theorem holds_ofPlan (plan : JoinPlan) :
    (ofPlan plan).beginBuild.Holds plan .building [] [] where
  plan_eq := rfl
  phase_eq := rfl
  opened := rfl
  table_eq := rfl
  tableRows_eq := rfl
  marks_eq := rfl
  sound := rfl

/-- The limit that is checked is the one whose fault is described. -/
theorem exceededLimit?_of_limitFault
    {rows : Nat}
    (plan_eq : state.plan = plan) :
    plan.limitFault? rows = (state.exceededLimit? rows).map .rowLimitExceeded := by
  unfold JoinPlan.limitFault? exceededLimit?
  rw [plan_eq]
  cases plan.options.rowLimit with
  | none => rfl
  | some limit =>
      by_cases exceeded : limit < rows <;> simp [exceeded, Option.filter]

/-- A right block with a failure is refused with it. -/
theorem store_of_fault
    {block : Batch}
    {fault : Fault}
    (holds : state.Holds plan .building rights [])
    (refused : plan.rightFault? rights (.data block) = some fault) :
    state.store block.rows = .error fault := by
  simp only [JoinPlan.rightFault?, Batch.size, ← holds.tableRows_eq,
    exceededLimit?_of_limitFault holds.plan_eq] at refused
  unfold store
  cases exceeded : state.exceededLimit? (state.tableRows + block.rows.length) with
  | some limit =>
      simp only [exceeded, Option.map_some, Option.some_or,
        Option.some.injEq] at refused
      simp only [refused]
  | none =>
      simp only [exceeded, Option.map_none, Option.none_or,
        ← holds.plan_eq] at refused
      simp only [checkWidths_of_fault refused]

/-- A right block without a failure is stored behind the rows before it. -/
theorem store_of_noFault
    {block : Batch}
    (holds : state.Holds plan .building rights [])
    (accepted : plan.rightFault? rights (.data block) = none) :
    ∃ stored, state.store block.rows = .ok stored ∧
      stored.Holds plan .building (rights ++ block.rows) [] := by
  simp only [JoinPlan.rightFault?, Batch.size, ← holds.tableRows_eq,
    exceededLimit?_of_limitFault holds.plan_eq, Option.or_eq_none_iff,
    Option.map_eq_none_iff] at accepted
  obtain ⟨withinLimit, rightWidths⟩ := accepted
  rw [← holds.plan_eq] at rightWidths
  unfold store
  simp only [withinLimit, checkWidths_of_noFault rightWidths]
  refine ⟨_, rfl, ?_⟩
  exact {
    plan_eq := holds.plan_eq
    phase_eq := holds.phase_eq
    opened := holds.opened
    table_eq := by
      rw [holds.plan_eq, holds.table_eq]
      exact Table.insertAll_ofRows rights block.rows
    tableRows_eq := by
      rw [holds.tableRows_eq, List.length_append]
    marks_eq := holds.marks_eq
    sound := rfl
  }

/-- Turning to the left input keeps what the join holds. -/
theorem holds_finishBuild
    (holds : state.Holds plan .building rights []) :
    state.finishBuild.Holds plan .probing rights [] where
  plan_eq := holds.plan_eq
  phase_eq := rfl
  opened := holds.opened
  table_eq := holds.table_eq
  tableRows_eq := holds.tableRows_eq
  marks_eq := holds.marks_eq
  sound := holds.sound

/-- A left block with a failure fails the join with it. -/
theorem probe_of_fault
    {block : Batch}
    {fault : Fault}
    (holds : state.Holds plan .probing rights lefts)
    (refused : plan.leftFault? rights (.data block) = some fault) :
    (state.probe block.rows).block = .failed fault ∧
      (state.probe block.rows).state.phase = .failed fault := by
  unfold probe
  cases wrong : widthFault? .left plan.leftWidth block.rows with
  | some other =>
      simp only [JoinPlan.leftFault?, wrong, Option.some_or,
        Option.some.injEq] at refused
      rw [holds.plan_eq, checkWidths_of_fault wrong]
      simp [fail, refused]
  | none =>
      simp only [JoinPlan.leftFault?, wrong, Option.none_or] at refused
      rw [holds.plan_eq, checkWidths_of_noFault wrong]
      simp only [holds.table_eq, JoinPlan.fault?_probeRows, refused]
      exact ⟨rfl, rfl⟩

/-- A left block without a failure is answered by the nested loop over it. -/
theorem probe_of_noFault
    {block : Batch}
    (holds : state.Holds plan .probing rights lefts)
    (accepted : plan.leftFault? rights (.data block) = none) :
    (state.probe block.rows).block =
        .ofRows (plan.nestedRows rights block.rows) plan.resultSchema ∧
      (state.probe block.rows).state.Holds plan .probing rights
        (lefts ++ block.rows) := by
  simp only [JoinPlan.leftFault?, Option.or_eq_none_iff] at accepted
  obtain ⟨rightWidths, noFault⟩ := accepted
  unfold probe
  rw [holds.plan_eq, checkWidths_of_noFault rightWidths]
  simp only [holds.table_eq, JoinPlan.fault?_probeRows, noFault,
    JoinPlan.rows_probeRows noFault]
  refine ⟨by simp [emitProbed, markHits, holds.plan_eq], ?_⟩
  exact {
    plan_eq := holds.plan_eq
    phase_eq := holds.phase_eq
    opened := holds.opened
    table_eq := holds.table_eq
    tableRows_eq := holds.tableRows_eq
    marks_eq := by
      simp only [emitProbed, markHits, holds.marks_eq]
      cases plan.kind.sweepsRight with
      | false => rfl
      | true =>
          simp [JoinPlan.marksOf, Marks.markAll,
            JoinPlan.hits_probeRows_append holds.sound]
    sound := by
      rw [JoinPlan.pairFault?, List.findSome?_append, ← JoinPlan.pairFault?,
        ← JoinPlan.pairFault?, holds.sound, noFault]
      rfl
  }

/-- Kinds without a sweep end at once. -/
theorem finishProbe_of_noSweep
    (holds : state.Holds plan .probing rights lefts)
    (noSweep : plan.kind.sweepsRight = false) :
    state.finishProbe.block = .ended ∧ state.finishProbe.state.phase = .done := by
  have kind_eq : state.kind = plan.kind := congrArg JoinPlan.kind holds.plan_eq
  simp [finishProbe, kind_eq, noSweep]

/-- Kinds with a sweep hand out the unpaired right rows, in some order. -/
theorem finishProbe_of_sweep
    (holds : state.Holds plan .probing rights lefts)
    (sweeps : plan.kind.sweepsRight = true) :
    ∃ swept, swept.Perm ((plan.unpairedRights lefts rights).map plan.padLeft) ∧
      state.finishProbe.block = .ofRows swept plan.resultSchema ∧
      state.finishProbe.state.phase = .done := by
  have kind_eq : state.kind = plan.kind := congrArg JoinPlan.kind holds.plan_eq
  have marks_eq : state.marks? = some (plan.marksOf rights lefts) := by
    rw [holds.marks_eq, if_pos sweeps]
  have unpaired :=
    JoinPlan.unmarked_tableOf_perm plan.bucketOrder
      (JoinKind.presence?_of_sweepsRight sweeps) holds.sound
  refine ⟨_, unpaired.map plan.padLeft, ?_, ?_⟩
  · simp [finishProbe, kind_eq, sweeps, sweep, unmatchedRows, marks_eq,
      holds.plan_eq, holds.table_eq]
  · simp [finishProbe, kind_eq, sweeps, sweep]

end JoinState

end StreamJoin
