import StreamJoin.Join.Progress

namespace StreamJoin

/-!
# One pull of a join, case by case

The answer of a child decides what a pull of a join does.  Each case has one
equation here, events included, so that later modules follow a join along the
answers of its children and never open its definition.  In a pull that drains the
right child the stored blocks come off one by one, each leaving the rest of the same
pull.
-/

/-- A pull with earlier events in front of it. -/
def Pull.after
    {State : Type}
    (events : List Event)
    (later : Pull State) :
    Pull State :=
  { later with events := events ++ later.events }

namespace JoinState

/-- A join that is draining its right child goes on with it. -/
theorem beginBuild_of_building
    {state : JoinState}
    (building : state.phase = .building) :
    state.beginBuild = state := by
  cases state
  cases building
  rfl

/-- Storing a block does not change the phase. -/
theorem phase_store
    {state stored : JoinState}
    {rows : List Row}
    (accepted : state.store rows = .ok stored) :
    stored.phase = state.phase :=
  (samePosition_store accepted).2.1

/--
Rows that are stored have their declared width, and come to the table and the
statistics.
-/
theorem eq_of_store
    {state stored : JoinState}
    {rows : List Row}
    (accepted : state.store rows = .ok stored) :
    checkWidths .right state.plan.rightWidth rows = .ok () ∧
      stored = { state with
        table := state.table.insertAll state.plan.rightKeys.key rows
        tableRows := state.tableRows + rows.length
        stats := { state.stats with
          rightBlocks := state.stats.rightBlocks + 1
          rightRows := state.stats.rightRows + rows.length } } := by
  unfold store at accepted
  split at accepted
  · cases accepted
  · split at accepted
    · cases accepted
    · next checked =>
        cases accepted
        exact ⟨checked, rfl⟩

/-- What a join answers that may not pull any more. -/
def lastBlock (state : JoinState) : Block :=
  match state.phase.cause? with
  | some cause => .failed cause
  | none => .ended

/-- What a join reports of a pull that it may not pass on. -/
def lastEvents (state : JoinState) : List Event :=
  .pullOpened state.kind state.phase ::
    if state.phase.cause?.isSome || state.closed then []
    else [.pullAnswered Block.ended.label 0]

/-- A join that may not pull has failed, was closed or has ended. -/
theorem inactive_cases
    {state : JoinState}
    (inactive : state.isActive = false) :
    (∃ cause, state.phase = .failed cause) ∨
      (state.phase.cause? = none ∧ state.closed = true) ∨
      ((state.phase = .sweeping ∨ state.phase = .done) ∧ state.closed = false) := by
  cases closed : state.closed <;> cases position : state.phase <;>
    simp_all [JoinState.isActive, Phase.cause?]

end JoinState

namespace BroadcastJoin

variable {Left Right : Type}

/-- An accepted join is a plan over the two children, none of which was pulled. -/
theorem eq_ofPlan
    {left : Left}
    {right : Right}
    {spec : JoinSpec}
    {options : JoinOptions}
    {order : BucketOrder}
    {join : BroadcastJoin Left Right}
    (accepted : ofSpec left right spec options order = .ok join) :
    join = ⟨.ofPlan join.state.plan, left, right⟩ := by
  unfold ofSpec at accepted
  cases checked : JoinPlan.ofSpec spec options order with
  | error fault =>
      rw [checked] at accepted
      cases accepted
  | ok plan =>
      rw [checked] at accepted
      cases accepted
      rfl

/-- An accepted join has a plan that passed the checks of its description. -/
theorem exists_plan_of_ofSpec
    {left : Left}
    {right : Right}
    {spec : JoinSpec}
    {options : JoinOptions}
    {order : BucketOrder}
    {join : BroadcastJoin Left Right}
    (accepted : ofSpec left right spec options order = .ok join) :
    ∃ plan, JoinPlan.ofSpec spec options order = .ok plan ∧
      join = ⟨.ofPlan plan, left, right⟩ := by
  unfold ofSpec at accepted
  cases checked : JoinPlan.ofSpec spec options order with
  | error fault => simp [checked, Except.map] at accepted
  | ok plan =>
      simp only [checked, Except.map, Except.ok.injEq] at accepted
      exact ⟨plan, rfl, accepted.symm⟩

section Building

variable [Operator Left] [Drainable Right]
variable {state : JoinState} {left : Left} {right : Right}

/-- A right block that says nothing ends the pull. -/
theorem pullRight_idle (answer : (Operator.pull right).block = .idle) :
    pullRight ⟨state, left, right⟩ =
      ⟨.idle, ⟨state.beginBuild, left, (Operator.pull right).next⟩,
        (Operator.pull right).events⟩ := by
  simp only [pullRight, JoinState.drainRight_idle answer]

/-- A right child that fails fails the join. -/
theorem pullRight_failed
    {cause : Fault}
    (answer : (Operator.pull right).block = .failed cause) :
    pullRight ⟨state, left, right⟩ =
      ⟨.failed cause,
        ⟨(state.beginBuild.fail cause).state, left, (Operator.pull right).next⟩,
        (Operator.pull right).events ++ (state.beginBuild.fail cause).events⟩ := by
  simp only [pullRight, JoinState.drainRight_failed answer]

/-- A right block that cannot be stored fails the join. -/
theorem pullRight_refused
    {block : Batch}
    {fault : Fault}
    (answer : (Operator.pull right).block = .data block)
    (refused : state.beginBuild.store block.rows = .error fault) :
    pullRight ⟨state, left, right⟩ =
      ⟨.failed fault,
        ⟨(state.beginBuild.fail fault).state, left, (Operator.pull right).next⟩,
        (Operator.pull right).events ++ (state.beginBuild.fail fault).events⟩ := by
  simp only [pullRight, JoinState.drainRight_refused answer refused]

/-- Behind the end of the right child the same pull takes a left block. -/
theorem pullRight_ended (answer : (Operator.pull right).block = .ended) :
    pullRight ⟨state, left, right⟩ =
      (pullLeft
        ⟨state.beginBuild.finishBuild, left, (Operator.pull right).next⟩).after
        ((Operator.pull right).events ++ [state.beginBuild.builtEvent]) := by
  simp only [pullRight, JoinState.drainRight_ended answer, Pull.after]

/-- Behind a stored right block the same pull goes on to drain. -/
theorem pullRight_stored
    {block : Batch}
    {stored : JoinState}
    (answer : (Operator.pull right).block = .data block)
    (accepted : state.beginBuild.store block.rows = .ok stored) :
    pullRight ⟨state, left, right⟩ =
      (pullRight ⟨stored, left, (Operator.pull right).next⟩).after
        ((Operator.pull right).events ++
          [.rightBlockStored block.rows.length]) := by
  have goesOn : stored.beginBuild = stored :=
    JoinState.beginBuild_of_building (JoinState.phase_store accepted)
  simp only [pullRight, JoinState.drainRight_stored answer accepted, goesOn,
    Drained.after, Pull.after]
  cases (stored.drainRight (Operator.pull right).next).block? with
  | none => simp
  | some block => rfl

end Building

section Probing

variable [Operator Left]
variable {state : JoinState} {left : Left} {right : Right}

/-- A left block that says nothing ends the pull. -/
theorem pullLeft_idle (answer : (Operator.pull left).block = .idle) :
    pullLeft ⟨state, left, right⟩ =
      ⟨.idle, ⟨state, (Operator.pull left).next, right⟩,
        (Operator.pull left).events⟩ := by
  simp only [pullLeft, JoinState.probeLeft, answer]

/-- The end of the left child ends the join, or sweeps. -/
theorem pullLeft_ended (answer : (Operator.pull left).block = .ended) :
    pullLeft ⟨state, left, right⟩ =
      ⟨state.finishProbe.block,
        ⟨state.finishProbe.state, (Operator.pull left).next, right⟩,
        (Operator.pull left).events ++ state.finishProbe.events⟩ := by
  simp only [pullLeft, JoinState.probeLeft, answer]

/-- A left child that fails fails the join. -/
theorem pullLeft_failed
    {cause : Fault}
    (answer : (Operator.pull left).block = .failed cause) :
    pullLeft ⟨state, left, right⟩ =
      ⟨.failed cause, ⟨(state.fail cause).state, (Operator.pull left).next, right⟩,
        (Operator.pull left).events ++ (state.fail cause).events⟩ := by
  simp only [pullLeft, JoinState.probeLeft, answer, JoinState.fail]

/-- A left data block is probed. -/
theorem pullLeft_data
    {block : Batch}
    (answer : (Operator.pull left).block = .data block) :
    pullLeft ⟨state, left, right⟩ =
      ⟨(state.probe block.rows).block,
        ⟨(state.probe block.rows).state, (Operator.pull left).next, right⟩,
        (Operator.pull left).events ++ (state.probe block.rows).events⟩ := by
  simp only [pullLeft, JoinState.probeLeft, answer]

end Probing

section Guards

variable [Operator Left] [Drainable Right]
variable {join : BroadcastJoin Left Right}

/-- The events around a pull that is let through. -/
def framed
    (join : BroadcastJoin Left Right)
    (pulled : Pull (BroadcastJoin Left Right)) :
    Pull (BroadcastJoin Left Right) where
  block := pulled.block
  next := pulled.next
  events :=
    .pullOpened join.state.kind join.state.phase ::
      (pulled.events ++ [.pullAnswered pulled.block.label pulled.block.rows.length])

/-- Before it probes, an open join answers what draining comes to. -/
theorem pull_of_beforeProbing
    (beforeProbing : join.state.phase.isBeforeProbing = true)
    (opened : join.state.closed = false) :
    join.pull = join.framed join.pullRight := by
  cases position : join.state.phase <;>
    simp_all [pull, Phase.isBeforeProbing, Phase.cause?, advance, framed]

/-- While it probes, an open join answers what its left child comes to. -/
theorem pull_of_probing
    (probing : join.state.phase = .probing)
    (opened : join.state.closed = false) :
    join.pull = join.framed join.pullLeft := by
  simp [pull, probing, opened, Phase.cause?, advance, framed]

/--
A join that may not pull stays as it is.  A failed one repeats its failure, also
after it was closed, and any other one answers the end.
-/
theorem pull_eq_of_inactive (inactive : join.state.isActive = false) :
    join.pull = ⟨join.state.lastBlock, join, join.state.lastEvents⟩ := by
  unfold JoinState.lastBlock JoinState.lastEvents
  rcases JoinState.inactive_cases inactive with
      ⟨cause, failed⟩ | ⟨noFailure, closed⟩ | ⟨sweeping | done, opened⟩
  · simp [pull, failed, Phase.cause?]
  · simp [pull, noFailure, closed]
  · simp [pull, sweeping, opened, Phase.cause?, advance, Block.rows]
  · simp [pull, done, opened, Phase.cause?, advance, Block.rows]

/-- A join that may not pull repeats its last block and stays as it is. -/
theorem pull_of_inactive (inactive : join.state.isActive = false) :
    join.pull.block = join.state.lastBlock ∧ join.pull.next = join := by
  rw [pull_eq_of_inactive inactive]
  exact ⟨rfl, rfl⟩

end Guards

end BroadcastJoin

end StreamJoin
