import StreamJoin.Proofs.JoinLedger
import StreamJoin.Proofs.MarkedPositions

namespace StreamJoin

/-!
# The invariant of a join

What a join holds is well-formed in every state that it reaches: while it is
suspended in the middle of building, after a failure half way through a left block,
after the sweep, and closed at any of these points.

`JoinState.WellFormed` says what is meant by well-formed.  It speaks of the table
and the marks as they are.  The invariant behind it, `JoinState.Represents`,
remembers the rows in the table, so that each step has to say only which rows it
adds or drops.
-/

namespace JoinState

/--
What holds of a join between two requests.  A failure and the memory of it are one:
the phase of a failed join carries the cause, so that the first field holds by the
form of a phase.
-/
structure WellFormed (state : JoinState) : Prop where
  failureRemembered : state.phase.cause?.isSome = true ↔ state.phase.label = "Error"
  notSweeping : state.phase ≠ .sweeping
  marksAllocated :
    state.marks?.isSome = true ↔ state.kind = .right ∨ state.kind = .full
  freshUntallied : state.phase = .fresh → state.stats = .zero
  noLeftRows :
    state.phase.isBeforeProbing = true →
      state.stats.leftBlocks = 0 ∧ state.stats.leftRows = 0
  rowsCounted : state.tableRows = state.table.rowCount
  rowsTallied : state.closed = false → state.tableRows = state.stats.rightRows
  bucketsNonempty : ∀ entry ∈ state.table.toList, entry.2 ≠ []
  marksInside : ∀ marks, state.marks? = some marks → marks.Inside state.table
  closedEmpty :
    state.closed = true →
      state.table = .empty ∧ (∀ marks, state.marks? = some marks → marks = .empty) ∧
        state.tableRows = 0
  withinLimit :
    ∀ limit, state.plan.options.rowLimit = some limit → state.tableRows ≤ limit

/-- A state that holds given right rows, and nothing any more if it is closed. -/
structure Represents (state : JoinState) (rights : List Row) : Prop where
  notSweeping : state.phase ≠ .sweeping
  marksAllocated : state.marks?.isSome = state.kind.sweepsRight
  freshUntallied : state.phase = .fresh → state.stats = .zero
  noLeftRows :
    state.phase.isBeforeProbing = true →
      state.stats.leftBlocks = 0 ∧ state.stats.leftRows = 0
  table_eq : state.table = state.plan.tableOf rights
  tableRows_eq : state.tableRows = rights.length
  rowsTallied : state.closed = false → state.stats.rightRows = rights.length
  marksInside : ∀ marks, state.marks? = some marks → marks.Inside state.table
  closedEmpty :
    state.closed = true →
      rights = [] ∧ ∀ marks, state.marks? = some marks → marks = .empty
  withinLimit :
    ∀ limit, state.plan.options.rowLimit = some limit → rights.length ≤ limit

namespace Represents

variable {state stored : JoinState} {rights rows : List Row} {block : Block}

/-- The rows in the table say everything about the shape of the table. -/
theorem wellFormed (represents : state.Represents rights) : state.WellFormed where
  failureRemembered := by cases state.phase <;> simp [Phase.cause?, Phase.label]
  notSweeping := represents.notSweeping
  marksAllocated := by
    rw [represents.marksAllocated]
    cases state.kind <;> simp [JoinKind.sweepsRight]
  freshUntallied := represents.freshUntallied
  noLeftRows := represents.noLeftRows
  rowsCounted := by
    rw [represents.tableRows_eq, represents.table_eq, JoinPlan.tableOf,
      Table.rowCount_ofRows]
  rowsTallied opened := by
    rw [represents.tableRows_eq, represents.rowsTallied opened]
  bucketsNonempty := by
    rw [represents.table_eq]
    exact fun entry listed => Table.ne_nil_of_mem_toList_ofRows listed
  marksInside := represents.marksInside
  closedEmpty closed := by
    obtain ⟨rfl, noMarks⟩ := represents.closedEmpty closed
    exact ⟨represents.table_eq, noMarks, represents.tableRows_eq⟩
  withinLimit limit limited := by
    rw [represents.tableRows_eq]
    exact represents.withinLimit limit limited

/-- A join that was never pulled holds no row. -/
theorem ofPlan (plan : JoinPlan) : (ofPlan plan).Represents [] where
  notSweeping := nofun
  marksAllocated := by
    change (JoinState.ofPlan plan).marks?.isSome = plan.kind.sweepsRight
    simp only [JoinState.ofPlan]
    cases plan.kind.sweepsRight <;> rfl
  freshUntallied _ := rfl
  noLeftRows _ := ⟨rfl, rfl⟩
  table_eq := rfl
  tableRows_eq := rfl
  rowsTallied _ := rfl
  marksInside marks allocated := by
    simp only [JoinState.ofPlan] at allocated
    split at allocated
    · cases allocated
      exact Marks.inside_empty _
    · cases allocated
  closedEmpty := nofun
  withinLimit limit _ := Nat.zero_le limit

/--
Only the right rows matter behind a change of the phase, once the join has been
pulled.
-/
theorem withPhase
    {phase : Phase}
    (represents : state.Represents rights)
    (notSweeping : phase ≠ .sweeping)
    (pulled : phase ≠ .fresh)
    (noLeftRows :
      phase.isBeforeProbing = true → state.phase.isBeforeProbing = true) :
    { state with phase := phase }.Represents rights where
  notSweeping := notSweeping
  marksAllocated := represents.marksAllocated
  freshUntallied fresh := absurd fresh pulled
  noLeftRows before := represents.noLeftRows (noLeftRows before)
  table_eq := represents.table_eq
  tableRows_eq := represents.tableRows_eq
  rowsTallied := represents.rowsTallied
  marksInside := represents.marksInside
  closedEmpty := represents.closedEmpty
  withinLimit := represents.withinLimit

/-- Beginning to build keeps the rows. -/
theorem beginBuild
    (represents : state.Represents rights)
    (beforeProbing : state.phase.isBeforeProbing = true) :
    state.beginBuild.Represents rights :=
  represents.withPhase nofun nofun fun _ => beforeProbing

/-- A failure keeps the rows that the join holds. -/
theorem fail
    {cause : Fault}
    (represents : state.Represents rights) :
    (state.fail cause).state.Represents rights :=
  represents.withPhase nofun nofun nofun

/--
Behind a running join the statistics of its right side are all that is compared.
-/
theorem withStats
    {stats : JoinTally}
    (represents : state.Represents rights)
    (pastBuilding : state.phase.isBeforeProbing = false)
    (sameRights : stats.rightRows = state.stats.rightRows) :
    { state with stats := stats }.Represents rights where
  notSweeping := represents.notSweeping
  marksAllocated := represents.marksAllocated
  freshUntallied fresh := by
    rw [show state.phase = .fresh from fresh] at pastBuilding
    cases pastBuilding
  noLeftRows before := by
    rw [show state.phase.isBeforeProbing = true from before] at pastBuilding
    cases pastBuilding
  table_eq := represents.table_eq
  tableRows_eq := represents.tableRows_eq
  rowsTallied opened := sameRights.trans (represents.rowsTallied opened)
  marksInside := represents.marksInside
  closedEmpty := represents.closedEmpty
  withinLimit := represents.withinLimit

/-- A stored block puts its rows behind those that are held. -/
theorem store
    (represents : state.Represents rights)
    (building : state.phase = .building)
    (opened : state.closed = false)
    (accepted : state.store rows = .ok stored) :
    stored.Represents (rights ++ rows) := by
  unfold JoinState.store at accepted
  cases exceeded : state.exceededLimit? (state.tableRows + rows.length) with
  | some limit =>
      rw [exceeded] at accepted
      cases accepted
  | none =>
      rw [exceeded] at accepted
      simp only at accepted
      split at accepted
      · cases accepted
      · cases accepted
        exact {
          notSweeping := represents.notSweeping
          marksAllocated := represents.marksAllocated
          freshUntallied := fun fresh => by
            rw [show state.phase = .fresh from fresh] at building
            cases building
          noLeftRows := represents.noLeftRows
          table_eq := by
            simp only [represents.table_eq]
            exact Table.insertAll_ofRows rights rows
          tableRows_eq := by
            simp only [represents.tableRows_eq, List.length_append]
          rowsTallied := fun opened => by
            simp only [represents.rowsTallied opened, List.length_append]
          marksInside := fun marks allocated =>
            (represents.marksInside marks allocated).insertAll
          closedEmpty := fun closed => by
            rw [show state.closed = true from closed] at opened
            cases opened
          withinLimit := fun limit limited => by
            simp only [exceededLimit?, Option.filter_eq_none_iff, decide_eq_true_eq,
              represents.tableRows_eq] at exceeded
            rw [List.length_append]
            exact Nat.le_of_not_lt (exceeded limit limited)
        }

/-- Turning to the left input keeps the rows. -/
theorem finishBuild
    (represents : state.Represents rights) :
    state.finishBuild.Represents rights := by
  have turned : { state with phase := .probing }.Represents rights :=
    represents.withPhase nofun nofun nofun
  exact turned.withStats rfl rfl

/-- What a probe marks, it marks inside the buckets. -/
theorem markHits
    {lefts : List Row}
    (represents : state.Represents rights)
    (opened : state.closed = false) :
    (state.markHits (state.plan.probeRows state.table lefts).hits).Represents
      rights where
  notSweeping := represents.notSweeping
  marksAllocated := by
    rw [JoinState.markHits, Option.isSome_map]
    exact represents.marksAllocated
  freshUntallied := represents.freshUntallied
  noLeftRows := represents.noLeftRows
  table_eq := represents.table_eq
  tableRows_eq := represents.tableRows_eq
  rowsTallied := represents.rowsTallied
  marksInside marks allocated := by
    obtain ⟨before, held, rfl⟩ := Option.map_eq_some_iff.mp allocated
    exact
      (represents.marksInside before held).markAll fun hit found =>
        JoinPlan.hit_inside_probeRows found
  closedEmpty closed := by
    rw [show state.closed = true from closed] at opened
    cases opened
  withinLimit := represents.withinLimit

/-- Probing a left block keeps the right rows, also if it fails half way. -/
theorem probe
    {lefts : List Row}
    (represents : state.Represents rights)
    (probing : state.phase = .probing)
    (opened : state.closed = false) :
    (state.probe lefts).state.Represents rights := by
  have marked :
      (state.markHits (state.plan.probeRows state.table lefts).hits).Represents
        rights :=
    represents.markHits opened
  unfold JoinState.probe
  split
  · exact represents.fail
  · simp only
    split
    · exact marked.fail
    · refine marked.withStats ?_ rfl
      rw [JoinState.markHits, probing]
      rfl

/-- The end of the left input keeps the rows, the sweep included. -/
theorem finishProbe (represents : state.Represents rights) :
    state.finishProbe.state.Represents rights := by
  have done : { state with phase := .done }.Represents rights :=
    represents.withPhase nofun nofun nofun
  unfold JoinState.finishProbe
  split
  · exact done.withStats rfl rfl
  · exact done

/-- A join that is closed holds no row any more. -/
theorem release (represents : state.Represents rights) :
    state.release.Represents [] where
  notSweeping := represents.notSweeping
  marksAllocated := by
    rw [JoinState.release, Option.isSome_map]
    exact represents.marksAllocated
  freshUntallied := represents.freshUntallied
  noLeftRows := represents.noLeftRows
  table_eq := rfl
  tableRows_eq := rfl
  rowsTallied := nofun
  marksInside marks allocated := by
    obtain ⟨before, _, rfl⟩ := Option.map_eq_some_iff.mp allocated
    exact Marks.inside_empty _
  closedEmpty _ := by
    refine ⟨rfl, fun marks allocated => ?_⟩
    obtain ⟨before, _, rfl⟩ := Option.map_eq_some_iff.mp allocated
    rfl
  withinLimit limit _ := Nat.zero_le limit

/-- Any right block leaves the join holding some rows. -/
theorem receiveRight
    (represents : state.Represents rights)
    (building : state.phase = .building)
    (opened : state.closed = false) :
    ∃ others, (state.receiveRight block).state.Represents others := by
  cases block with
  | idle => exact ⟨rights, represents⟩
  | ended => exact ⟨rights, represents.finishBuild⟩
  | failed cause => exact ⟨rights, represents.fail⟩
  | data batch =>
      simp only [JoinState.receiveRight]
      split
      · exact ⟨rights, represents.fail⟩
      · next accepted =>
          exact ⟨rights ++ batch.rows, represents.store building opened accepted⟩

/-- Any left block leaves the right rows as they are. -/
theorem receiveLeft
    (represents : state.Represents rights)
    (probing : state.phase = .probing)
    (opened : state.closed = false) :
    (state.receiveLeft block).state.Represents rights := by
  cases block with
  | idle => exact represents
  | ended => exact represents.finishProbe
  | failed cause => exact represents.fail
  | data batch => exact represents.probe probing opened

end Represents

/-- A state of a join with a given plan that holds some right rows. -/
def Coherent (plan : JoinPlan) (state : JoinState) : Prop :=
  state.plan = plan ∧ ∃ rights, state.Represents rights

namespace Coherent

variable {plan : JoinPlan} {state : JoinState} {block : Block}

/-- Any right block keeps a join coherent. -/
theorem receiveRight
    (coherent : state.Coherent plan)
    (beforeProbing : state.phase.isBeforeProbing = true)
    (opened : state.closed = false) :
    (state.beginBuild.receiveRight block).state.Coherent plan := by
  obtain ⟨plan_eq, rights, represents⟩ := coherent
  exact
    ⟨plan_receiveRight.trans plan_eq,
      (represents.beginBuild beforeProbing).receiveRight rfl opened⟩

/-- Any left block keeps a join coherent. -/
theorem receiveLeft
    (coherent : state.Coherent plan)
    (probing : state.phase = .probing)
    (opened : state.closed = false) :
    (state.receiveLeft block).state.Coherent plan := by
  obtain ⟨plan_eq, rights, represents⟩ := coherent
  exact
    ⟨plan_receiveLeft.trans plan_eq, rights, represents.receiveLeft probing opened⟩

/-- Closing keeps a join coherent. -/
theorem release (coherent : state.Coherent plan) : state.release.Coherent plan := by
  obtain ⟨plan_eq, rights, represents⟩ := coherent
  exact ⟨plan_eq, [], represents.release⟩

end Coherent

end JoinState

namespace BroadcastJoin

section AnyChildren

variable {Left Right : Type} [Operator Left] [Drainable Right]
variable {plan : JoinPlan} {join : BroadcastJoin Left Right}

/-- Going on keeps a join coherent. -/
theorem coherent_advance
    (coherent : join.state.Coherent plan)
    (active : join.state.isActive = true) :
    join.advance.next.state.Coherent plan := by
  revert coherent
  apply advance_induction
    (motive := fun join pulled =>
      join.state.Coherent plan → pulled.next.state.Coherent plan)
    _ _ _ active
  · intro join opened probing coherent
    rw [pullLeft_eq_receive]
    exact coherent.receiveLeft probing opened
  · exact fun join answered opened beforeProbing _ coherent =>
      coherent.receiveRight beforeProbing opened
  · exact fun join opened beforeProbing _ later coherent =>
      later (coherent.receiveRight beforeProbing opened)

/-- Closing a join releases it or, if it was closed before, does nothing. -/
theorem state_close (join : BroadcastJoin Left Right) :
    (Operator.close join).next.state = join.state ∨
      (Operator.close join).next.state = join.state.release := by
  change join.close.next.state = _ ∨ join.close.next.state = _
  unfold close
  split
  · exact .inl rfl
  · exact .inr rfl

/-- Each request leaves the join in a state that holds some right rows. -/
theorem coherent_next
    (coherent : join.state.Coherent plan)
    (call : Call) :
    (Operator.next join call).state.Coherent plan := by
  cases call with
  | pull =>
      cases active : join.state.isActive with
      | true =>
          have pulled : Operator.pull join = _ := pull_of_isActive active
          rw [Operator.next, pulled]
          exact coherent_advance coherent active
      | false =>
          have unchanged : Operator.next join .pull = join :=
            (pull_of_inactive active).2
          rw [unchanged]
          exact coherent
  | close =>
      rcases state_close join with unchanged | released
      · rw [Operator.next, unchanged]
        exact coherent
      · rw [Operator.next, released]
        exact coherent.release

/-- Any requests keep a join coherent. -/
theorem coherent_afterCalls
    (coherent : join.state.Coherent plan)
    (calls : List Call) :
    (Operator.afterCalls join calls).state.Coherent plan := by
  induction calls generalizing join with
  | nil => exact coherent
  | cons call rest inductionHypothesis =>
      exact inductionHypothesis (coherent_next coherent call)

end AnyChildren

end BroadcastJoin

end StreamJoin
