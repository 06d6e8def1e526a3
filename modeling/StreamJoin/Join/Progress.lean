import StreamJoin.Join.Pull

namespace StreamJoin

/-!
# Progress of joins

A join passes on the laws of its children.  If its left child is drainable, so is
the join: a data block either comes from a data block of the left child or is the
final sweep, which happens once.  If both children are exhaustible, so is the join:
a pull that ends nothing uses up a block of one of the children or is the sweep.

No hypothesis is made on children that ended or failed: a join never pulls those
again.
-/

/-- Two states of one join between which only its rows and statistics changed. -/
def JoinState.SamePosition (first later : JoinState) : Prop :=
  later.plan = first.plan ∧ later.phase = first.phase ∧ later.closed = first.closed

namespace JoinState

/-- Storing a block changes neither the plan nor the position of a join. -/
theorem samePosition_store
    {state stored : JoinState}
    {rows : List Row}
    (accepted : state.store rows = .ok stored) :
    state.SamePosition stored := by
  unfold store at accepted
  split at accepted
  · simp at accepted
  · split at accepted
    · simp at accepted
    · injection accepted with sameState
      subst sameState
      exact ⟨rfl, rfl, rfl⟩

/-- A failure answers with a terminal block. -/
theorem isTerminal_fail (state : JoinState) (cause : Fault) :
    (state.fail cause).block.isTerminal = true := rfl

/-- Probing a block either fails or hands out data and keeps the position. -/
theorem probe_progress (state : JoinState) (rows : List Row) :
    (state.probe rows).block.isTerminal = true ∨
      state.SamePosition (state.probe rows).state := by
  unfold probe
  split
  · exact Or.inl (isTerminal_fail ..)
  · simp only
    split
    · exact Or.inl (isTerminal_fail ..)
    · exact Or.inr ⟨rfl, rfl, rfl⟩

/-- The left input ends in the sweep or in the end of the stream. -/
theorem finishProbe_progress (state : JoinState) :
    state.finishProbe.block.isTerminal = true ∨
      (state.kind.sweepsRight = true ∧ state.finishProbe.state.phase = .done) := by
  unfold finishProbe
  by_cases sweeps : state.kind.sweepsRight = true
  · exact Or.inr ⟨sweeps, by simp [sweeps, sweep]⟩
  · exact Or.inl (by simp [sweeps, Block.isTerminal])

/--
Taking a block from the left child ends or fails, is the sweep, or keeps the
position and uses up a block of the left child; data then comes from data.
-/
theorem probeLeft_progress
    {Left : Type}
    [Operator Left]
    (state : JoinState)
    (left : Left) :
    (state.probeLeft left).block.isTerminal = true ∨
      (state.kind.sweepsRight = true ∧ (state.probeLeft left).state.phase = .done) ∨
      (state.SamePosition (state.probeLeft left).state ∧
        (state.probeLeft left).left = (Operator.pull left).next ∧
        (Operator.pull left).block.isTerminal = false ∧
        ((state.probeLeft left).block.isData = true →
          (Operator.pull left).block.isData = true)) := by
  unfold probeLeft
  simp only
  cases answer : (Operator.pull left).block with
  | idle =>
      exact Or.inr (Or.inr
        ⟨⟨rfl, rfl, rfl⟩, rfl, rfl, fun isData => by simp [Block.isData] at isData⟩)
  | failed cause => exact Or.inl rfl
  | ended =>
      cases finishProbe_progress state with
      | inl terminal => exact Or.inl terminal
      | inr swept => exact Or.inr (Or.inl swept)
  | data block =>
      cases probe_progress state block.rows with
      | inl terminal => exact Or.inl terminal
      | inr samePosition =>
          exact Or.inr (Or.inr ⟨samePosition, rfl, rfl, fun _ => rfl⟩)

/--
Draining the right child completes the table, fails, or is suspended where it
stood.
-/
theorem drainRight_progress
    {Right : Type}
    [Drainable Right]
    (state : JoinState)
    (right : Right) :
    match (state.drainRight right).block? with
    | none =>
        (state.drainRight right).state.plan = state.plan ∧
          (state.drainRight right).state.phase = .probing ∧
          (state.drainRight right).state.closed = state.closed
    | some block =>
        block.isTerminal = true ∨
          (block = .idle ∧ state.SamePosition (state.drainRight right).state) := by
  induction state, right using drainRight_induction with
  | step state right inductionHypothesis =>
      cases answer : (Operator.pull right).block with
      | idle =>
          rw [drainRight_idle answer]
          exact Or.inr ⟨rfl, rfl, rfl, rfl⟩
      | ended =>
          rw [drainRight_ended answer]
          exact ⟨rfl, rfl, rfl⟩
      | failed cause =>
          rw [drainRight_failed answer]
          exact Or.inl rfl
      | data block =>
          cases outcome : state.store block.rows with
          | error fault =>
              rw [drainRight_refused answer outcome]
              exact Or.inl rfl
          | ok stored =>
              have kept := samePosition_store outcome
              have later := inductionHypothesis block stored answer outcome
              rw [drainRight_stored answer outcome]
              simp only [Drained.after]
              split at later
              · exact ⟨later.1.trans kept.1, later.2.1, later.2.2.trans kept.2.2⟩
              · cases later with
                | inl terminal => exact Or.inl terminal
                | inr suspended =>
                    exact Or.inr
                      ⟨suspended.1, suspended.2.1.trans kept.1,
                        suspended.2.2.1.trans kept.2.1,
                        suspended.2.2.2.trans kept.2.2⟩

/-- A suspended build used up at least one block of the right child. -/
theorem remaining_drainRight_lt
    {Right : Type}
    [Exhaustible Right]
    (state : JoinState)
    (right : Right)
    (suspended : (state.drainRight right).block? = some .idle) :
    Exhaustible.remaining (state.drainRight right).right <
      Exhaustible.remaining right := by
  induction state, right using drainRight_induction with
  | step state right inductionHypothesis =>
      have drops := Exhaustible.remaining_lt right
      cases answer : (Operator.pull right).block with
      | idle =>
          rw [drainRight_idle answer]
          exact drops (by simp [answer, Block.isTerminal])
      | ended =>
          rw [drainRight_ended answer] at suspended
          simp at suspended
      | failed cause =>
          rw [drainRight_failed answer] at suspended
          simp at suspended
      | data block =>
          cases outcome : state.store block.rows with
          | error fault =>
              rw [drainRight_refused answer outcome] at suspended
              simp at suspended
          | ok stored =>
              rw [drainRight_stored answer outcome] at suspended ⊢
              simp only [Drained.after] at suspended ⊢
              have laterDrop :=
                inductionHypothesis block stored answer outcome suspended
              exact Nat.lt_trans laterDrop
                (drops (by simp [answer, Block.isTerminal]))

/-- One for the sweep that is still to come, if there is one. -/
def sweepsDue (state : JoinState) : Nat := state.kind.sweepsRight.toNat

/-- The sweep still to come depends on the plan only. -/
theorem sweepsDue_of_plan_eq
    {first later : JoinState}
    (samePlan : later.plan = first.plan) :
    later.sweepsDue = first.sweepsDue := by
  simp only [sweepsDue, kind, samePlan]

/-- Whether a join may pull depends on its position only. -/
theorem isActive_of_samePosition
    {first later : JoinState}
    (samePosition : first.SamePosition later) :
    later.isActive = first.isActive := by
  simp only [isActive, samePosition.2.1, samePosition.2.2]

/-- An open join that streams its left input may pull. -/
theorem isActive_of_probing
    {state : JoinState}
    (opened : state.closed = false)
    (probing : state.phase = .probing) :
    state.isActive = true := by
  simp [isActive, opened, probing]

end JoinState

namespace BroadcastJoin

variable {Left Right : Type}

/-- How many data blocks a join can hand out without a pause. -/
def burst [Drainable Left] (join : BroadcastJoin Left Right) : Nat :=
  if join.state.isActive then
    Drainable.burst join.left + join.state.sweepsDue
  else
    0

/-- How many blocks a join can hand out before it ends or fails. -/
def remaining [Exhaustible Left] [Exhaustible Right]
    (join : BroadcastJoin Left Right) : Nat :=
  if join.state.isActive then
    Exhaustible.remaining join.left +
      (if join.state.phase.isBeforeProbing then
        Exhaustible.remaining join.right
      else
        0) +
      join.state.sweepsDue
  else
    0

/-- A join that may not pull answers with a terminal block. -/
theorem isTerminal_pull_of_inactive
    [Operator Left]
    [Drainable Right]
    (join : BroadcastJoin Left Right)
    (inactive : join.state.isActive = false) :
    join.pull.block.isTerminal = true := by
  unfold pull
  simp only
  cases position : join.state.phase with
  | failed cause => rfl
  | sweeping =>
      simp only [Phase.cause?]
      split <;> simp [advance, position, Block.isTerminal]
  | done =>
      simp only [Phase.cause?]
      split <;> simp [advance, position, Block.isTerminal]
  | fresh => simp_all [JoinState.isActive, Phase.cause?, Block.isTerminal]
  | building => simp_all [JoinState.isActive, Phase.cause?, Block.isTerminal]
  | probing => simp_all [JoinState.isActive, Phase.cause?, Block.isTerminal]

/-- The block and the next state of a join that may pull. -/
theorem pull_of_active
    [Operator Left]
    [Drainable Right]
    (join : BroadcastJoin Left Right)
    (active : join.state.isActive = true) :
    join.pull.block = join.advance.block ∧ join.pull.next = join.advance.next := by
  unfold pull
  simp only
  cases position : join.state.phase <;>
    simp_all [JoinState.isActive, Phase.cause?]

/-- A join that may pull is open and in one of the first three phases. -/
theorem active_cases
    {join : BroadcastJoin Left Right}
    (active : join.state.isActive = true) :
    join.state.closed = false ∧
      (join.state.phase = .fresh ∨ join.state.phase = .building ∨
        join.state.phase = .probing) := by
  unfold JoinState.isActive at active
  cases position : join.state.phase <;> simp_all

/-- Data from the left child, or the sweep, lowers the bound of a probing join. -/
theorem burst_pullLeft_lt
    [Drainable Left]
    (join : BroadcastJoin Left Right)
    (opened : join.state.closed = false)
    (probing : join.state.phase = .probing)
    (isData : join.pullLeft.block.isData = true) :
    join.pullLeft.next.burst <
      Drainable.burst join.left + join.state.sweepsDue := by
  unfold pullLeft at isData ⊢
  simp only at isData ⊢
  cases JoinState.probeLeft_progress join.state join.left with
  | inl terminal =>
      cases answered : (join.state.probeLeft join.left).block <;>
        simp_all [Block.isTerminal, Block.isData]
  | inr progress =>
      cases progress with
      | inl swept =>
          simp [burst, JoinState.isActive, swept.2, JoinState.sweepsDue, swept.1]
      | inr kept =>
          obtain ⟨samePosition, taken, _, fromData⟩ := kept
          have drops := Drainable.burst_lt join.left (fromData isData)
          simp only [burst, JoinState.isActive_of_samePosition samePosition,
            JoinState.isActive_of_probing opened probing, ↓reduceIte, taken,
            JoinState.sweepsDue_of_plan_eq samePosition.1]
          omega

/-- A block of the left child, or the sweep, lowers what a probing join has left. -/
theorem remaining_pullLeft_lt
    [Exhaustible Left]
    [Exhaustible Right]
    (join : BroadcastJoin Left Right)
    (opened : join.state.closed = false)
    (probing : join.state.phase = .probing)
    (notTerminal : join.pullLeft.block.isTerminal = false) :
    join.pullLeft.next.remaining <
      Exhaustible.remaining join.left + join.state.sweepsDue := by
  unfold pullLeft at notTerminal ⊢
  simp only at notTerminal ⊢
  cases JoinState.probeLeft_progress join.state join.left with
  | inl terminal => simp [terminal] at notTerminal
  | inr progress =>
      cases progress with
      | inl swept =>
          simp [remaining, JoinState.isActive, swept.2, JoinState.sweepsDue,
            swept.1]
      | inr kept =>
          obtain ⟨samePosition, taken, childGoesOn, _⟩ := kept
          have drops := Exhaustible.remaining_lt join.left childGoesOn
          have pastBuild :
              (join.state.probeLeft join.left).state.phase.isBeforeProbing =
                false := by
            rw [samePosition.2.1, probing]
            rfl
          simp only [remaining, JoinState.isActive_of_samePosition samePosition,
            JoinState.isActive_of_probing opened probing, ↓reduceIte, taken,
            JoinState.sweepsDue_of_plan_eq samePosition.1, pastBuild,
            Bool.false_eq_true]
          omega

/-- A data block lowers the bound of a join that still drains its right child. -/
theorem burst_pullRight_lt
    [Drainable Left]
    [Drainable Right]
    (join : BroadcastJoin Left Right)
    (opened : join.state.closed = false)
    (isData : join.pullRight.block.isData = true) :
    join.pullRight.next.burst <
      Drainable.burst join.left + join.state.sweepsDue := by
  unfold pullRight at isData ⊢
  simp only at isData ⊢
  have progress :=
    JoinState.drainRight_progress join.state.beginBuild join.right
  split at progress
  · rename_i completed
    simp only [completed] at isData ⊢
    have lower :=
      burst_pullLeft_lt
        (⟨(join.state.beginBuild.drainRight join.right).state, join.left,
          (join.state.beginBuild.drainRight join.right).right⟩ :
            BroadcastJoin Left Right)
        (progress.2.2.trans opened) progress.2.1 isData
    exact JoinState.sweepsDue_of_plan_eq progress.1 ▸ lower
  · rename_i block ended
    simp only [ended] at isData ⊢
    cases progress with
    | inl terminal =>
        cases block <;> simp_all [Block.isTerminal, Block.isData]
    | inr suspended =>
        simp [suspended.1, Block.isData] at isData

/--
A block that ends nothing lowers what a join has left that drains its right child.
-/
theorem remaining_pullRight_lt
    [Exhaustible Left]
    [Exhaustible Right]
    (join : BroadcastJoin Left Right)
    (opened : join.state.closed = false)
    (notTerminal : join.pullRight.block.isTerminal = false) :
    join.pullRight.next.remaining <
      Exhaustible.remaining join.left + Exhaustible.remaining join.right +
        join.state.sweepsDue := by
  unfold pullRight at notTerminal ⊢
  simp only at notTerminal ⊢
  have progress :=
    JoinState.drainRight_progress join.state.beginBuild join.right
  split at progress
  · rename_i completed
    simp only [completed] at notTerminal ⊢
    have lower :=
      remaining_pullLeft_lt
        (⟨(join.state.beginBuild.drainRight join.right).state, join.left,
          (join.state.beginBuild.drainRight join.right).right⟩ :
            BroadcastJoin Left Right)
        (progress.2.2.trans opened) progress.2.1 notTerminal
    have sameSweep : _ = join.state.sweepsDue :=
      JoinState.sweepsDue_of_plan_eq progress.1
    simp only [sameSweep] at lower
    omega
  · rename_i block ended
    simp only [ended] at notTerminal ⊢
    cases progress with
    | inl terminal => simp [terminal] at notTerminal
    | inr suspended =>
        obtain ⟨isIdle, samePosition⟩ := suspended
        have drops :=
          JoinState.remaining_drainRight_lt join.state.beginBuild join.right
            (by rw [ended, isIdle])
        have active : join.state.beginBuild.isActive = true := by
          simp [JoinState.isActive, JoinState.beginBuild, opened]
        have stillBuilding :
            Phase.isBeforeProbing
                (join.state.beginBuild.drainRight join.right).state.phase =
              true := by
          rw [samePosition.2.1]
          rfl
        have sameSweep : _ = join.state.sweepsDue :=
          JoinState.sweepsDue_of_plan_eq samePosition.1
        simp only [remaining, JoinState.isActive_of_samePosition samePosition,
          active, ↓reduceIte, stillBuilding, sameSweep]
        omega

instance [Drainable Left] [Drainable Right] :
    Drainable (BroadcastJoin Left Right) where
  burst := burst
  burst_lt join isData := by
    change join.pull.block.isData = true at isData
    change join.pull.next.burst < join.burst
    cases active : join.state.isActive with
    | false =>
        have terminal := isTerminal_pull_of_inactive join active
        cases answered : join.pull.block <;>
          simp_all [Block.isTerminal, Block.isData]
    | true =>
        obtain ⟨sameBlock, sameNext⟩ := pull_of_active join active
        obtain ⟨opened, position⟩ := active_cases active
        rw [sameNext]
        rw [sameBlock] at isData
        have bound :
            join.burst = Drainable.burst join.left + join.state.sweepsDue := by
          simp [burst, active]
        rw [bound]
        rcases position with fresh | building | probing
        · simp only [advance, fresh] at isData ⊢
          exact burst_pullRight_lt join opened isData
        · simp only [advance, building] at isData ⊢
          exact burst_pullRight_lt join opened isData
        · simp only [advance, probing] at isData ⊢
          exact burst_pullLeft_lt join opened probing isData

instance [Exhaustible Left] [Exhaustible Right] :
    Exhaustible (BroadcastJoin Left Right) where
  remaining := remaining
  remaining_lt join notTerminal := by
    change join.pull.block.isTerminal = false at notTerminal
    change join.pull.next.remaining < join.remaining
    cases active : join.state.isActive with
    | false =>
        rw [isTerminal_pull_of_inactive join active] at notTerminal
        exact absurd notTerminal (by decide)
    | true =>
        obtain ⟨sameBlock, sameNext⟩ := pull_of_active join active
        obtain ⟨opened, position⟩ := active_cases active
        rw [sameNext]
        rw [sameBlock] at notTerminal
        rcases position with fresh | building | probing
        · simp only [advance, fresh] at notTerminal ⊢
          have lower := remaining_pullRight_lt join opened notTerminal
          simpa [remaining, active, fresh, Phase.isBeforeProbing] using lower
        · simp only [advance, building] at notTerminal ⊢
          have lower := remaining_pullRight_lt join opened notTerminal
          simpa [remaining, active, building, Phase.isBeforeProbing] using lower
        · simp only [advance, probing] at notTerminal ⊢
          have lower := remaining_pullLeft_lt join opened probing notTerminal
          simpa [remaining, active, probing, Phase.isBeforeProbing] using lower

end BroadcastJoin

end StreamJoin
