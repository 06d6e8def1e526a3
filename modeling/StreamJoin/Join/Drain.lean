import StreamJoin.Join.State
import StreamJoin.Stream.Operator

namespace StreamJoin

/-!
# Draining the right child

A join takes data blocks from its right child until the child has nothing ready,
fails, or ends.  The loop is bounded by the child's own bound on data blocks handed
out without a pause.  The bound never shows: `drainRight` computes it, and one
equation for each answer of the child describes the whole loop.
-/

/--
What comes of draining the right child: the block that ends the pull, or none when
the table is complete.
-/
structure Drained (Right : Type) where
  block? : Option Block
  state : JoinState
  right : Right
  events : List Event

namespace Drained

/-- A result with earlier events in front of it. -/
def after
    {Right : Type}
    (events : List Event)
    (later : Drained Right) :
    Drained Right :=
  { later with events := events ++ later.events }

end Drained

namespace JoinState

/--
Take blocks from the right child until it has nothing ready, fails, or ends.  The
fuel bounds the data blocks that it can hand out without a pause, so it never runs
out.
-/
def drain
    {Right : Type}
    [Drainable Right] :
    (fuel : Nat) →
    (state : JoinState) →
    (right : Right) →
    Drainable.burst right < fuel →
    Drained Right
  | 0, _, _, burstBounded => absurd burstBounded (Nat.not_lt_zero _)
  | fuel + 1, state, right, burstBounded =>
      let pulled := Operator.pull right
      match answer : pulled.block with
      | .idle => ⟨some .idle, state, pulled.next, pulled.events⟩
      | .ended =>
          ⟨none, state.finishBuild, pulled.next,
            pulled.events ++ [state.builtEvent]⟩
      | .failed cause =>
          let failed := state.fail cause
          ⟨some failed.block, failed.state, pulled.next,
            pulled.events ++ failed.events⟩
      | .data block =>
          match state.store block.rows with
          | .error fault =>
              let failed := state.fail fault
              ⟨some failed.block, failed.state, pulled.next,
                pulled.events ++ failed.events⟩
          | .ok stored =>
              have burstDrops :
                  Drainable.burst pulled.next < Drainable.burst right :=
                Drainable.burst_lt right (by
                  show pulled.block.isData = true
                  simp [answer, Block.isData])
              (drain fuel stored pulled.next (by omega)).after
                (pulled.events ++ [.rightBlockStored block.rows.length])

section

variable {Right : Type} [Drainable Right]
variable {fuel : Nat} {state : JoinState} {right : Right}

/-- With nothing ready on the right the loop is suspended. -/
theorem drain_idle
    (burstBounded : Drainable.burst right < fuel + 1)
    (answer : (Operator.pull right).block = .idle) :
    state.drain (fuel + 1) right burstBounded =
      ⟨some .idle, state, (Operator.pull right).next,
        (Operator.pull right).events⟩ := by
  unfold drain
  simp only
  split <;> simp_all

/-- The end of the right child completes the table. -/
theorem drain_ended
    (burstBounded : Drainable.burst right < fuel + 1)
    (answer : (Operator.pull right).block = .ended) :
    state.drain (fuel + 1) right burstBounded =
      ⟨none, state.finishBuild, (Operator.pull right).next,
        (Operator.pull right).events ++ [state.builtEvent]⟩ := by
  unfold drain
  simp only
  split <;> simp_all

/-- A failure of the right child is passed on. -/
theorem drain_failed
    {cause : Fault}
    (burstBounded : Drainable.burst right < fuel + 1)
    (answer : (Operator.pull right).block = .failed cause) :
    state.drain (fuel + 1) right burstBounded =
      ⟨some (.failed cause), (state.fail cause).state, (Operator.pull right).next,
        (Operator.pull right).events ++ (state.fail cause).events⟩ := by
  unfold drain
  simp only
  split <;> simp_all [fail]

/-- A right block that cannot be stored fails the join. -/
theorem drain_refused
    {block : Batch}
    {fault : Fault}
    (burstBounded : Drainable.burst right < fuel + 1)
    (answer : (Operator.pull right).block = .data block)
    (refused : state.store block.rows = .error fault) :
    state.drain (fuel + 1) right burstBounded =
      ⟨some (.failed fault), (state.fail fault).state, (Operator.pull right).next,
        (Operator.pull right).events ++ (state.fail fault).events⟩ := by
  unfold drain
  simp only
  split <;> simp_all [fail]

/-- A right block that is stored lets the loop go on. -/
theorem drain_stored
    {block : Batch}
    {stored : JoinState}
    (burstBounded : Drainable.burst right < fuel + 1)
    (laterBounded : Drainable.burst (Operator.pull right).next < fuel)
    (answer : (Operator.pull right).block = .data block)
    (accepted : state.store block.rows = .ok stored) :
    state.drain (fuel + 1) right burstBounded =
      (stored.drain fuel (Operator.pull right).next laterBounded).after
        ((Operator.pull right).events ++
          [.rightBlockStored block.rows.length]) := by
  rw [drain]
  simp only
  split <;> simp_all

/-- A data block lowers the bound on the data blocks to come. -/
theorem burst_pull_lt
    {block : Batch}
    (answer : (Operator.pull right).block = .data block) :
    Drainable.burst (Operator.pull right).next < Drainable.burst right :=
  Drainable.burst_lt right (by simp [answer, Block.isData])

/-- The fuel of the loop does not matter as long as it is enough. -/
theorem drain_fuel
    (fuel otherFuel : Nat)
    (state : JoinState)
    (right : Right)
    (burstBounded : Drainable.burst right < fuel)
    (otherBounded : Drainable.burst right < otherFuel) :
    state.drain fuel right burstBounded =
      state.drain otherFuel right otherBounded := by
  induction fuel generalizing otherFuel state right with
  | zero => exact absurd burstBounded (Nat.not_lt_zero _)
  | succ fuel inductionHypothesis =>
      cases otherFuel with
      | zero => exact absurd otherBounded (Nat.not_lt_zero _)
      | succ otherFuel =>
          cases answer : (Operator.pull right).block with
          | idle => rw [drain_idle _ answer, drain_idle _ answer]
          | ended => rw [drain_ended _ answer, drain_ended _ answer]
          | failed cause => rw [drain_failed _ answer, drain_failed _ answer]
          | data block =>
              have burstDrops := burst_pull_lt answer
              cases outcome : state.store block.rows with
              | error fault =>
                  rw [drain_refused _ answer outcome,
                    drain_refused _ answer outcome]
              | ok stored =>
                  rw [drain_stored burstBounded (by omega) answer outcome,
                    drain_stored otherBounded (by omega) answer outcome,
                    inductionHypothesis]

/-- Drain the right child. -/
def drainRight (state : JoinState) (right : Right) : Drained Right :=
  state.drain (Drainable.burst right + 1) right (Nat.lt_succ_self _)

/-- With nothing ready on the right, draining is suspended. -/
theorem drainRight_idle (answer : (Operator.pull right).block = .idle) :
    state.drainRight right =
      ⟨some .idle, state, (Operator.pull right).next,
        (Operator.pull right).events⟩ :=
  drain_idle _ answer

/-- Draining ends with the end of the right child. -/
theorem drainRight_ended (answer : (Operator.pull right).block = .ended) :
    state.drainRight right =
      ⟨none, state.finishBuild, (Operator.pull right).next,
        (Operator.pull right).events ++ [state.builtEvent]⟩ :=
  drain_ended _ answer

/-- Draining ends with a failure of the right child. -/
theorem drainRight_failed
    {cause : Fault}
    (answer : (Operator.pull right).block = .failed cause) :
    state.drainRight right =
      ⟨some (.failed cause), (state.fail cause).state, (Operator.pull right).next,
        (Operator.pull right).events ++ (state.fail cause).events⟩ :=
  drain_failed _ answer

/-- Draining ends with a block that cannot be stored. -/
theorem drainRight_refused
    {block : Batch}
    {fault : Fault}
    (answer : (Operator.pull right).block = .data block)
    (refused : state.store block.rows = .error fault) :
    state.drainRight right =
      ⟨some (.failed fault), (state.fail fault).state, (Operator.pull right).next,
        (Operator.pull right).events ++ (state.fail fault).events⟩ :=
  drain_refused _ answer refused

/-- A stored block is followed by draining what is left. -/
theorem drainRight_stored
    {block : Batch}
    {stored : JoinState}
    (answer : (Operator.pull right).block = .data block)
    (accepted : state.store block.rows = .ok stored) :
    state.drainRight right =
      (stored.drainRight (Operator.pull right).next).after
        ((Operator.pull right).events ++
          [.rightBlockStored block.rows.length]) := by
  unfold drainRight
  rw [drain_stored _ (burst_pull_lt answer) answer accepted]
  exact congrArg _ (drain_fuel ..)

/--
To show a property of draining, it is enough to show it of a state and a right child
from the property of what a stored block leads to.
-/
theorem drainRight_induction
    {motive : JoinState → Right → Prop}
    (step : ∀ (state : JoinState) (right : Right),
      (∀ (block : Batch) (stored : JoinState),
        (Operator.pull right).block = .data block →
        state.store block.rows = .ok stored →
        motive stored (Operator.pull right).next) →
      motive state right)
    (state : JoinState)
    (right : Right) :
    motive state right := by
  induction bounded : Drainable.burst right using Nat.strongRecOn
    generalizing state right with
  | ind bound inductionHypothesis =>
      apply step
      intro block stored answer accepted
      have burstDrops := burst_pull_lt answer
      exact inductionHypothesis _ (by omega) stored _ rfl

end

end JoinState

end StreamJoin
