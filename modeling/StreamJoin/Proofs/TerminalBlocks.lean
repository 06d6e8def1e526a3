import StreamJoin.Proofs.PullHistory
import StreamJoin.Proofs.ReceivedBlocks
import StreamJoin.Stream.Replay

namespace StreamJoin

/-!
# Terminal blocks are final

A join stops for three reasons, each with a guard of its own: it failed, it was
closed, or it has ended.  However the requests to it are mixed, the first terminal
block that it answers is the one that it repeats for ever, and repeating it touches
nothing: neither the join nor its children nor the totals.

A pull settles a join if its block and its phase agree, which is the step.  A join
that may not pull stays so whatever is asked of it, which is the run.
-/

namespace Operator

variable {State : Type} [Operator State]

/-- A state that answers one block and is left, with all totals, as it was. -/
structure Repeats (state : State) (last : Block) : Prop where
  block_eq : (pull state).block = last
  next_eq : (pull state).next = state
  counters_eq :
    ∀ counters : Counters, counters.recordAll (pull state).events = counters

/-- Requests may be made in two parts. -/
theorem afterCalls_append (state : State) (first later : List Call) :
    afterCalls state (first ++ later) =
      afterCalls (afterCalls state first) later := by
  induction first generalizing state with
  | nil => rfl
  | cons call rest inductionHypothesis =>
      exact inductionHypothesis (next state call)

end Operator

/-- A block has a cause exactly if it is a failure. -/
theorem Block.cause?_eq_some_iff {block : Block} {cause : Fault} :
    block.cause? = some cause ↔ block = .failed cause := by
  cases block <;> simp [cause?]

/-- A phase has a cause exactly if it is a failed one. -/
theorem Phase.cause?_eq_some_iff {phase : Phase} {cause : Fault} :
    phase.cause? = some cause ↔ phase = .failed cause := by
  cases phase <;> simp [cause?]

namespace JoinState

/-- A failed join may not pull. -/
theorem isActive_of_failed
    {state : JoinState}
    {cause : Fault}
    (failed : state.phase.cause? = some cause) :
    state.isActive = false := by
  cases position : state.phase <;> simp_all [isActive, Phase.cause?]

/-- A closed join may not pull. -/
theorem isActive_of_closed
    {state : JoinState}
    (closed : state.closed = true) :
    state.isActive = false := by
  cases position : state.phase <;> simp [isActive, position, closed]

/-- A join that may pull has not failed. -/
theorem noFailure_of_active
    {state : JoinState}
    (active : state.isActive = true) :
    state.phase.cause? = none := by
  cases outcome : state.phase.cause? with
  | none => rfl
  | some cause => simp [isActive_of_failed outcome] at active

/-- The last block of a join that did not fail is the end. -/
theorem lastBlock_of_noFailure
    {state : JoinState}
    (noFailure : state.phase.cause? = none) :
    state.lastBlock = .ended := by
  simp only [lastBlock, noFailure]

/-- The last block of a failed join is its failure. -/
theorem lastBlock_of_failed
    {state : JoinState}
    {cause : Fault}
    (failed : state.phase.cause? = some cause) :
    state.lastBlock = .failed cause := by
  simp only [lastBlock, failed]

/--
Behind a right block a join remembers the failure that it answers, if it answers
one.
-/
theorem cause?_receiveRight
    {state : JoinState}
    (noFailure : state.phase.cause? = none)
    (block : Block) :
    (state.receiveRight block).state.phase.cause? =
      (state.receiveRight block).answer?.bind Block.cause? := by
  cases block with
  | idle => exact noFailure
  | ended => rfl
  | failed cause => rfl
  | data batch =>
      simp only [receiveRight]
      split
      · rfl
      · next outcome =>
          exact (congrArg Phase.cause? (phase_store outcome)).trans noFailure

/-- Behind a left block the same holds. -/
theorem cause?_receiveLeft
    {state : JoinState}
    (noFailure : state.phase.cause? = none)
    (block : Block) :
    (state.receiveLeft block).state.phase.cause? =
      (state.receiveLeft block).block.cause? := by
  cases block with
  | idle => exact noFailure
  | failed cause => rfl
  | ended =>
      simp only [receiveLeft, finishProbe]
      split <;> rfl
  | data batch =>
      simp only [receiveLeft, probe]
      split
      · rfl
      · split
        · rfl
        · exact noFailure

/-- A join that answers the end to a left block may not pull any more. -/
theorem inactive_of_isEnd
    {state : JoinState}
    {block : Block}
    (isEnd : (state.receiveLeft block).block.isEnd = true) :
    (state.receiveLeft block).state.isActive = false := by
  cases block with
  | idle => cases isEnd
  | failed cause => cases isEnd
  | ended =>
      simp only [receiveLeft, finishProbe]
      split <;> rfl
  | data batch =>
      simp only [receiveLeft, probe] at isEnd
      split at isEnd
      · cases isEnd
      · split at isEnd <;> cases isEnd

/-- The last block depends on the phase only. -/
theorem lastBlock_of_phase_eq
    {first later : JoinState}
    (samePhase : later.phase = first.phase) :
    later.lastBlock = first.lastBlock := by
  simp only [lastBlock, samePhase]

end JoinState

namespace BroadcastJoin

variable {Left Right : Type}

/--
After a pull the phase tells the failure that was answered, and a join that answered
its end may not pull any more.
-/
structure Settles (pulled : Pull (BroadcastJoin Left Right)) : Prop where
  cause_eq : pulled.next.state.phase.cause? = pulled.block.cause?
  inactive : pulled.block.isEnd = true → pulled.next.state.isActive = false

namespace Settles

variable {pulled : Pull (BroadcastJoin Left Right)}

/-- Events in front of a pull change nothing of what it settles. -/
theorem after
    {events : List Event}
    (settles : Settles pulled) :
    Settles (pulled.after events) :=
  ⟨settles.cause_eq, settles.inactive⟩

/-- An answer other than the end settles nothing but the cause. -/
theorem of_goesOn
    (cause_eq : pulled.next.state.phase.cause? = pulled.block.cause?)
    (goesOn : pulled.block.isEnd = false) :
    Settles pulled where
  cause_eq := cause_eq
  inactive isEnd := by
    rw [goesOn] at isEnd
    cases isEnd

/-- A terminal answer is the last block of the join behind it. -/
theorem of_terminal
    (settles : Settles pulled)
    (terminal : pulled.block.isTerminal = true) :
    pulled.next.state.isActive = false ∧
      pulled.next.state.lastBlock = pulled.block := by
  have cause_eq := settles.cause_eq
  cases answered : pulled.block with
  | failed cause =>
      simp only [answered, Block.cause?] at cause_eq
      exact
        ⟨JoinState.isActive_of_failed cause_eq,
          JoinState.lastBlock_of_failed cause_eq⟩
  | ended =>
      simp only [answered, Block.cause?] at cause_eq
      refine ⟨settles.inactive ?_, JoinState.lastBlock_of_noFailure cause_eq⟩
      simp only [answered, Block.isEnd]
  | data batch => simp [answered, Block.isTerminal] at terminal
  | idle => simp [answered, Block.isTerminal] at terminal

end Settles

/-- An answer to a right block settles what comes after it. -/
theorem settles_receivedRight
    [Drainable Right]
    {join : BroadcastJoin Left Right}
    {answered : Block}
    (answers : join.receivedRight.answer? = some answered) :
    Settles ⟨answered, join.behindRight, join.rightEvents⟩ := by
  have noFailure : join.state.beginBuild.phase.cause? = none := rfl
  refine .of_goesOn ?_ (JoinState.control_of_receiveRight answers).2
  refine
    (JoinState.cause?_receiveRight noFailure (Operator.pull join.right).block).trans
      ?_
  exact congrArg (fun answer? => answer?.bind Block.cause?) answers

section Steps

variable [Operator Left]

/-- Taking a left block settles what comes after it. -/
theorem settles_pullLeft
    {join : BroadcastJoin Left Right}
    (noFailure : join.state.phase.cause? = none) :
    Settles join.pullLeft := by
  rw [pullLeft_eq_receive]
  exact ⟨JoinState.cause?_receiveLeft noFailure _, JoinState.inactive_of_isEnd⟩

variable [Drainable Right]

/-- A pull settles what comes after it. -/
theorem settles_pull (join : BroadcastJoin Left Right) : Settles join.pull := by
  cases active : join.state.isActive with
  | true =>
      have settles : Settles join.advance := by
        apply
          advance_induction (motive := fun _ pulled => Settles pulled) _ _ _ active
        · exact fun join _ probing => settles_pullLeft (by rw [probing]; rfl)
        · exact fun join answered _ _ answers => settles_receivedRight answers
        · exact fun join _ _ _ later => later.after
      rw [pull_of_isActive active]
      exact ⟨settles.cause_eq, settles.inactive⟩
  | false =>
      obtain ⟨answered, fixed⟩ := pull_of_inactive active
      refine ⟨?_, fun _ => ?_⟩
      · rw [answered, fixed]
        cases outcome : join.state.phase.cause? with
        | none => simp only [JoinState.lastBlock_of_noFailure outcome, Block.cause?]
        | some cause =>
            simp only [JoinState.lastBlock_of_failed outcome, Block.cause?]
      · rw [fixed]
        exact active

end Steps

/-- A pull of a join that may not pull touches no total. -/
theorem recordAll_pull_of_inactive
    [Operator Left]
    [Drainable Right]
    {join : BroadcastJoin Left Right}
    (inactive : join.state.isActive = false)
    (counters : Counters) :
    counters.recordAll join.pull.events = counters := by
  rw [pull_eq_of_inactive inactive, JoinState.lastEvents]
  split <;> rfl

/-- A join that may not pull repeats its last block. -/
theorem repeats_of_inactive
    [Operator Left]
    [Drainable Right]
    {join : BroadcastJoin Left Right}
    (inactive : join.state.isActive = false) :
    Operator.Repeats join join.state.lastBlock where
  block_eq := (pull_of_inactive inactive).1
  next_eq := (pull_of_inactive inactive).2
  counters_eq := recordAll_pull_of_inactive inactive

/-- Closing keeps the phase and makes sure that the join does not pull any more. -/
theorem close_settled
    [Operator Left]
    [Operator Right]
    (join : BroadcastJoin Left Right) :
    join.close.next.state.phase = join.state.phase ∧
      join.close.next.state.isActive = false := by
  unfold close
  by_cases closed : join.state.closed = true
  · simp only [closed, if_true]
    exact ⟨trivial, JoinState.isActive_of_closed closed⟩
  · simp only [closed, Bool.false_eq_true, if_false]
    exact ⟨rfl, JoinState.isActive_of_closed rfl⟩

/-- A join that was closed is closed. -/
theorem closed_close
    [Operator Left]
    [Operator Right]
    (join : BroadcastJoin Left Right) :
    join.close.next.state.closed = true := by
  unfold close
  split
  · assumption
  · rfl

variable [Operator Left] [Drainable Right]

/-- A closed join is never opened again. -/
theorem closed_afterCalls
    {join : BroadcastJoin Left Right}
    (closed : join.state.closed = true)
    (calls : List Call) :
    (Operator.afterCalls join calls).state.closed = true := by
  induction calls generalizing join with
  | nil => exact closed
  | cons call rest inductionHypothesis =>
      cases call with
      | pull => exact inductionHypothesis ((closed_pull join).trans closed)
      | close => exact inductionHypothesis (closed_close join)

/--
Whatever is asked of a join that may not pull, it stays so, with the same last
block.
-/
theorem inactive_afterCalls
    {join : BroadcastJoin Left Right}
    (inactive : join.state.isActive = false)
    (calls : List Call) :
    (Operator.afterCalls join calls).state.isActive = false ∧
      (Operator.afterCalls join calls).state.lastBlock = join.state.lastBlock := by
  induction calls generalizing join with
  | nil => exact ⟨inactive, rfl⟩
  | cons call rest inductionHypothesis =>
      cases call with
      | pull =>
          have fixed : Operator.next join .pull = join :=
            (pull_of_inactive inactive).2
          simp only [Operator.afterCalls, fixed]
          exact inductionHypothesis inactive
      | close =>
          obtain ⟨samePhase, nowInactive⟩ := close_settled join
          obtain ⟨staysInactive, sameBlock⟩ := inductionHypothesis nowInactive
          exact
            ⟨staysInactive,
              sameBlock.trans (JoinState.lastBlock_of_phase_eq samePhase)⟩

/-- A join that may not pull repeats its last block behind any requests. -/
theorem repeats_afterCalls
    {join : BroadcastJoin Left Right}
    {last : Block}
    (inactive : join.state.isActive = false)
    (lastBlock_eq : join.state.lastBlock = last)
    (calls : List Call) :
    Operator.Repeats (Operator.afterCalls join calls) last := by
  obtain ⟨staysInactive, sameBlock⟩ := inactive_afterCalls inactive calls
  rw [← lastBlock_eq, ← sameBlock]
  exact repeats_of_inactive staysInactive

/-- A terminal answer is repeated whatever is asked afterwards. -/
theorem repeats_of_terminal
    (join : BroadcastJoin Left Right)
    (before later : List Call)
    {last : Block}
    (terminal : last.isTerminal = true)
    (answered : (Operator.pull (Operator.afterCalls join before)).block = last) :
    Operator.Repeats (Operator.afterCalls join (before ++ .pull :: later))
      last := by
  have settles := settles_pull (Operator.afterCalls join before)
  obtain ⟨inactive, lastBlock_eq⟩ := settles.of_terminal (answered ▸ terminal)
  rw [Operator.afterCalls_append]
  exact repeats_afterCalls inactive (lastBlock_eq.trans answered) later

/-- As long as no failure was answered, none is remembered. -/
theorem noFailure_afterCalls
    {join : BroadcastJoin Left Right}
    {calls : List Call}
    (noFailure : join.state.phase.cause? = none)
    (noneAnswered : ∀ cause, .failed cause ∉ Operator.replies join calls) :
    (Operator.afterCalls join calls).state.phase.cause? = none := by
  induction calls generalizing join with
  | nil => exact noFailure
  | cons call rest inductionHypothesis =>
      cases call with
      | close =>
          apply inductionHypothesis
          · exact (congrArg Phase.cause? (close_settled join).1).trans noFailure
          · exact noneAnswered
      | pull =>
          apply inductionHypothesis
          · refine (settles_pull join).cause_eq.trans ?_
            cases answered : join.pull.block with
            | failed cause =>
                exact
                  absurd (List.mem_cons.mpr (.inl answered.symm))
                    (noneAnswered cause)
            | data batch => rfl
            | idle => rfl
            | ended => rfl
          · exact
              fun cause later => noneAnswered cause (List.mem_cons_of_mem _ later)

/--
Whatever is asked of an accepted join, and in whatever order: a failure that it
answered is repeated by every later pull, also after it was closed; an end that it
answered is repeated by every later pull; and a join that is closed before it
answered a failure answers its end from then on.  No such pull touches the join, its
children or the totals.
-/
theorem terminal_blocks_repeated
    {left : Left}
    {right : Right}
    {spec : JoinSpec}
    {options : JoinOptions}
    {order : BucketOrder}
    {join : BroadcastJoin Left Right}
    (accepted : ofSpec left right spec options order = .ok join)
    (before later : List Call) :
    (∀ cause,
      (Operator.pull (Operator.afterCalls join before)).block = .failed cause →
        Operator.Repeats (Operator.afterCalls join (before ++ .pull :: later))
          (.failed cause)) ∧
    ((Operator.pull (Operator.afterCalls join before)).block = .ended →
      Operator.Repeats (Operator.afterCalls join (before ++ .pull :: later))
        .ended) ∧
    ((∀ cause, .failed cause ∉ Operator.replies join before) →
      Operator.Repeats (Operator.afterCalls join (before ++ .close :: later))
        .ended) := by
  refine ⟨?_, ?_, ?_⟩
  · intro cause answered
    exact repeats_of_terminal join before later rfl answered
  · intro answered
    exact repeats_of_terminal join before later rfl answered
  · intro noneAnswered
    have fresh : join.state.phase.cause? = none := by
      rw [eq_ofPlan accepted]
      rfl
    have noFailure := noFailure_afterCalls fresh noneAnswered
    obtain ⟨samePhase, inactive⟩ := close_settled (Operator.afterCalls join before)
    rw [Operator.afterCalls_append]
    apply repeats_afterCalls inactive
    exact
      JoinState.lastBlock_of_noFailure
        ((congrArg Phase.cause? samePhase).trans noFailure)

/-- One column of whole numbers. -/
def failingSchema : Schema := ⟨[⟨"key", .int⟩]⟩

/-- A small join that is suspended once, answers one block, and fails. -/
def failingJoin : BroadcastJoin Replay Replay :=
  let spec := JoinSpec.equiJoin .full failingSchema failingSchema ⟨[0]⟩ ⟨[0]⟩
  ⟨.ofPlan ((JoinPlan.ofSpec spec .default).toOption.get rfl),
    .ofBlocks
      [.ofRows [[.int 1]] failingSchema, .failed (.inputFailed "gone"), .idle],
    .ofBlocks [.idle, .ofRows [[.int 2]] failingSchema]⟩

/--
The join fails in its third pull.  Closed in the middle of building it ends instead,
and that end is as final as the failure.
-/
theorem terminal_blocks_repeated_sample :
    let failure := Block.failed (.inputFailed "gone")
    Operator.replies failingJoin [.pull, .pull, .pull, .close, .pull] =
        [.idle,
          .ofRows [[.int 1, .null]] (failingSchema.join failingSchema),
          failure, failure] ∧
      Operator.Repeats
        (Operator.afterCalls failingJoin
          ([.pull, .pull] ++ .pull :: [.close, .pull, .close]))
        failure ∧
      Operator.Repeats
        (Operator.afterCalls failingJoin
          ([.pull, .close] ++ .pull :: [.pull, .close]))
        .ended ∧
      Operator.Repeats
        (Operator.afterCalls failingJoin ([.pull] ++ .close :: [.pull]))
        .ended := by
  have accepted :
      ofSpec failingJoin.left failingJoin.right
          (.equiJoin .full failingSchema failingSchema ⟨[0]⟩ ⟨[0]⟩) .default =
        .ok failingJoin := rfl
  refine ⟨by decide, ?_, ?_, ?_⟩
  · exact (terminal_blocks_repeated accepted _ _).1 _ (by decide)
  · exact (terminal_blocks_repeated accepted _ _).2.1 (by decide)
  · refine (terminal_blocks_repeated accepted _ _).2.2 ?_
    have shape : Operator.replies failingJoin [.pull] = [.idle] := by decide
    simp [shape]

end BroadcastJoin

end StreamJoin
