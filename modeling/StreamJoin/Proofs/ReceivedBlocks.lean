import StreamJoin.Proofs.PullSteps

namespace StreamJoin

/-!
# One block of a child at a time

What a join does in a pull is decided by the blocks that its children answer.  A
block of the left child always ends the pull.  A block of the right child ends it if
nothing is ready or something failed; otherwise the same pull goes on, to the next
right block or, if the right child has ended, to the left one.

Each of the two has one function here, which knows nothing of the children, and the
pull of a join is described through them.  What holds for every block that is
received holds for every pull.
-/

/--
What comes of a block of the right child: an answer, or none if the pull goes on.
-/
structure Received where
  answer? : Option Block
  state : JoinState
  events : List Event

namespace JoinState

/-- Take a block of the right child into account. -/
def receiveRight (state : JoinState) : Block → Received
  | .idle => ⟨some .idle, state, []⟩
  | .ended => ⟨none, state.finishBuild, [state.builtEvent]⟩
  | .failed cause =>
      ⟨some (.failed cause), (state.fail cause).state, (state.fail cause).events⟩
  | .data batch =>
      match state.store batch.rows with
      | .error fault =>
          ⟨some (.failed fault), (state.fail fault).state,
            (state.fail fault).events⟩
      | .ok stored => ⟨none, stored, [.rightBlockStored batch.rows.length]⟩

/-- Take a block of the left child into account. -/
def receiveLeft (state : JoinState) : Block → Answer
  | .idle => ⟨.idle, state, []⟩
  | .ended => state.finishProbe
  | .failed cause => state.fail cause
  | .data batch => state.probe batch.rows

variable {state : JoinState} {block : Block}

/--
Nothing is ready in the answer exactly if nothing was ready in the left child.
-/
theorem isIdle_receiveLeft :
    (state.receiveLeft block).block.isIdle = block.isIdle := by
  cases block with
  | idle => rfl
  | failed cause => rfl
  | ended =>
      simp only [receiveLeft, finishProbe]
      split <;> rfl
  | data batch =>
      simp only [receiveLeft, probe]
      split
      · rfl
      · split <;> rfl

/-- An answer to a right block is idle exactly if the block is. -/
theorem isIdle_of_receiveRight
    {answered : Block}
    (answers : (state.receiveRight block).answer? = some answered) :
    answered.isIdle = block.isIdle := by
  cases block with
  | idle => cases answers; rfl
  | failed cause => cases answers; rfl
  | ended => cases answers
  | data batch =>
      simp only [receiveRight] at answers
      split at answers
      · cases answers; rfl
      · cases answers

/--
What a join answers to a right block is a control block that does not end the
stream.
-/
theorem control_of_receiveRight
    {answered : Block}
    (answers : (state.receiveRight block).answer? = some answered) :
    answered.isData = false ∧ answered.isEnd = false := by
  cases block with
  | idle => cases answers; exact ⟨rfl, rfl⟩
  | failed cause => cases answers; exact ⟨rfl, rfl⟩
  | ended => cases answers
  | data batch =>
      simp only [receiveRight] at answers
      split at answers
      · cases answers; exact ⟨rfl, rfl⟩
      · cases answers

/-- A right block that lets the pull go on is the end or a block that was stored. -/
theorem goesOn_cases
    (goesOn : (state.receiveRight block).answer? = none) :
    (block = .ended ∧ (state.receiveRight block).state = state.finishBuild) ∨
      ∃ batch stored,
        block = .data batch ∧ state.store batch.rows = .ok stored ∧
          (state.receiveRight block).state = stored := by
  cases block with
  | idle => cases goesOn
  | failed cause => cases goesOn
  | ended => exact .inl ⟨rfl, rfl⟩
  | data batch =>
      simp only [receiveRight] at goesOn ⊢
      cases outcome : state.store batch.rows with
      | error fault => simp [outcome] at goesOn
      | ok stored => exact .inr ⟨batch, stored, rfl, outcome, rfl⟩

/--
A join that may pull is open, and drains its right child or streams its left one.
-/
theorem running_of_isActive
    (active : state.isActive = true) :
    state.closed = false ∧
      (state.phase.isBeforeProbing = true ∨ state.phase = .probing) := by
  cases position : state.phase <;> simp_all [isActive, Phase.isBeforeProbing]

/-- An open join that still builds may pull. -/
theorem isActive_of_beforeProbing
    (beforeProbing : state.phase.isBeforeProbing = true)
    (opened : state.closed = false) :
    state.isActive = true := by
  cases position : state.phase <;> simp_all [isActive, Phase.isBeforeProbing]

/-- A join that goes on behind a right block may still pull. -/
theorem isActive_of_goesOn
    (opened : state.closed = false)
    (goesOn : (state.beginBuild.receiveRight block).answer? = none) :
    (state.beginBuild.receiveRight block).state.isActive = true := by
  rcases goesOn_cases goesOn with ⟨_, turned⟩ | ⟨batch, stored, _, outcome, kept⟩
  · rw [turned]
    simp only [isActive, finishBuild, beginBuild, opened, Bool.not_false]
  · rw [kept, isActive_of_samePosition (samePosition_store outcome)]
    simp only [isActive, beginBuild, opened, Bool.not_false]

/-- A right block does not close a join. -/
theorem closed_receiveRight :
    (state.receiveRight block).state.closed = state.closed := by
  cases block with
  | data batch =>
      simp only [receiveRight]
      split
      · rfl
      · next outcome => exact (samePosition_store outcome).2.2
  | _ => rfl

/--
A left block changes the phase, the statistics and the marks, and nothing else.
-/
theorem exists_receiveLeft_eq (state : JoinState) (block : Block) :
    ∃ phase stats marks?,
      (state.receiveLeft block).state =
        { state with phase := phase, stats := stats, marks? := marks? } := by
  cases block with
  | idle => exact ⟨_, _, _, rfl⟩
  | failed cause => exact ⟨_, _, _, rfl⟩
  | ended =>
      simp only [receiveLeft, finishProbe]
      split <;> exact ⟨_, _, _, rfl⟩
  | data batch =>
      simp only [receiveLeft, probe]
      split
      · exact ⟨_, _, _, rfl⟩
      · split <;> exact ⟨_, _, _, rfl⟩

/-- A left block does not close a join. -/
theorem closed_receiveLeft :
    (state.receiveLeft block).state.closed = state.closed := by
  obtain ⟨_, _, _, received⟩ := exists_receiveLeft_eq state block
  rw [received]

end JoinState

namespace BroadcastJoin

variable {Left Right : Type} [Operator Left]

/-- Taking a block from the left child is receiving it. -/
theorem pullLeft_eq_receive (join : BroadcastJoin Left Right) :
    join.pullLeft =
      let answer := join.state.receiveLeft (Operator.pull join.left).block
      ⟨answer.block, ⟨answer.state, (Operator.pull join.left).next, join.right⟩,
        (Operator.pull join.left).events ++ answer.events⟩ := by
  obtain ⟨state, left, right⟩ := join
  cases answer : (Operator.pull left).block with
  | idle => simp only [pullLeft_idle answer, JoinState.receiveLeft, List.append_nil]
  | ended => simp only [pullLeft_ended answer, JoinState.receiveLeft]
  | failed cause =>
      simp only [pullLeft_failed answer, JoinState.receiveLeft, JoinState.fail]
  | data batch => simp only [pullLeft_data answer, JoinState.receiveLeft]

variable [Drainable Right]

/-- What comes of the next block of the right child. -/
def receivedRight (join : BroadcastJoin Left Right) : Received :=
  join.state.beginBuild.receiveRight (Operator.pull join.right).block

/-- The join behind the next block of its right child. -/
def behindRight (join : BroadcastJoin Left Right) : BroadcastJoin Left Right :=
  ⟨join.receivedRight.state, join.left, (Operator.pull join.right).next⟩

/-- The events of the next block of the right child. -/
def rightEvents (join : BroadcastJoin Left Right) : List Event :=
  (Operator.pull join.right).events ++ join.receivedRight.events

variable {join : BroadcastJoin Left Right}

/-- A pull that receives a right block and answers. -/
theorem pullRight_of_answer
    {answered : Block}
    (answers : join.receivedRight.answer? = some answered) :
    join.pullRight = ⟨answered, join.behindRight, join.rightEvents⟩ := by
  obtain ⟨state, left, right⟩ := join
  simp only [behindRight, rightEvents, receivedRight] at answers ⊢
  cases answer : (Operator.pull right).block with
  | idle =>
      rw [answer] at answers
      cases answers
      simp only [pullRight_idle answer, JoinState.receiveRight, List.append_nil]
  | ended =>
      rw [answer] at answers
      cases answers
  | failed cause =>
      rw [answer] at answers
      cases answers
      simp only [pullRight_failed answer, JoinState.receiveRight]
  | data batch =>
      simp only [answer, JoinState.receiveRight] at answers ⊢
      cases outcome : state.beginBuild.store batch.rows with
      | ok stored => simp [outcome] at answers
      | error fault =>
          simp only [outcome, Option.some.injEq] at answers
          subst answers
          simp only [pullRight_refused answer outcome]

/-- A pull that receives a right block and goes on. -/
theorem pullRight_of_goesOn
    (goesOn : join.receivedRight.answer? = none) :
    join.pullRight = join.behindRight.advance.after join.rightEvents := by
  obtain ⟨state, left, right⟩ := join
  simp only [behindRight, rightEvents, receivedRight] at goesOn ⊢
  rcases JoinState.goesOn_cases goesOn with
    ⟨answer, _⟩ | ⟨batch, stored, answer, outcome, _⟩
  · simp only [pullRight_ended answer, answer, JoinState.receiveRight]
    rfl
  · have building : stored.phase = .building := JoinState.phase_store outcome
    simp only [pullRight_stored answer outcome, answer, JoinState.receiveRight,
      outcome, advance, building]

/-- Before the right child has ended, going on is draining it. -/
theorem advance_of_beforeProbing
    (beforeProbing : join.state.phase.isBeforeProbing = true) :
    join.advance = join.pullRight := by
  cases position : join.state.phase <;>
    simp_all [advance, Phase.isBeforeProbing]

/-- A join that may pull answers what comes of going on where it stands. -/
theorem pull_of_isActive
    (active : join.state.isActive = true) :
    join.pull = join.framed join.advance := by
  obtain ⟨opened, beforeProbing | probing⟩ := JoinState.running_of_isActive active
  · rw [pull_of_beforeProbing beforeProbing opened,
      advance_of_beforeProbing beforeProbing]
  · rw [pull_of_probing probing opened]
    simp only [advance, probing]

/--
To show a property of a pull that is let through, it is enough to show it of a pull
that takes a left block, of one that answers a right block, and of one that goes on
behind a right block, from the property of the rest.
-/
theorem advance_induction
    {motive : BroadcastJoin Left Right → Pull (BroadcastJoin Left Right) → Prop}
    (takesLeft :
      ∀ join, join.state.closed = false → join.state.phase = .probing →
        motive join join.pullLeft)
    (answersRight :
      ∀ join answered, join.state.closed = false →
        join.state.phase.isBeforeProbing = true →
        join.receivedRight.answer? = some answered →
        motive join ⟨answered, join.behindRight, join.rightEvents⟩)
    (goesOnRight :
      ∀ join, join.state.closed = false → join.state.phase.isBeforeProbing = true →
        join.receivedRight.answer? = none →
        motive join.behindRight join.behindRight.advance →
        motive join (join.behindRight.advance.after join.rightEvents))
    (active : join.state.isActive = true) :
    motive join join.advance := by
  -- Each stored block leaves less in the right child, so there are finitely many of
  -- them.
  induction bounded : Drainable.burst join.right using Nat.strongRecOn
    generalizing join with
  | ind bound inductionHypothesis =>
      have atLeft :
          ∀ join : BroadcastJoin Left Right,
            join.state.closed = false → join.state.phase = .probing →
              motive join join.advance := by
        intro join opened probing
        have taken := takesLeft join opened probing
        simp only [advance, probing]
        exact taken
      obtain ⟨opened, beforeProbing | probing⟩ :=
        JoinState.running_of_isActive active
      · rw [advance_of_beforeProbing beforeProbing]
        cases outcome : join.receivedRight.answer? with
        | some answered =>
            rw [pullRight_of_answer outcome]
            exact answersRight join answered opened beforeProbing outcome
        | none =>
            rw [pullRight_of_goesOn outcome]
            apply goesOnRight join opened beforeProbing outcome
            rcases JoinState.goesOn_cases outcome with
                ⟨_, turned⟩ | ⟨batch, stored, answer, storing, kept⟩
            · apply atLeft
              · exact (congrArg JoinState.closed turned).trans opened
              · exact congrArg JoinState.phase turned
            · have drops := JoinState.burst_pull_lt answer
              exact
                inductionHypothesis _ (bounded ▸ drops)
                  (JoinState.isActive_of_goesOn opened outcome) rfl
      · exact atLeft join opened probing

/--
A relation of states that every received block respects holds between the ends of a
pull.
-/
theorem related_pull
    {related : JoinState → JoinState → Prop}
    (refl : ∀ state, related state state)
    (trans :
      ∀ {first second third},
        related first second → related second third → related first third)
    (receivesRight :
      ∀ state block, related state (state.beginBuild.receiveRight block).state)
    (receivesLeft : ∀ state block, related state (state.receiveLeft block).state)
    (join : BroadcastJoin Left Right) :
    related join.state join.pull.next.state := by
  cases active : join.state.isActive with
  | false =>
      rw [(pull_of_inactive active).2]
      exact refl join.state
  | true =>
      rw [pull_of_isActive active]
      apply advance_induction
        (motive := fun join pulled => related join.state pulled.next.state) _ _ _
        active
      · intro join _ _
        rw [pullLeft_eq_receive]
        exact receivesLeft join.state (Operator.pull join.left).block
      · exact
          fun join _ _ _ _ =>
            receivesRight join.state (Operator.pull join.right).block
      · exact fun join _ _ _ later =>
          trans (receivesRight join.state (Operator.pull join.right).block) later

/-- A join pulls its children and does nothing else to them. -/
theorem children_pull
    {leftProperty : Left → Prop}
    {rightProperty : Right → Prop}
    (leftPulled :
      ∀ left, leftProperty left → leftProperty (Operator.pull left).next)
    (rightPulled :
      ∀ right, rightProperty right → rightProperty (Operator.pull right).next)
    (leftHolds : leftProperty join.left)
    (rightHolds : rightProperty join.right) :
    leftProperty join.pull.next.left ∧ rightProperty join.pull.next.right := by
  cases active : join.state.isActive with
  | false =>
      rw [(pull_of_inactive active).2]
      exact ⟨leftHolds, rightHolds⟩
  | true =>
      rw [pull_of_isActive active]
      revert leftHolds rightHolds
      apply advance_induction
        (motive := fun join pulled =>
          leftProperty join.left → rightProperty join.right →
            leftProperty pulled.next.left ∧ rightProperty pulled.next.right)
        _ _ _ active
      · intro join _ _ leftHolds rightHolds
        rw [pullLeft_eq_receive]
        exact ⟨leftPulled join.left leftHolds, rightHolds⟩
      · exact fun join _ _ _ _ leftHolds rightHolds =>
          ⟨leftHolds, rightPulled join.right rightHolds⟩
      · exact fun join _ _ _ later leftHolds rightHolds =>
          later leftHolds (rightPulled join.right rightHolds)

/-- A pull does not close a join. -/
theorem closed_pull (join : BroadcastJoin Left Right) :
    join.pull.next.state.closed = join.state.closed := by
  let sameClosed (first later : JoinState) : Prop := later.closed = first.closed
  have trans : ∀ {first second third},
      sameClosed first second → sameClosed second third → sameClosed first third :=
    fun earlier later => later.trans earlier
  exact
    related_pull (fun _ => show sameClosed _ _ from rfl) trans
      (fun _ _ => JoinState.closed_receiveRight)
      (fun _ _ => JoinState.closed_receiveLeft) join

end BroadcastJoin

end StreamJoin
