import StreamJoin.Proofs.ReceivedBlocks
import StreamJoin.Proofs.Script
import StreamJoin.Proofs.TerminalBlocks

namespace StreamJoin

/-!
# What an operator says between idle blocks

An operator speaks when it answers a block other than an idle one.  Whoever pulls
again at each idle block sees only the spoken blocks; `Speaks` is one step of that
and `Says` the whole of it, after any number of pulls.

A join speaks when its children do.  If a child is idle, so is the join, and it
keeps what it received; so a step of a join follows from a step of the child that it
waits for, however many idle blocks stand in between.
-/

/-- The blocks of a list other than idle ones. -/
def spokenOf (blocks : List Block) : List Block :=
  blocks.filter fun block => !block.isIdle

namespace Operator

variable {State : Type} [Operator State]

/-- What an operator answers to its first pulls. -/
def firstAnswers : (count : Nat) → State → List Block
  | 0, _ => []
  | count + 1, state => (pull state).block :: firstAnswers count (pull state).next

/-- The blocks that an operator has said after some number of pulls. -/
def Says (state : State) (blocks : List Block) : Prop :=
  ∃ count, spokenOf (firstAnswers count state) = blocks

/-- An operator that has answered a terminal block after some number of pulls. -/
def HasEnded (count : Nat) (state : State) : Prop :=
  ∃ block ∈ firstAnswers count state, block.isTerminal = true

/-- The first block that an operator says, and its state behind it. -/
inductive Speaks : State → Block → State → Prop where
  | now
      {state next : State}
      {block : Block}
      (answer : (pull state).block = block)
      (spoken : block.isIdle = false)
      (next_eq : (pull state).next = next) :
      Speaks state block next
  | later
      {state next : State}
      {block : Block}
      (silent : (pull state).block = .idle)
      (speaks : Speaks (pull state).next block next) :
      Speaks state block next

/--
Two states that say the same block first, whatever idle blocks stand before it, and
are related behind it.
-/
def SpeakAlike (related : State → State → Prop) (first second : State) : Prop :=
  ∃ block firstNext secondNext,
    Speaks first block firstNext ∧ Speaks second block secondNext ∧
      related firstNext secondNext

/-- A relation between states that speak alike and stay related. -/
def Aligned (related : State → State → Prop) : Prop :=
  ∀ first second, related first second → SpeakAlike related first second

variable {state next : State} {block : Block} {blocks : List Block}

namespace Speaks

/-- States whose pulls have the same outcome say the same. -/
theorem of_same_pull
    {other : State}
    (sameBlock : (pull state).block = (pull other).block)
    (sameNext : (pull state).next = (pull other).next)
    (speaks : Speaks other block next) :
    Speaks state block next := by
  cases speaks with
  | now answer spoken next_eq =>
      exact .now (sameBlock.trans answer) spoken (sameNext.trans next_eq)
  | later silent later => exact .later (sameBlock.trans silent) (sameNext ▸ later)

/-- A block that ends nothing uses up what is left of an exhaustible operator. -/
theorem remaining_lt
    {State : Type}
    [Exhaustible State]
    {state next : State}
    (speaks : Speaks state block next)
    (goesOn : block.isTerminal = false) :
    Exhaustible.remaining next < Exhaustible.remaining state := by
  induction speaks with
  | @now state _ _ answer _ next_eq =>
      have drops := Exhaustible.remaining_lt state
      rw [answer, next_eq] at drops
      exact drops goesOn
  | @later state _ _ silent _ inductionHypothesis =>
      have drops := Exhaustible.remaining_lt state
      rw [silent] at drops
      exact Nat.lt_trans (inductionHypothesis goesOn) (drops rfl)

/--
If terminal answers leave a state as it is, what was said last is said for ever.
-/
theorem next_eq
    (stays :
      ∀ state : State, (pull state).block.isTerminal = true →
        (pull (pull state).next).next = (pull state).next)
    (speaks : Speaks state block next)
    (terminal : block.isTerminal = true) :
    (pull next).next = next := by
  induction speaks with
  | now answer _ next_eq =>
      subst answer next_eq
      exact stays _ terminal
  | later _ _ inductionHypothesis => exact inductionHypothesis terminal

/--
The first block that is said stands among the answers up to a terminal one, and what
was pulled behind it is pulled from the state behind it.
-/
theorem exists_fewer_pulls
    {count : Nat}
    (speaks : Speaks state block next)
    (ended : HasEnded count state) :
    ∃ fewer, fewer < count ∧ afterPulls count state = afterPulls fewer next ∧
      (block.isTerminal = false → HasEnded fewer next) := by
  induction speaks generalizing count with
  | now answer _ next_eq =>
      subst answer next_eq
      obtain ⟨last, member, terminal⟩ := ended
      cases count with
      | zero => cases member
      | succ fewer =>
          refine ⟨fewer, Nat.lt_succ_self fewer, rfl, fun goesOn => ?_⟩
          rcases List.mem_cons.mp member with rfl | later
          · rw [terminal] at goesOn
            cases goesOn
          · exact ⟨last, later, terminal⟩
  | later silent _ inductionHypothesis =>
      obtain ⟨last, member, terminal⟩ := ended
      cases count with
      | zero => cases member
      | succ count =>
          rcases List.mem_cons.mp member with rfl | later
          · rw [silent] at terminal
            cases terminal
          · obtain ⟨fewer, isFewer, same, goesOn⟩ :=
              inductionHypothesis ⟨last, later, terminal⟩
            exact ⟨fewer, Nat.lt_succ_of_lt isFewer, same, goesOn⟩

end Speaks

/-- A state that a pull does not change stays as it is. -/
theorem afterPulls_of_fixed (fixed : (pull state).next = state) (count : Nat) :
    afterPulls count state = state := by
  induction count with
  | zero => rfl
  | succ count inductionHypothesis =>
      rw [afterPulls, fixed]
      exact inductionHypothesis

/--
Whoever pulls an exhaustible operator often enough is answered a terminal block.
-/
theorem exists_hasEnded {State : Type} [Exhaustible State] (state : State) :
    ∃ count, HasEnded count state := by
  induction bounded : Exhaustible.remaining state using Nat.strongRecOn
    generalizing state with
  | ind bound inductionHypothesis =>
      cases terminal : (pull state).block.isTerminal with
      | true => exact ⟨1, (pull state).block, List.mem_cons_self, terminal⟩
      | false =>
          have drops := Exhaustible.remaining_lt state terminal
          obtain ⟨count, last, member, lastTerminal⟩ :=
            inductionHypothesis _ (bounded ▸ drops) (pull state).next rfl
          exact ⟨count + 1, last, List.mem_cons_of_mem _ member, lastTerminal⟩

/-- An idle block is not spoken. -/
theorem spokenOf_cons_idle (rest : List Block) :
    spokenOf (.idle :: rest) = spokenOf rest := rfl

/-- Any other block is spoken. -/
theorem spokenOf_cons_of_spoken
    (rest : List Block)
    (spoken : block.isIdle = false) :
    spokenOf (block :: rest) = block :: spokenOf rest := by
  simp only [spokenOf, List.filter_cons, spoken, Bool.not_false, if_true]

/-- To say nothing takes no pull. -/
theorem says_nil (state : State) : Says state [] := ⟨0, rfl⟩

/-- What is said behind an idle block is said. -/
theorem says_of_silent
    (silent : (pull state).block = .idle)
    (later : Says (pull state).next blocks) :
    Says state blocks := by
  obtain ⟨count, said⟩ := later
  refine ⟨count + 1, ?_⟩
  rw [firstAnswers, silent, spokenOf_cons_idle, said]

/-- A block that is spoken is said in front of what is said behind it. -/
theorem says_of_spoken
    (spoken : (pull state).block.isIdle = false)
    (later : Says (pull state).next blocks) :
    Says state ((pull state).block :: blocks) := by
  obtain ⟨count, said⟩ := later
  refine ⟨count + 1, ?_⟩
  rw [firstAnswers, spokenOf_cons_of_spoken _ spoken, said]

/--
Behind the first block that an operator says come the blocks that it says there.
-/
theorem Speaks.says_cons
    (speaks : Speaks state block next)
    (later : Says next blocks) :
    Says state (block :: blocks) := by
  induction speaks with
  | now answer spoken next_eq =>
      subst answer next_eq
      exact says_of_spoken spoken later
  | later silent _ inductionHypothesis =>
      exact says_of_silent silent (inductionHypothesis later)

section Related

variable {related : State → State → Prop} {first second : State}

/-- Two operators still speak alike behind an idle block of one of them. -/
theorem SpeakAlike.of_silent
    (silent : (pull first).block = .idle)
    (alike : SpeakAlike related first second) :
    SpeakAlike related (pull first).next second := by
  obtain ⟨block, firstNext, secondNext, firstSpeaks, secondSpeaks, stillRelated⟩ :=
    alike
  cases firstSpeaks with
  | now answer spoken _ =>
      rw [← answer, silent] at spoken
      cases spoken
  | later _ later =>
      exact ⟨block, firstNext, secondNext, later, secondSpeaks, stillRelated⟩

/-- What one of two aligned states says, the other one says too. -/
theorem says_of_alike
    (aligned : Aligned related)
    (alike : SpeakAlike related first second)
    (firstSays : Says first blocks) :
    Says second blocks := by
  obtain ⟨count, rfl⟩ := firstSays
  induction count generalizing first second with
  | zero => exact says_nil second
  | succ count inductionHypothesis =>
      by_cases silent : (pull first).block = .idle
      · rw [firstAnswers, silent, spokenOf_cons_idle]
        exact inductionHypothesis (alike.of_silent silent)
      · obtain ⟨block, firstNext, secondNext, firstSpeaks, secondSpeaks,
          stillRelated⟩ := alike
        cases firstSpeaks with
        | later idle _ => exact absurd idle silent
        | now answer spoken next_eq =>
            subst answer next_eq
            rw [firstAnswers, spokenOf_cons_of_spoken _ spoken]
            apply secondSpeaks.says_cons
            exact inductionHypothesis (aligned _ _ stillRelated)

/-- Two aligned states that were pulled up to their ends are related there. -/
theorem related_of_ended
    {count others : Nat}
    (aligned : Aligned related)
    (stays :
      ∀ state : State, (pull state).block.isTerminal = true →
        (pull (pull state).next).next = (pull state).next)
    (pair : related first second)
    (ended : HasEnded count first)
    (otherEnded : HasEnded others second) :
    related (afterPulls count first) (afterPulls others second) := by
  induction count using Nat.strongRecOn generalizing first second others with
  | ind count inductionHypothesis =>
      obtain ⟨block, firstNext, secondNext, firstSpeaks, secondSpeaks,
        stillRelated⟩ := aligned first second pair
      obtain ⟨fewer, isFewer, firstSame, firstGoesOn⟩ :=
        firstSpeaks.exists_fewer_pulls ended
      obtain ⟨otherFewer, _, secondSame, secondGoesOn⟩ :=
        secondSpeaks.exists_fewer_pulls otherEnded
      rw [firstSame, secondSame]
      cases terminal : block.isTerminal with
      | true =>
          rw [afterPulls_of_fixed (firstSpeaks.next_eq stays terminal),
            afterPulls_of_fixed (secondSpeaks.next_eq stays terminal)]
          exact stillRelated
      | false =>
          exact
            inductionHypothesis fewer isFewer stillRelated (firstGoesOn terminal)
              (secondGoesOn terminal)

end Related

end Operator

namespace JoinState

variable {state : JoinState} {block : Block}

/-- The last block of a join is not idle. -/
theorem isIdle_lastBlock : state.lastBlock.isIdle = false := by
  unfold lastBlock
  split <;> rfl

end JoinState

namespace BroadcastJoin

variable {Left Right : Type} [Operator Left]
variable {state : JoinState} {left leftNext : Left} {right rightNext : Right}
variable {block answered : Block}

section Steps

variable [Drainable Right]

/-- A join that may not pull says its last block and stays as it is. -/
theorem speaks_of_inactive
    {join : BroadcastJoin Left Right}
    (inactive : join.state.isActive = false) :
    Operator.Speaks join join.state.lastBlock join :=
  .now (pull_of_inactive inactive).1 JoinState.isIdle_lastBlock
    (pull_of_inactive inactive).2

/-- A join that streams its left input speaks when its left child does. -/
theorem speaks_of_left
    (opened : state.closed = false)
    (probing : state.phase = .probing)
    (speaks : Operator.Speaks left block leftNext) :
    Operator.Speaks (BroadcastJoin.mk state left right)
      (state.receiveLeft block).block
      ⟨(state.receiveLeft block).state, leftNext, right⟩ := by
  induction speaks with
  | @now left _ _ answer spoken next_eq =>
      subst answer next_eq
      have pulled : (BroadcastJoin.mk state left right).pull = _ :=
        pull_of_probing probing opened
      rw [pullLeft_eq_receive] at pulled
      refine .now (congrArg Pull.block pulled) ?_ (congrArg Pull.next pulled)
      exact JoinState.isIdle_receiveLeft.trans spoken
  | @later left _ _ silent _ inductionHypothesis =>
      have pulled : (BroadcastJoin.mk state left right).pull = _ :=
        pull_of_probing probing opened
      rw [pullLeft_eq_receive, silent] at pulled
      apply Operator.Speaks.later (congrArg Pull.block pulled)
      have next_eq := congrArg Pull.next pulled
      exact next_eq ▸ inductionHypothesis

/-- An idle right child makes the join idle, which has begun to build then. -/
theorem speaks_of_silentRight
    (beforeProbing : state.phase.isBeforeProbing = true)
    (opened : state.closed = false)
    (silent : (Operator.pull right).block = .idle)
    {final : BroadcastJoin Left Right}
    (later :
      Operator.Speaks
        (BroadcastJoin.mk state.beginBuild left (Operator.pull right).next) answered
        final) :
    Operator.Speaks (BroadcastJoin.mk state left right) answered final := by
  have pulled : (BroadcastJoin.mk state left right).pull = _ :=
    pull_of_beforeProbing beforeProbing opened
  rw [pullRight_idle silent] at pulled
  apply Operator.Speaks.later (congrArg Pull.block pulled)
  have next_eq := congrArg Pull.next pulled
  exact next_eq ▸ later

/-- A right block that the join answers is said by the join. -/
theorem speaks_of_right_answer
    (beforeProbing : state.phase.isBeforeProbing = true)
    (opened : state.closed = false)
    (speaks : Operator.Speaks right block rightNext)
    (answers : (state.beginBuild.receiveRight block).answer? = some answered) :
    Operator.Speaks (BroadcastJoin.mk state left right) answered
      ⟨(state.beginBuild.receiveRight block).state, left, rightNext⟩ := by
  induction speaks generalizing state with
  | @now right _ _ answer spoken next_eq =>
      subst answer next_eq
      have received :
          (BroadcastJoin.mk state left right).receivedRight.answer? =
            some answered := answers
      have pulled : (BroadcastJoin.mk state left right).pull = _ :=
        pull_of_beforeProbing beforeProbing opened
      rw [pullRight_of_answer received] at pulled
      refine .now (congrArg Pull.block pulled) ?_ (congrArg Pull.next pulled)
      exact (JoinState.isIdle_of_receiveRight answers).trans spoken
  | later silent _ inductionHypothesis =>
      apply speaks_of_silentRight beforeProbing opened silent
      exact inductionHypothesis rfl opened answers

/-- Behind a right block that the join does not answer, the same pull goes on. -/
theorem speaks_of_right_goesOn
    {final : BroadcastJoin Left Right}
    (beforeProbing : state.phase.isBeforeProbing = true)
    (opened : state.closed = false)
    (speaks : Operator.Speaks right block rightNext)
    (goesOn : (state.beginBuild.receiveRight block).answer? = none)
    (later :
      Operator.Speaks
        (BroadcastJoin.mk (state.beginBuild.receiveRight block).state left
          rightNext)
        answered final) :
    Operator.Speaks (BroadcastJoin.mk state left right) answered final := by
  induction speaks generalizing state with
  | @now right _ _ answer spoken next_eq =>
      subst answer next_eq
      have received :
          (BroadcastJoin.mk state left right).receivedRight.answer? = none := goesOn
      have pulled : (BroadcastJoin.mk state left right).pull = _ :=
        pull_of_beforeProbing beforeProbing opened
      rw [pullRight_of_goesOn received] at pulled
      have active := JoinState.isActive_of_goesOn opened goesOn
      have pulledLater :
          (BroadcastJoin.mk
              (state.beginBuild.receiveRight (Operator.pull right).block).state left
              (Operator.pull right).next).pull = _ :=
        pull_of_isActive active
      refine Operator.Speaks.of_same_pull ?_ ?_ later
      · exact
          (congrArg Pull.block pulled).trans (congrArg Pull.block pulledLater).symm
      · exact
          (congrArg Pull.next pulled).trans (congrArg Pull.next pulledLater).symm
  | later silent _ inductionHypothesis =>
      apply speaks_of_silentRight beforeProbing opened silent
      exact inductionHypothesis rfl opened goesOn later

end Steps

/-- Two joins in the same state over related children. -/
structure Related
    (leftRelated : Left → Left → Prop)
    (rightRelated : Right → Right → Prop)
    (first second : BroadcastJoin Left Right) : Prop where
  state_eq : first.state = second.state
  left : leftRelated first.left second.left
  right : rightRelated first.right second.right

section Alike

variable {leftRelated : Left → Left → Prop} {rightRelated : Right → Right → Prop}
variable {otherLeft : Left} {otherRight : Right}

/-- Two joins that probe speak alike if their left children do. -/
theorem speakAlike_probing
    [Drainable Right]
    (leftAligned : Operator.Aligned leftRelated)
    (opened : state.closed = false)
    (probing : state.phase = .probing)
    (leftAlike : leftRelated left otherLeft)
    (rightAlike : rightRelated right otherRight) :
    Operator.SpeakAlike (Related leftRelated rightRelated) ⟨state, left, right⟩
      ⟨state, otherLeft, otherRight⟩ := by
  obtain ⟨block, leftNext, otherNext, speaks, otherSpeaks, nextAlike⟩ :=
    leftAligned left otherLeft leftAlike
  exact
    ⟨_, _, _, speaks_of_left opened probing speaks,
      speaks_of_left opened probing otherSpeaks, ⟨rfl, nextAlike, rightAlike⟩⟩

/--
While the right child is drained, two joins receive the same blocks, until they
answer one or turn to their left children.
-/
theorem speakAlike_building
    [Exhaustible Right]
    (leftAligned : Operator.Aligned leftRelated)
    (rightAligned : Operator.Aligned rightRelated)
    (beforeProbing : state.phase.isBeforeProbing = true)
    (opened : state.closed = false)
    (leftAlike : leftRelated left otherLeft)
    (rightAlike : rightRelated right otherRight) :
    Operator.SpeakAlike (Related leftRelated rightRelated) ⟨state, left, right⟩
      ⟨state, otherLeft, otherRight⟩ := by
  -- Each stored block leaves less in the right child, so there are finitely many of
  -- them.
  induction bounded : Exhaustible.remaining right using Nat.strongRecOn
    generalizing state right otherRight with
  | ind bound inductionHypothesis =>
      obtain ⟨block, rightNext, otherNext, speaks, otherSpeaks, nextAlike⟩ :=
        rightAligned right otherRight rightAlike
      cases outcome : (state.beginBuild.receiveRight block).answer? with
      | some answered =>
          exact
            ⟨_, _, _, speaks_of_right_answer beforeProbing opened speaks outcome,
              speaks_of_right_answer beforeProbing opened otherSpeaks outcome,
              ⟨rfl, leftAlike, nextAlike⟩⟩
      | none =>
          have laterAlike :
              Operator.SpeakAlike (Related leftRelated rightRelated)
                ⟨(state.beginBuild.receiveRight block).state, left, rightNext⟩
                ⟨(state.beginBuild.receiveRight block).state, otherLeft,
                  otherNext⟩ := by
            rcases JoinState.goesOn_cases outcome with
                ⟨_, turned⟩ | ⟨batch, stored, rfl, storing, kept⟩
            · rw [turned]
              exact speakAlike_probing leftAligned opened rfl leftAlike nextAlike
            · have lower := speaks.remaining_lt rfl
              obtain ⟨_, samePhase, sameClosed⟩ :=
                JoinState.samePosition_store storing
              rw [kept]
              apply inductionHypothesis _ (bounded ▸ lower) _ _ nextAlike rfl
              · rw [samePhase]
                rfl
              · exact sameClosed.trans opened
          obtain ⟨answered, final, otherFinal, later, otherLater, related⟩ :=
            laterAlike
          exact
            ⟨answered, final, otherFinal,
              speaks_of_right_goesOn beforeProbing opened speaks outcome later,
              speaks_of_right_goesOn beforeProbing opened otherSpeaks outcome
                otherLater,
              related⟩

/-- Joins in the same state speak alike if their children do. -/
theorem aligned_related
    [Exhaustible Right]
    (leftAligned : Operator.Aligned leftRelated)
    (rightAligned : Operator.Aligned rightRelated) :
    Operator.Aligned (Related leftRelated rightRelated) := by
  rintro ⟨state, left, right⟩ ⟨otherState, otherLeft, otherRight⟩
    ⟨rfl, leftAlike, rightAlike⟩
  cases active : state.isActive with
  | false =>
      exact
        ⟨_, _, _, speaks_of_inactive active, speaks_of_inactive active,
          ⟨rfl, leftAlike, rightAlike⟩⟩
  | true =>
      obtain ⟨opened, beforeProbing | probing⟩ :=
        JoinState.running_of_isActive active
      · exact
          speakAlike_building leftAligned rightAligned beforeProbing opened
            leftAlike rightAlike
      · exact speakAlike_probing leftAligned opened probing leftAlike rightAlike

end Alike

end BroadcastJoin

end StreamJoin
