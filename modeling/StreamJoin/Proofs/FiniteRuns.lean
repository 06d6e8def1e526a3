import Mathlib.Algebra.Ring.Nat
import StreamJoin.Join.Tree
import StreamJoin.Proofs.JoinLedger

namespace StreamJoin

/-!
# Every run of a tree is finite

Pulling a join runs a loop that pulls its right child, which may be a join with a
loop of its own.  `Tree.Returns` describes pulls by rules that promise nothing about
these loops: a pull returns if it has a finite derivation.  Every pull of a tree has
one.

How much a tree still hands out is bounded by what its sources have queued and by
the sweeps that are still to come.  A sweep hands out a block that nobody has
queued, so the queues alone are no bound.  Each answer that ends nothing is paid for
at the place it comes from, and a join passes the account of its children on.
-/

/-- What comes of a pull, its events apart. -/
def Operator.PullsTo {State : Type} [Operator State] (state : State) (block : Block)
    (next : State) : Prop :=
  (pull state).block = block ∧ (pull state).next = next

namespace BroadcastJoin

variable {Left Right : Type}

/--
What comes of a pull that is let through, if `leftReturns` and `rightReturns` say
what comes of the pulls of the children.  Each right block behind which the pull
goes on is one turn of the build loop.
-/
inductive Advances
    (leftReturns : Left → Block → Left → Prop)
    (rightReturns : Right → Block → Right → Prop) :
    BroadcastJoin Left Right → Block → BroadcastJoin Left Right → Prop where
  | takesLeft
      {state : JoinState}
      {left leftNext : Left}
      {right : Right}
      {block : Block}
      (probing : state.phase = .probing)
      (returned : leftReturns left block leftNext) :
      Advances leftReturns rightReturns ⟨state, left, right⟩
        (state.receiveLeft block).block
        ⟨(state.receiveLeft block).state, leftNext, right⟩
  | answersRight
      {state : JoinState}
      {left : Left}
      {right rightNext : Right}
      {block answered : Block}
      (beforeProbing : state.phase.isBeforeProbing = true)
      (returned : rightReturns right block rightNext)
      (answers : (state.beginBuild.receiveRight block).answer? = some answered) :
      Advances leftReturns rightReturns ⟨state, left, right⟩ answered
        ⟨(state.beginBuild.receiveRight block).state, left, rightNext⟩
  | goesOnRight
      {state : JoinState}
      {left : Left}
      {right rightNext : Right}
      {block answered : Block}
      {final : BroadcastJoin Left Right}
      (beforeProbing : state.phase.isBeforeProbing = true)
      (returned : rightReturns right block rightNext)
      (goesOn : (state.beginBuild.receiveRight block).answer? = none)
      (later :
        Advances leftReturns rightReturns
          ⟨(state.beginBuild.receiveRight block).state, left, rightNext⟩ answered
          final) :
      Advances leftReturns rightReturns ⟨state, left, right⟩ answered final

/-- What comes of any pull of a join. -/
inductive Returns
    (leftReturns : Left → Block → Left → Prop)
    (rightReturns : Right → Block → Right → Prop) :
    BroadcastJoin Left Right → Block → BroadcastJoin Left Right → Prop where
  | stopped
      {join : BroadcastJoin Left Right}
      (inactive : join.state.isActive = false) :
      Returns leftReturns rightReturns join join.state.lastBlock join
  | running
      {join final : BroadcastJoin Left Right}
      {answered : Block}
      (active : join.state.isActive = true)
      (advances : Advances leftReturns rightReturns join answered final) :
      Returns leftReturns rightReturns join answered final

section Pulls

variable [Operator Left] [Drainable Right]
variable {join final : BroadcastJoin Left Right} {answered : Block}

/-- What was described of going on is what going on does. -/
theorem advance_eq_of_advances
    (advances : Advances Operator.PullsTo Operator.PullsTo join answered final) :
    join.advance.block = answered ∧ join.advance.next = final := by
  induction advances with
  | takesLeft probing returned =>
      obtain ⟨rfl, rfl⟩ := returned
      simp only [advance, probing, pullLeft_eq_receive]
      exact ⟨trivial, trivial⟩
  | @answersRight state left right _ _ _ beforeProbing returned answers =>
      obtain ⟨rfl, rfl⟩ := returned
      have received :
          (BroadcastJoin.mk state left right).receivedRight.answer? = some _ :=
        answers
      rw [advance_of_beforeProbing beforeProbing, pullRight_of_answer received]
      exact ⟨rfl, rfl⟩
  | @goesOnRight state left right _ _ _ _ beforeProbing returned goesOn _
      inductionHypothesis =>
        obtain ⟨rfl, rfl⟩ := returned
        have received :
            (BroadcastJoin.mk state left right).receivedRight.answer? = none :=
          goesOn
        rw [advance_of_beforeProbing beforeProbing, pullRight_of_goesOn received]
        exact inductionHypothesis

/-- Going on is described by the pulls of the children that it makes. -/
theorem advances_advance (active : join.state.isActive = true) :
    Advances Operator.PullsTo Operator.PullsTo join join.advance.block
      join.advance.next := by
  apply advance_induction
    (motive := fun join pulled =>
      Advances Operator.PullsTo Operator.PullsTo join pulled.block pulled.next)
    _ _ _ active
  · intro join _ probing
    rw [pullLeft_eq_receive]
    exact .takesLeft probing ⟨rfl, rfl⟩
  · exact fun join answered _ beforeProbing answers =>
      .answersRight beforeProbing ⟨rfl, rfl⟩ answers
  · exact fun join _ beforeProbing goesOn later =>
      .goesOnRight beforeProbing ⟨rfl, rfl⟩ goesOn later

/--
If the pulls of the children return, so does the pull of a join, with what it
answers.
-/
theorem returns_iff_pullsTo :
    Returns Operator.PullsTo Operator.PullsTo join answered final ↔
      Operator.PullsTo join answered final := by
  constructor
  · intro returns
    cases returns with
    | stopped inactive => exact pull_of_inactive inactive
    | running active advances =>
        have pulled : Operator.pull join = _ := pull_of_isActive active
        rw [Operator.PullsTo, pulled]
        exact advance_eq_of_advances advances
  · rintro ⟨rfl, rfl⟩
    cases active : join.state.isActive with
    | false =>
        obtain ⟨block_eq, next_eq⟩ := pull_of_inactive active
        have answered_eq : (Operator.pull join).block = join.state.lastBlock :=
          block_eq
        have final_eq : (Operator.pull join).next = join := next_eq
        rw [answered_eq, final_eq]
        exact .stopped active
    | true =>
        have pulled : Operator.pull join = _ := pull_of_isActive active
        rw [pulled]
        exact .running active (advances_advance active)

end Pulls

end BroadcastJoin

/--
What comes of pulling a tree, by the rules alone: a source hands out the first block
that it has queued, or its end, and a join follows the rules of joins.
-/
def Tree.Returns : {shape : Shape} → Tree shape → Block → Tree shape → Prop
  | .source, tree, block, next =>
      let source : Replay := tree
      let final : Replay := next
      source.queued.headD .ended = block ∧
        final = ⟨source.queued.tail, source.pulls + 1, source.closed⟩
  | .join _ _, tree, block, next =>
      BroadcastJoin.Returns Tree.Returns Tree.Returns tree block next

/-- A queued source answers its first block and keeps the others. -/
theorem Replay.pullsTo_iff {source final : Replay} {block : Block} :
    Operator.PullsTo source block final ↔
      source.queued.headD .ended = block ∧
        final = ⟨source.queued.tail, source.pulls + 1, source.closed⟩ := by
  obtain ⟨queued, pulls, closed⟩ := source
  cases queued with
  | nil => exact and_congr_right' eq_comm
  | cons first rest => exact and_congr_right' eq_comm

/-- Every pull of a tree returns what the tree answers, and nothing else. -/
theorem Tree.returns_iff_pullsTo
    {shape : Shape}
    {tree next : Tree shape}
    {block : Block} :
    tree.Returns block next ↔ Operator.PullsTo tree block next := by
  induction shape generalizing block with
  | source => exact Replay.pullsTo_iff.symm
  | join leftShape rightShape leftHypothesis rightHypothesis =>
      have leftReturns :
          (Tree.Returns : Tree leftShape → _) = Operator.PullsTo := by
        funext left block leftNext
        exact propext leftHypothesis
      have rightReturns :
          (Tree.Returns : Tree rightShape → _) = Operator.PullsTo := by
        funext right block rightNext
        exact propext rightHypothesis
      rw [Tree.Returns, leftReturns, rightReturns]
      exact BroadcastJoin.returns_iff_pullsTo

/-- One for a block that ends nothing. -/
def Block.cost (block : Block) : Nat := (!block.isTerminal).toNat

/-- How many blocks of a list end nothing. -/
def costOf (blocks : List Block) : Nat :=
  blocks.countP fun block => !block.isTerminal

/-- The cost of a list of blocks is that of its first block and of the others. -/
theorem costOf_cons (block : Block) (rest : List Block) :
    costOf (block :: rest) = block.cost + costOf rest := by
  rw [costOf, List.countP_cons, Nat.add_comm, costOf, Block.cost]
  cases block.isTerminal <;> rfl

namespace Operator

variable {State : Type} [Operator State]

/-- A budget that pays for each answer that ends nothing, and is never filled up. -/
structure Pays (budget : State → Nat) : Prop where
  pulled :
    ∀ state, budget (pull state).next + (pull state).block.cost ≤ budget state
  closed : ∀ state, budget (close state).next ≤ budget state

namespace Pays

variable {budget : State → Nat}

/--
Whatever is asked of an operator, its budget pays for all answers that end nothing.
-/
theorem costOf_replies_le
    (pays : Pays budget)
    (state : State)
    (calls : List Call) :
    costOf (replies state calls) + budget (afterCalls state calls) ≤
      budget state := by
  induction calls generalizing state with
  | nil => exact Nat.le_of_eq (Nat.zero_add _)
  | cons call rest inductionHypothesis =>
      cases call with
      | pull =>
          have paid := pays.pulled state
          have later := inductionHypothesis (pull state).next
          simp only [replies, costOf_cons, afterCalls, next]
          omega
      | close =>
          have kept := pays.closed state
          have later := inductionHypothesis (close state).next
          simp only [replies, afterCalls, next]
          omega

/-- Reading an operator takes at most one pull more than its budget pays for. -/
theorem gather_isSome
    (pays : Pays budget)
    (bound stalls : Nat)
    {pulls : Nat}
    {state : State}
    (enough : budget state < pulls) :
    (gather bound pulls stalls state).isSome = true := by
  induction pulls generalizing stalls state with
  | zero => omega
  | succ pulls inductionHypothesis =>
      have paid := pays.pulled state
      simp only [gather]
      cases answer : (pull state).block with
      | ended => rfl
      | failed cause => rfl
      | data batch =>
          have costs : (pull state).block.cost = 1 := by rw [answer]; rfl
          rw [Option.isSome_map]
          exact inductionHypothesis 0 (by omega)
      | idle =>
          have costs : (pull state).block.cost = 1 := by rw [answer]; rfl
          by_cases stallsTooLong : bound < stalls + 1
          · simp only [stallsTooLong, if_true, Option.isSome_some]
          · simp only [stallsTooLong, if_false, Option.isSome_map]
            exact inductionHypothesis (stalls + 1) (by omega)

end Pays

/-- Two limits on the pulls that both suffice give the same rows. -/
theorem gather_unique
    {bound pulls others stalls : Nat}
    {state : State}
    {collected other : Collected State}
    (finished : gather bound pulls stalls state = some collected)
    (otherFinished : gather bound others stalls state = some other) :
    collected = other := by
  induction pulls generalizing others stalls state collected other with
  | zero => cases finished
  | succ pulls inductionHypothesis =>
      cases others with
      | zero => cases otherFinished
      | succ others =>
          simp only [gather] at finished otherFinished
          cases answer : (pull state).block with
          | ended =>
              simp only [answer] at finished otherFinished
              exact Option.some.inj (finished.symm.trans otherFinished)
          | failed cause =>
              simp only [answer] at finished otherFinished
              exact Option.some.inj (finished.symm.trans otherFinished)
          | data batch =>
              simp only [answer, Option.map_eq_some_iff] at finished otherFinished
              obtain ⟨later, laterFinished, rfl⟩ := finished
              obtain ⟨otherLater, otherLaterFinished, rfl⟩ := otherFinished
              rw [inductionHypothesis laterFinished otherLaterFinished]
          | idle =>
              simp only [answer] at finished otherFinished
              by_cases stallsTooLong : bound < stalls + 1
              · simp only [stallsTooLong, if_true] at finished otherFinished
                exact Option.some.inj (finished.symm.trans otherFinished)
              · simp only [stallsTooLong, if_false, Option.map_eq_some_iff]
                  at finished otherFinished
                obtain ⟨later, laterFinished, rfl⟩ := finished
                obtain ⟨otherLater, otherLaterFinished, rfl⟩ := otherFinished
                rw [inductionHypothesis laterFinished otherLaterFinished]

end Operator

namespace JoinState

/--
Whether a join has a sweep in front of it: its kind has one, and it has neither
ended nor failed nor been closed.
-/
def awaitsSweep (state : JoinState) : Bool :=
  state.kind.sweepsRight && state.isActive

variable {state later : JoinState} {block answered : Block}

/-- A join that may pull awaits the sweep if its kind has one. -/
theorem awaitsSweep_of_active (active : state.isActive = true) :
    state.awaitsSweep = state.kind.sweepsRight := by
  rw [awaitsSweep, active, Bool.and_true]

/-- No step of a join that may pull brings its sweep back. -/
theorem awaitsSweep_le
    (active : state.isActive = true)
    (plan_eq : later.plan = state.plan) :
    later.awaitsSweep.toNat ≤ state.awaitsSweep.toNat := by
  have kind_eq : later.kind = state.kind := congrArg JoinPlan.kind plan_eq
  rw [awaitsSweep_of_active active, awaitsSweep, kind_eq]
  cases state.kind.sweepsRight <;> cases later.isActive <;> decide

/-- The right block behind which a join answers pays for the answer. -/
theorem cost_receiveRight
    (answers : (state.receiveRight block).answer? = some answered) :
    answered.cost ≤ block.cost := by
  cases block with
  | idle => cases answers; exact Nat.le_refl _
  | ended => cases answers
  | failed cause => cases answers; exact Nat.le_refl _
  | data batch =>
      simp only [receiveRight] at answers
      split at answers
      · cases answers
        exact Nat.zero_le _
      · cases answers

/--
A left block pays for the answer to it, and the sweep pays for the answer to the
end.
-/
theorem cost_receiveLeft (active : state.isActive = true) :
    (state.receiveLeft block).block.cost +
        (state.receiveLeft block).state.awaitsSweep.toNat ≤
      block.cost + state.awaitsSweep.toNat := by
  have sweepKept :
      (state.receiveLeft block).state.awaitsSweep.toNat ≤ state.awaitsSweep.toNat :=
    awaitsSweep_le active plan_receiveLeft
  cases block with
  | idle => exact Nat.add_le_add_left sweepKept _
  | failed cause => exact Nat.add_le_add_left sweepKept _
  | data batch =>
      have atMostOne : (state.receiveLeft (.data batch)).block.cost ≤ 1 :=
        Bool.toNat_le _
      exact Nat.add_le_add atMostOne sweepKept
  | ended =>
      rw [awaitsSweep_of_active active]
      simp only [receiveLeft, finishProbe]
      cases sweeps : state.kind.sweepsRight with
      | false => simp [Block.cost, Block.isTerminal, awaitsSweep, isActive]
      | true =>
          simp [sweep, Block.cost, Block.isTerminal, Block.ofRows, awaitsSweep,
            isActive]

/-- A closed join awaits no sweep. -/
theorem awaitsSweep_release : state.release.awaitsSweep = false := by
  have inactive : state.release.isActive = false := by
    cases position : state.phase <;> simp [isActive, release, position]
  rw [awaitsSweep, inactive, Bool.and_false]

end JoinState

/-- A queued source pays for each pull with a block. -/
theorem Replay.pays :
    Operator.Pays fun source : Replay => source.queued.length where
  pulled source := by
    obtain ⟨queued, pulls, closed⟩ := source
    cases queued with
    | nil => exact Nat.le_refl _
    | cons first rest =>
        have atMostOne : first.cost ≤ 1 := Bool.toNat_le _
        exact Nat.add_le_add_left atMostOne _
  closed source := Nat.zero_le _

namespace BroadcastJoin

variable {Left Right : Type}

/--
What the children of a join have left, and the sweep that it has in front of it.
-/
def account
    (leftBudget : Left → Nat)
    (rightBudget : Right → Nat)
    (join : BroadcastJoin Left Right) : Nat :=
  leftBudget join.left + rightBudget join.right + join.state.awaitsSweep.toNat

variable [Operator Left] [Drainable Right]
variable {leftBudget : Left → Nat} {rightBudget : Right → Nat}
variable {join : BroadcastJoin Left Right}

/--
The turns of a build loop do not fill an account up, and its answer is paid for.
-/
theorem account_advance
    (leftPays : Operator.Pays leftBudget)
    (rightPays : Operator.Pays rightBudget)
    (active : join.state.isActive = true) :
    account leftBudget rightBudget join.advance.next + join.advance.block.cost ≤
      account leftBudget rightBudget join := by
  apply advance_induction
    (motive := fun join pulled =>
      account leftBudget rightBudget pulled.next + pulled.block.cost ≤
        account leftBudget rightBudget join)
    _ _ _ active
  · intro join opened probing
    have leftPaid := leftPays.pulled join.left
    have paid :
        (join.state.receiveLeft (Operator.pull join.left).block).block.cost +
            (join.state.receiveLeft
              (Operator.pull join.left).block).state.awaitsSweep.toNat ≤
          (Operator.pull join.left).block.cost + join.state.awaitsSweep.toNat :=
      JoinState.cost_receiveLeft (JoinState.isActive_of_probing opened probing)
    rw [pullLeft_eq_receive]
    simp only [account]
    omega
  · intro join answered opened beforeProbing answers
    have rightPaid := rightPays.pulled join.right
    have paid : answered.cost ≤ (Operator.pull join.right).block.cost :=
      JoinState.cost_receiveRight answers
    have sweepKept :
        join.receivedRight.state.awaitsSweep.toNat ≤ join.state.awaitsSweep.toNat :=
      JoinState.awaitsSweep_le
        (JoinState.isActive_of_beforeProbing beforeProbing opened)
        JoinState.plan_receiveRight
    simp only [account, behindRight]
    omega
  · intro join opened beforeProbing goesOn later
    have rightPaid := rightPays.pulled join.right
    have sweepKept :
        join.receivedRight.state.awaitsSweep.toNat ≤ join.state.awaitsSweep.toNat :=
      JoinState.awaitsSweep_le
        (JoinState.isActive_of_beforeProbing beforeProbing opened)
        JoinState.plan_receiveRight
    refine Nat.le_trans later ?_
    simp only [account, behindRight]
    omega

/-- If the children of a join pay for what they answer, so does the join. -/
theorem pays
    (leftPays : Operator.Pays leftBudget)
    (rightPays : Operator.Pays rightBudget) :
    Operator.Pays fun join : BroadcastJoin Left Right =>
      join.account leftBudget rightBudget where
  pulled join := by
    cases active : join.state.isActive with
    | true =>
        have pulled : Operator.pull join = _ := pull_of_isActive active
        rw [pulled]
        exact account_advance leftPays rightPays active
    | false =>
        obtain ⟨block_eq, next_eq⟩ := pull_of_inactive active
        have answered_eq : (Operator.pull join).block = join.state.lastBlock :=
          block_eq
        have final_eq : (Operator.pull join).next = join := next_eq
        have ends : join.state.lastBlock.cost = 0 := by
          rw [JoinState.lastBlock]
          split <;> rfl
        rw [answered_eq, final_eq, ends]
        exact Nat.le_refl _
  closed join := by
    have leftKept := leftPays.closed join.left
    have rightKept := rightPays.closed join.right
    cases closed : join.state.closed with
    | true =>
        have closed_eq : (Operator.close join).next = join := by
          change join.close.next = join
          simp only [close, closed, if_true]
        exact Nat.le_of_eq (congrArg (account leftBudget rightBudget) closed_eq)
    | false =>
        have closed_eq :
            (Operator.close join).next =
              ⟨join.state.release, (Operator.close join.left).next,
                (Operator.close join.right).next⟩ := by
          change join.close.next = _
          simp only [close, closed, Bool.false_eq_true, if_false]
        rw [closed_eq]
        simp only [account, JoinState.awaitsSweep_release, Bool.toNat_false]
        omega

end BroadcastJoin

namespace Tree

variable {shape : Shape}

/-- How many blocks the sources of a tree have queued. -/
def queuedBlocks (tree : Tree shape) : Nat :=
  (tree.sources.map fun source => source.queued.length).sum

/-- How many joins of a tree have a sweep in front of them. -/
def pendingSweeps (tree : Tree shape) : Nat :=
  tree.joins.countP JoinState.awaitsSweep

/-- What a tree still hands out at most. -/
def account (tree : Tree shape) : Nat := tree.queuedBlocks + tree.pendingSweeps

/-- The account of a tree is that of the join at its root. -/
theorem account_join
    {left right : Shape}
    (tree : BroadcastJoin (Tree left) (Tree right)) :
    @account (.join left right) tree = tree.account Tree.account Tree.account := by
  have queued :
      @queuedBlocks (.join left right) tree =
        tree.left.queuedBlocks + tree.right.queuedBlocks := by
    simp only [queuedBlocks, sources, List.map_append, List.sum_append]
  have pending :
      @pendingSweeps (.join left right) tree =
        tree.left.pendingSweeps + tree.right.pendingSweeps +
          tree.state.awaitsSweep.toNat := by
    simp only [pendingSweeps, joins, List.countP_cons, List.countP_append]
    cases tree.state.awaitsSweep <;> rfl
  simp only [account, queued, pending, BroadcastJoin.account]
  omega

/-- Every tree pays for its pulls out of its account. -/
theorem pays : Operator.Pays (@Tree.account shape) := by
  induction shape with
  | source => exact Replay.pays
  | join left right leftPays rightPays =>
      rw [funext account_join]
      exact BroadcastJoin.pays leftPays rightPays

/--
Every run of a tree is finite, whatever its sources have queued and wherever its
joins stand.  Each pull of the root returns what the tree answers.  Whatever is
asked of the root, it answers at most as many blocks of data, or of nothing ready,
as the sources have queued blocks and the joins sweeps in front of them.  Reading
the tree takes at most one pull more, whatever bound is set on the blocks in a row
that say that nothing is ready.
-/
theorem runs_bounded (tree : Tree shape) :
    (∀ block next,
        tree.Returns block next ↔
          (Operator.pull tree).block = block ∧ (Operator.pull tree).next = next) ∧
      (∀ calls,
        ((Operator.replies tree calls).countP fun block => !block.isTerminal) ≤
          tree.queuedBlocks + tree.pendingSweeps) ∧
      ∀ bound,
        gather bound (tree.queuedBlocks + tree.pendingSweeps + 1) 0 tree =
          some (collect bound tree) := by
  refine ⟨fun block next => returns_iff_pullsTo, fun calls => ?_, fun bound => ?_⟩
  · exact Nat.le_trans (Nat.le_add_right _ _) (pays.costOf_replies_le tree calls)
  · obtain ⟨collected, finished⟩ :=
      Option.isSome_iff_exists.mp
        (pays.gather_isSome bound 0 (Nat.lt_succ_self tree.account))
    have collects :
        gather bound (Exhaustible.remaining tree + 1) 0 tree =
          some (collect bound tree) :=
      (Option.some_get _).symm
    rw [Operator.gather_unique collects finished]
    exact finished

end Tree

end StreamJoin
