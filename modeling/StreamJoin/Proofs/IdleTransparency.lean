import StreamJoin.Proofs.NotedRuns
import StreamJoin.Proofs.SpokenBlocks
import StreamJoin.Proofs.TreeMeaning

namespace StreamJoin

/-!
# Idle blocks pass through a tree

A leaf with nothing ready suspends the joins above it, in the middle of a build or
of streaming, wherever they stand.  Two trees that differ only in the idle blocks of
their leaves say the same blocks, and end with the same tables, marks and
statistics.  A tree answers as many idle blocks as its leaves hand out.

The runs of the two trees are not aligned pull by pull.  They are aligned from one
spoken block to the next, for the leaves first and then, by induction on the shape,
for every tree.
-/

namespace Replay

variable {source : Replay} {block : Block} {rest blocks : List Block}

/-- An empty source answers the end. -/
theorem pull_of_nil (queued : source.queued = []) :
    Operator.pull source = ⟨.ended, ⟨[], source.pulls + 1, source.closed⟩, []⟩ := by
  change source.pull = _
  simp only [pull, queued]

/-- A source answers its first block. -/
theorem pull_of_cons (queued : source.queued = block :: rest) :
    Operator.pull source =
      ⟨block, ⟨rest, source.pulls + 1, source.closed⟩, []⟩ := by
  change source.pull = _
  simp only [pull, queued]

/-- A source says the first queued block that is not idle, or its end. -/
theorem exists_speaks (queued : source.queued = blocks) :
    ∃ next,
      Operator.Speaks source ((spokenOf blocks).headD .ended) next ∧
        spokenOf next.queued = (spokenOf blocks).tail := by
  induction blocks generalizing source with
  | nil =>
      have pulled := pull_of_nil queued
      exact
        ⟨_, .now (congrArg Pull.block pulled) rfl (congrArg Pull.next pulled), rfl⟩
  | cons block rest inductionHypothesis =>
      have pulled := pull_of_cons queued
      by_cases silent : block = .idle
      · subst silent
        obtain ⟨next, speaks, left⟩ :=
          inductionHypothesis (congrArg (fun pulled => pulled.next.queued) pulled)
        exact ⟨next, .later (congrArg Pull.block pulled) speaks, left⟩
      · have spoken : block.isIdle = false := by
          cases block with
          | idle => exact absurd rfl silent
          | data batch => rfl
          | ended => rfl
          | failed cause => rfl
        rw [Operator.spokenOf_cons_of_spoken rest spoken]
        exact
          ⟨_, .now (congrArg Pull.block pulled) spoken (congrArg Pull.next pulled),
            rfl⟩

/-- Sources that have queued the same up to idle blocks speak alike. -/
theorem aligned_spoken :
    Operator.Aligned
      fun first second : Replay =>
        spokenOf first.queued = spokenOf second.queued := by
  intro first second same
  obtain ⟨firstNext, firstSpeaks, firstLeft⟩ :=
    exists_speaks (rfl : first.queued = _)
  obtain ⟨secondNext, secondSpeaks, secondLeft⟩ :=
    exists_speaks (rfl : second.queued = _)
  rw [← same] at secondSpeaks secondLeft
  exact ⟨_, _, _, firstSpeaks, secondSpeaks, firstLeft.trans secondLeft.symm⟩

end Replay

namespace Tree

/--
Two trees with the same joins over leaves that have queued the same up to idle
blocks.
-/
def SameButIdles : {shape : Shape} → Tree shape → Tree shape → Prop
  | .source, first, second =>
      let firstSource : Replay := first
      let secondSource : Replay := second
      spokenOf firstSource.queued = spokenOf secondSource.queued
  | .join _ _, first, second =>
      BroadcastJoin.Related SameButIdles SameButIdles first second

variable {shape : Shape} {first second : Tree shape}

/-- To be the same but for idle blocks goes both ways. -/
theorem SameButIdles.symm (same : first.SameButIdles second) :
    second.SameButIdles first := by
  induction shape with
  | source => exact Eq.symm same
  | join leftShape rightShape leftHypothesis rightHypothesis =>
      obtain ⟨state_eq, left, right⟩ := same
      exact ⟨state_eq.symm, leftHypothesis left, rightHypothesis right⟩

/-- Trees that are the same but for idle blocks have equal joins. -/
theorem SameButIdles.joins_eq (same : first.SameButIdles second) :
    first.joins = second.joins := by
  induction shape with
  | source => rfl
  | join leftShape rightShape leftHypothesis rightHypothesis =>
      obtain ⟨state_eq, left, right⟩ := same
      simp only [joins, state_eq, leftHypothesis left, rightHypothesis right]

/-- Trees that are the same but for idle blocks stay so, block by block. -/
theorem aligned_sameButIdles : (shape : Shape) →
    Operator.Aligned fun first second : Tree shape => first.SameButIdles second
  | .source => Replay.aligned_spoken
  | .join left right =>
      BroadcastJoin.aligned_related (aligned_sameButIdles left)
        (aligned_sameButIdles right)

end Tree

namespace Operator

variable {State : Type} [Operator State]

/-- Each idle answer adds one to a count, and nothing else adds to it. -/
structure CountsIdles (count : State → Nat) : Prop where
  pull_eq : ∀ state,
    count (pull state).next = count state + (pull state).block.isIdle.toNat
  close_eq : ∀ state, count (close state).next = count state

/-- Over some requests the count grows by the idle answers. -/
theorem CountsIdles.afterCalls
    {count : State → Nat}
    (counts : CountsIdles count)
    (state : State)
    (calls : List Call) :
    count (afterCalls state calls) =
      count state + (idlesOf (replies state calls)).length := by
  induction calls generalizing state with
  | nil => rfl
  | cons call rest inductionHypothesis =>
      cases call with
      | close =>
          have closed := inductionHypothesis (close state).next
          rwa [counts.close_eq] at closed
      | pull =>
          have pulled := inductionHypothesis (pull state).next
          rw [counts.pull_eq] at pulled
          refine pulled.trans ?_
          cases idle : (pull state).block.isIdle with
          | true =>
              simp only [replies, idlesOf, List.filter_cons, idle, if_true,
                List.length_cons, Bool.toNat_true]
              omega
          | false =>
              simp only [replies, idlesOf, List.filter_cons, idle,
                Bool.false_eq_true, if_false, Bool.toNat_false, Nat.add_zero]

end Operator

/-- The idle blocks that are written down are those that are answered. -/
theorem Noted.countsIdles_answered {State : Type} [Operator State] :
    Operator.CountsIdles fun noted : Noted State =>
      (idlesOf noted.answered).length where
  pull_eq noted := by
    change (idlesOf (noted.answered ++ [noted.pull.block])).length = _
    rw [idlesOf_append, List.length_append]
    cases noted.pull.block with
    | _ => rfl
  close_eq _ := rfl

namespace BroadcastJoin

variable {Left Right : Type}
variable {leftCount : Left → Nat} {rightCount : Right → Nat}

/-- What the children of a join counted together. -/
def childCount
    (leftCount : Left → Nat)
    (rightCount : Right → Nat)
    (join : BroadcastJoin Left Right) : Nat :=
  leftCount join.left + rightCount join.right

variable [Operator Left] [Drainable Right]

/-- Going on, a join adds to the counts of its children what it answers idly. -/
theorem childCount_advance
    {join : BroadcastJoin Left Right}
    (leftCounts : Operator.CountsIdles leftCount)
    (rightCounts : Operator.CountsIdles rightCount)
    (active : join.state.isActive = true) :
    childCount leftCount rightCount join.advance.next =
      childCount leftCount rightCount join + join.advance.block.isIdle.toNat := by
  apply advance_induction
    (motive := fun join pulled =>
      childCount leftCount rightCount pulled.next =
        childCount leftCount rightCount join + pulled.block.isIdle.toNat)
    _ _ _ active
  · intro join _ _
    simp only [pullLeft_eq_receive, childCount, leftCounts.pull_eq,
      JoinState.isIdle_receiveLeft]
    omega
  · intro join answered _ _ answers
    simp only [behindRight, childCount, rightCounts.pull_eq,
      JoinState.isIdle_of_receiveRight answers]
    omega
  · intro join _ _ goesOn later
    -- A block behind which the pull goes on is not idle.
    have spoken : (Operator.pull join.right).block.isIdle = false := by
      rcases JoinState.goesOn_cases goesOn with
        ⟨ended, _⟩ | ⟨batch, _, stored, _, _⟩
      · rw [ended]
        rfl
      · rw [stored]
        rfl
    refine later.trans ?_
    simp only [behindRight, childCount, rightCounts.pull_eq, spoken,
      Bool.toNat_false, Nat.add_zero, Pull.after]

/-- A join answers as many idle blocks as its children. -/
theorem countsIdles_childCount
    (leftCounts : Operator.CountsIdles leftCount)
    (rightCounts : Operator.CountsIdles rightCount) :
    Operator.CountsIdles (childCount leftCount rightCount) where
  pull_eq join := by
    cases active : join.state.isActive with
    | true =>
        have pulled : Operator.pull join = _ := pull_of_isActive active
        rw [pulled]
        exact childCount_advance leftCounts rightCounts active
    | false =>
        obtain ⟨block_eq, next_eq⟩ := pull_of_inactive active
        have answered : (Operator.pull join).block = join.state.lastBlock :=
          block_eq
        have fixed : (Operator.pull join).next = join := next_eq
        rw [answered, fixed, JoinState.isIdle_lastBlock]
        rfl
  close_eq join := by
    change childCount leftCount rightCount join.close.next = _
    cases closed : join.state.closed with
    | true => simp only [close, closed, if_true]
    | false =>
        simp only [close, closed, Bool.false_eq_true, if_false, childCount,
          leftCounts.close_eq, rightCounts.close_eq]

end BroadcastJoin

namespace NotedTree

/-- How many idle blocks the sources of a noted tree handed out. -/
def idlesHandedOut {shape : Shape} (noted : Noted (NotedTree shape)) : Nat :=
  (idlesOf (handedOut noted).flatten).length

/-- The idle blocks that the leaves of a tree handed out are those it answered. -/
theorem countsIdles_idlesHandedOut : (shape : Shape) →
    Operator.CountsIdles (idlesHandedOut : Noted (NotedTree shape) → Nat)
  | .source => by
      have handedOut_eq :
          (idlesHandedOut : Noted (NotedTree .source) → Nat) =
            fun noted => (idlesOf noted.answered).length := by
        funext noted
        simp only [idlesHandedOut, handedOut, List.flatten_singleton]
      rw [handedOut_eq]
      exact Noted.countsIdles_answered
  | .join left right => by
      have counts :=
        BroadcastJoin.countsIdles_childCount (countsIdles_idlesHandedOut left)
          (countsIdles_idlesHandedOut right)
      have split :
          ∀ noted : Noted (NotedTree (.join left right)),
            idlesHandedOut noted =
              BroadcastJoin.childCount idlesHandedOut idlesHandedOut
                noted.operator := by
        intro noted
        simp only [idlesHandedOut, handedOut, List.flatten_append, idlesOf_append,
          List.length_append, BroadcastJoin.childCount]
      constructor
      · intro noted
        rw [split, split]
        exact counts.pull_eq noted.operator
      · intro noted
        rw [split, split]
        exact counts.close_eq noted.operator

/-- A tree that was never pulled handed out no idle block. -/
theorem idlesHandedOut_noted {shape : Shape} (tree : Tree shape) :
    idlesHandedOut tree.noted = 0 := by
  induction shape with
  | source => rfl
  | join leftShape rightShape leftHypothesis rightHypothesis =>
      obtain ⟨state, left, right⟩ := tree
      have both := congrArg₂ (· + ·) (leftHypothesis left) (rightHypothesis right)
      refine Eq.trans ?_ both
      simp only [idlesHandedOut, handedOut, Tree.noted, BroadcastJoin.map,
        List.flatten_append, idlesOf_append, List.length_append]

end NotedTree

namespace BroadcastJoin

/-- Behind a terminal answer a pull changes nothing. -/
theorem next_eq_of_terminal
    {Left Right : Type}
    [Operator Left]
    [Drainable Right]
    (join : BroadcastJoin Left Right)
    (terminal : (Operator.pull join).block.isTerminal = true) :
    (Operator.pull (Operator.pull join).next).next = (Operator.pull join).next :=
  (pull_of_inactive ((settles_pull join).of_terminal terminal).1).2

end BroadcastJoin

namespace Tree

variable {shape : Shape}

/--
After some requests a tree has answered as many idle blocks as its sources handed
out.
-/
def PassesIdles (tree : Tree shape) (calls : List Call) : Prop :=
  let run := Operator.afterCalls tree.noted calls
  run.operator.erase = Operator.afterCalls tree calls ∧
    run.answered = Operator.replies tree calls ∧
    (idlesOf run.answered).length =
      (idlesOf (NotedTree.handedOut run).flatten).length

/-- Every tree passes on idle blocks as they come. -/
theorem passesIdles (tree : Tree shape) (calls : List Call) :
    tree.PassesIdles calls := by
  refine
    ⟨NotedTree.erase_afterCalls tree calls,
      NotedTree.answered_afterCalls tree calls, ?_⟩
  have answered := Noted.countsIdles_answered.afterCalls tree.noted calls
  have handedOut :=
    (NotedTree.countsIdles_idlesHandedOut shape).afterCalls tree.noted calls
  rw [NotedTree.answered_noted] at answered
  rw [NotedTree.idlesHandedOut_noted] at handedOut
  exact answered.trans handedOut.symm

/-- Trees that differ in idle blocks end with the same joins. -/
theorem joins_eq_of_ended
    {first second : Tree shape}
    {count others : Nat}
    (same : first.SameButIdles second)
    (ended : Operator.HasEnded count first)
    (otherEnded : Operator.HasEnded others second) :
    (Operator.afterPulls count first).joins =
      (Operator.afterPulls others second).joins := by
  cases shape with
  | source => rfl
  | join leftShape rightShape =>
      apply SameButIdles.joins_eq
      exact
        Operator.related_of_ended
          (aligned_sameButIdles (.join leftShape rightShape))
          BroadcastJoin.next_eq_of_terminal same ended otherEnded

/--
Idle blocks put into the leaves of a tree, anywhere and any number of them, change
nothing but the idle blocks that the tree answers.  It says the same blocks; once it
has answered its end or a failure, which it does, its joins have the same
statistics, and the same tables and marks too; and it answers as many idle blocks as
its leaves hand out.
-/
theorem idles_transparent
    {plain padded : Tree shape}
    (same : plain.SameButIdles padded) :
    (∀ blocks, Operator.Says plain blocks ↔ Operator.Says padded blocks) ∧
    (∃ count, Operator.HasEnded count plain) ∧
    (∃ count, Operator.HasEnded count padded) ∧
    (∀ count others,
      Operator.HasEnded count plain → Operator.HasEnded others padded →
        (Operator.afterPulls count plain).joins =
          (Operator.afterPulls others padded).joins) ∧
    (∀ calls, plain.PassesIdles calls) ∧
    (∀ calls, padded.PassesIdles calls) := by
  have aligned := aligned_sameButIdles shape
  refine
    ⟨fun blocks => ⟨?_, ?_⟩, Operator.exists_hasEnded plain,
      Operator.exists_hasEnded padded,
      fun count others ended otherEnded => joins_eq_of_ended same ended otherEnded,
      passesIdles plain, passesIdles padded⟩
  · exact Operator.says_of_alike aligned (aligned plain padded same)
  · exact Operator.says_of_alike aligned (aligned padded plain same.symm)

/-- The blocks, each behind an idle one. -/
def stuttering (blocks : List Block) : Replay :=
  .ofBlocks (blocks.flatMap fun block => [.idle, block])

/-- The sample tree with an idle block in front of every block of its leaves. -/
def stutteringTree : Tree (.join .source (.join .source .source)) :=
  let inner : BroadcastJoin (Tree .source) (Tree .source) :=
    ⟨sampleInner.root, stuttering BroadcastJoin.sampleLefts,
      stuttering BroadcastJoin.sampleRights⟩
  let join : BroadcastJoin (Tree .source) (Tree (.join .source .source)) :=
    ⟨sampleTree.root, stuttering sampleLeaf.queued, inner⟩
  join

/--
Six pulls end the sample tree and sixteen the other one, ten of them for idle
blocks.
-/
theorem idles_transparent_sample :
    sampleTree.SameButIdles stutteringTree ∧
      (∀ blocks,
        Operator.Says sampleTree blocks ↔ Operator.Says stutteringTree blocks) ∧
      (Operator.afterPulls 6 sampleTree).joins =
        (Operator.afterPulls 16 stutteringTree).joins ∧
      stutteringTree.PassesIdles (List.replicate 16 .pull) ∧
      (idlesOf (Operator.replies sampleTree (List.replicate 6 .pull))).length = 3 ∧
      (idlesOf (Operator.replies stutteringTree (List.replicate 16 .pull))).length =
        13 := by
  have same : sampleTree.SameButIdles stutteringTree := ⟨rfl, rfl, rfl, rfl, rfl⟩
  have transparent := idles_transparent same
  have ended : Operator.HasEnded 6 sampleTree := by
    refine ⟨.ended, ?_, rfl⟩
    decide +kernel
  have otherEnded : Operator.HasEnded 16 stutteringTree := by
    refine ⟨.ended, ?_, rfl⟩
    decide +kernel
  refine ⟨same, transparent.1, ?_, transparent.2.2.2.2.2 _, ?_, ?_⟩
  · exact transparent.2.2.2.1 6 16 ended otherEnded
  · decide +kernel
  · decide +kernel

end Tree

end StreamJoin
