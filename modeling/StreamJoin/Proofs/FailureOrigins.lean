import StreamJoin.Proofs.RaisedFaults
import StreamJoin.Proofs.SharedCounters

namespace StreamJoin

/-!
# How failures climb a tree

A failure comes from one place of a tree: a source that hands it out, or a join that
raises it.  Places are read off the notes of a run, and what a join raises off the
data that its children handed out, so neither depends on what the joins remember.

The condition of an operator is calm, if nothing below it has failed, or struck by a
failure from one place.  A pull of a calm operator leaves it calm or strikes it
once, and it answers the failure in that same pull.  This is the step, with one case
for each block of a child; the tree is an induction over its shape, the run one
along the requests.
-/

/--
What may be the condition of an operator: nothing has failed so far, or a failure
has come up from a place, which is the way down to it.
-/
structure Condition (State : Type) where
  calm : State → Prop
  struck : List Side → Fault → State → Prop

namespace Condition

variable {State : Type} [Operator State]

/-- What a pull makes of a calm operator: it stays calm or fails in this pull. -/
def Outcome (condition : Condition State) (block : Block) (next : State) : Prop :=
  condition.calm next ∧ block.cause? = none ∨
    ∃ place cause, condition.struck place cause next ∧ block.cause? = some cause

/-- A condition that every pull of a calm operator and every closing respects. -/
structure Climbs (condition : Condition State) : Prop where
  pulled :
    ∀ state, condition.calm state →
      condition.Outcome (Operator.pull state).block (Operator.pull state).next
  closedCalm :
    ∀ state, condition.calm state → condition.calm (Operator.close state).next
  closedStruck :
    ∀ place cause state, condition.struck place cause state →
      condition.struck place cause (Operator.close state).next

/--
Such a condition of an operator that, once it is struck, answers every pull with its
failure.
-/
structure Lasts (condition : Condition State) : Prop extends condition.Climbs where
  pulledStruck :
    ∀ place cause state, condition.struck place cause state →
      condition.struck place cause (Operator.pull state).next ∧
        (Operator.pull state).block.cause? = some cause

section Runs

variable {condition : Condition State} {state : State} {place : List Side}
  {cause : Fault}

/--
A struck operator stays struck along any requests, and answers nothing but its
failure.
-/
theorem Lasts.struck_afterCalls
    (lasts : condition.Lasts)
    (struck : condition.struck place cause state)
    (calls : List Call) :
    condition.struck place cause (Operator.afterCalls state calls) ∧
      ∀ block ∈ Operator.replies state calls, block.cause? = some cause := by
  induction calls generalizing state with
  | nil => exact ⟨struck, nofun⟩
  | cons call rest inductionHypothesis =>
      cases call with
      | close =>
          exact inductionHypothesis (lasts.closedStruck place cause state struck)
      | pull =>
          obtain ⟨stillStruck, answered⟩ :=
            lasts.pulledStruck place cause state struck
          obtain ⟨later, repeats⟩ := inductionHypothesis stillStruck
          exact ⟨later, List.forall_mem_cons.mpr ⟨answered, repeats⟩⟩

/--
A calm operator stays calm along any requests, or is struck once and answers that
failure.
-/
theorem Lasts.calm_afterCalls
    (lasts : condition.Lasts)
    (calm : condition.calm state)
    (calls : List Call) :
    condition.calm (Operator.afterCalls state calls) ∧
        (∀ block ∈ Operator.replies state calls, block.cause? = none) ∨
      ∃ place cause,
        condition.struck place cause (Operator.afterCalls state calls) ∧
          ∀ block ∈ Operator.replies state calls,
            block.cause? = none ∨ block.cause? = some cause := by
  induction calls generalizing state with
  | nil => exact .inl ⟨calm, nofun⟩
  | cons call rest inductionHypothesis =>
      cases call with
      | close => exact inductionHypothesis (lasts.closedCalm state calm)
      | pull =>
          rcases lasts.pulled state calm with
              ⟨stillCalm, noCause⟩ | ⟨place, cause, struck, failing⟩
          · rcases inductionHypothesis stillCalm with
                ⟨laterCalm, noFailures⟩ | ⟨place, cause, laterStruck, failures⟩
            · exact .inl ⟨laterCalm, List.forall_mem_cons.mpr ⟨noCause, noFailures⟩⟩
            · refine
                .inr
                  ⟨place, cause, laterStruck,
                    List.forall_mem_cons.mpr ⟨?_, failures⟩⟩
              exact .inl noCause
          · obtain ⟨laterStruck, failures⟩ := lasts.struck_afterCalls struck rest
            refine
              .inr
                ⟨place, cause, laterStruck,
                  List.forall_mem_cons.mpr ⟨.inr failing, ?_⟩⟩
            exact fun block member => .inr (failures block member)

end Runs

end Condition

/--
A source is calm as long as it handed no failure out, and struck by the first one.
-/
def Replay.condition (allowed : Fault → Prop) : Condition (Noted Replay) where
  calm noted :=
    noted.answered.filterMap Block.cause? = [] ∧
      ∀ cause, .failed cause ∈ noted.operator.queued → allowed cause
  struck place cause noted :=
    place = [] ∧ noted.answered.filterMap Block.cause? = [cause] ∧ allowed cause

/-- Behind a pull a source has one more block noted. -/
theorem Replay.outcome_noted
    {allowed : Fault → Prop}
    {answered rest : List Block}
    {block : Block}
    {next : Replay}
    (noFailure : answered.filterMap Block.cause? = [])
    (queued_eq : next.queued = rest)
    (within : ∀ cause, .failed cause ∈ block :: rest → allowed cause) :
    (Replay.condition allowed).Outcome block ⟨next, answered ++ [block]⟩ := by
  cases outcome : block.cause? with
  | none =>
      refine .inl ⟨⟨?_, ?_⟩, outcome⟩
      · simp [List.filterMap_append, noFailure, outcome]
      · rw [queued_eq]
        exact fun cause member => within cause (List.mem_cons_of_mem block member)
  | some cause =>
      refine .inr ⟨[], cause, ⟨rfl, ?_, within cause ?_⟩, outcome⟩
      · simp [List.filterMap_append, noFailure, outcome]
      · rw [Block.cause?_eq_some_iff.mp outcome]
        exact List.mem_cons_self

/-- A failure that a queued source answers is its own and climbs from there. -/
theorem Replay.climbs (allowed : Fault → Prop) :
    (Replay.condition allowed).Climbs where
  pulled := by
    rintro ⟨⟨queued, pulls, closed⟩, answered⟩ ⟨noFailure, within⟩
    cases queued with
    | nil =>
        have endFails :
            ∀ cause, .failed cause ∈ [Block.ended] → allowed cause := by simp
        exact outcome_noted noFailure rfl endFails
    | cons first rest => exact outcome_noted noFailure rfl within
  closedCalm noted calm := ⟨calm.1, nofun⟩
  closedStruck _ _ _ struck := struck

namespace BroadcastJoin

variable {Left Right : Type}

/-- The failure of the data that the children of a join handed out. -/
def raised? (join : BroadcastJoin (Noted Left) (Noted Right)) : Option Fault :=
  join.state.plan.raised? join.right.answered join.left.answered

section Condition

variable (allowed : Fault → Prop)
variable (left : Condition (Noted Left)) (right : Condition (Noted Right))

/-- A join that neither received nor raised a failure. -/
structure Calm
    (join : BroadcastJoin (Noted Left) (Noted Right))
    (answers : List Block) : Prop where
  kept : (join.record answers).Kept
  notRaised : join.raised? = none
  noFailure : join.state.phase.cause? = none
  evaluates : join.state.plan.EvaluatesWithin allowed
  leftCalm : left.calm join.left
  rightCalm : right.calm join.right

/--
A join that remembers a failure from one place: it raised the failure itself, or one
of its children is struck and the other one is calm.
-/
inductive Struck :
    List Side → Fault → BroadcastJoin (Noted Left) (Noted Right) → Prop where
  | here
      {join : BroadcastJoin (Noted Left) (Noted Right)}
      {cause : Fault}
      (raised : join.raised? = some cause)
      (failed : join.state.phase.cause? = some cause)
      (permitted : allowed cause)
      (leftCalm : left.calm join.left)
      (rightCalm : right.calm join.right) :
      Struck [] cause join
  | left
      {join : BroadcastJoin (Noted Left) (Noted Right)}
      {place : List Side}
      {cause : Fault}
      (notRaised : join.raised? = none)
      (failed : join.state.phase.cause? = some cause)
      (leftStruck : left.struck place cause join.left)
      (rightCalm : right.calm join.right) :
      Struck (.left :: place) cause join
  | right
      {join : BroadcastJoin (Noted Left) (Noted Right)}
      {place : List Side}
      {cause : Fault}
      (notRaised : join.raised? = none)
      (failed : join.state.phase.cause? = some cause)
      (leftCalm : left.calm join.left)
      (rightStruck : right.struck place cause join.right) :
      Struck (.right :: place) cause join

/-- The condition of a join with noted children. -/
def condition : Condition (Noted (BroadcastJoin (Noted Left) (Noted Right))) where
  calm noted := noted.operator.Calm allowed left right noted.answered
  struck place cause noted := Struck allowed left right place cause noted.operator

end Condition

variable {allowed : Fault → Prop}
variable {left : Condition (Noted Left)} {right : Condition (Noted Right)}
variable {place : List Side} {cause : Fault}
variable {join next : BroadcastJoin (Noted Left) (Noted Right)}
  {answers : List Block}

/-- A join that was struck has failed with that cause. -/
theorem Struck.cause?_eq (struck : Struck allowed left right place cause join) :
    join.state.phase.cause? = some cause := by
  cases struck with
  | here _ failed => exact failed
  | left _ failed => exact failed
  | right _ failed => exact failed

/-- What a join raises is allowed, if what its predicates fail with is. -/
theorem permitted_of_raised
    (runFaults : ∀ cause, cause.isPlanFault = false → allowed cause)
    (evaluates : join.state.plan.EvaluatesWithin allowed)
    (raised : join.raised? = some cause) :
    allowed cause := by
  rcases JoinPlan.raised?_cases raised with
      ⟨limit, rfl⟩ | ⟨side, expected, actual, rfl⟩ | ⟨candidate, fails⟩
  · exact runFaults _ rfl
  · exact runFaults _ rfl
  · exact evaluates candidate cause fails

/--
Behind a block of one child, while the other one is calm, a join is calm or struck
from the place from which that child is, or from itself.
-/
theorem calm_or_struck_of_child
    {block : Block}
    (runFaults : ∀ cause, cause.isPlanFault = false → allowed cause)
    (kept : (next.record answers).Kept)
    (remembers : next.state.phase.cause? = block.cause?.or next.raised?)
    (evaluates : next.state.plan.EvaluatesWithin allowed)
    (child :
      left.calm next.left ∧ right.calm next.right ∧ block.cause? = none ∨
        ∃ place cause, Struck allowed left right place cause next) :
    next.Calm allowed left right answers ∨
      ∃ place cause, Struck allowed left right place cause next := by
  rcases child with ⟨leftCalm, rightCalm, noCause⟩ | struck
  · rw [noCause, Option.none_or] at remembers
    cases raised : next.raised? with
    | none =>
        exact
          .inl
            ⟨kept, raised, remembers.trans raised, evaluates, leftCalm, rightCalm⟩
    | some cause =>
        have permitted := permitted_of_raised runFaults evaluates raised
        exact
          .inr
            ⟨[], cause,
              .here raised (remembers.trans raised) permitted leftCalm rightCalm⟩
  · exact .inr struck

/-- Taking a left block leaves a calm join calm or strikes it. -/
theorem calm_or_struck_pullLeft
    [Operator Left]
    (runFaults : ∀ cause, cause.isPlanFault = false → allowed cause)
    (leftClimbs : left.Climbs)
    (opened : join.state.closed = false)
    (probing : join.state.phase = .probing)
    (calm : join.Calm allowed left right answers) :
    join.pullLeft.next.Calm allowed left right (answers ++ [join.pullLeft.block]) ∨
      ∃ place cause, Struck allowed left right place cause join.pullLeft.next := by
  have active := JoinState.isActive_of_probing opened probing
  obtain ⟨stored, streaming⟩ := calm.kept.probing active probing
  rw [pullLeft_eq_receive]
  obtain ⟨remembers, notBoth⟩ :=
    streaming.cause?_receiveLeft (Operator.pull join.left).block
  have plan_eq :
      (join.state.receiveLeft (Operator.pull join.left).block).state.plan =
        join.state.plan :=
    JoinState.plan_receiveLeft
  have raised_eq :
      (BroadcastJoin.mk
          (join.state.receiveLeft (Operator.pull join.left).block).state
          (Operator.pull join.left).next join.right).raised? =
        join.state.plan.raised? join.right.answered
          (join.left.answered ++ [(Operator.pull join.left).block]) := by
    rw [raised?, plan_eq]
    rfl
  rw [← raised_eq] at remembers notBoth
  have kept :
      (record
          ⟨(join.state.receiveLeft (Operator.pull join.left).block).state,
            (Operator.pull join.left).next, join.right⟩
          (answers ++
            [(join.state.receiveLeft
              (Operator.pull join.left).block).block])).Kept :=
    streaming.receiveLeft calm.kept.truthful (Operator.pull join.left).block
  apply calm_or_struck_of_child runFaults kept remembers (plan_eq ▸ calm.evaluates)
  rcases leftClimbs.pulled join.left calm.leftCalm with
      ⟨leftCalm, noCause⟩ | ⟨place, cause, leftStruck, failing⟩
  · exact .inl ⟨leftCalm, calm.rightCalm, noCause⟩
  · rw [failing] at remembers
    have notRaised := notBoth (by rw [failing]; rfl)
    exact .inr ⟨_, cause, .left notRaised remembers leftStruck calm.rightCalm⟩

/-- Taking a right block leaves a calm join calm or strikes it. -/
theorem calm_or_struck_behindRight
    [Drainable Right]
    (runFaults : ∀ cause, cause.isPlanFault = false → allowed cause)
    (rightClimbs : right.Climbs)
    (opened : join.state.closed = false)
    (beforeProbing : join.state.phase.isBeforeProbing = true)
    (calm : join.Calm allowed left right answers) :
    join.behindRight.Calm allowed left right
        (answers ++ join.receivedRight.answer?.toList) ∨
      ∃ place cause, Struck allowed left right place cause join.behindRight := by
  have active := JoinState.isActive_of_beforeProbing beforeProbing opened
  have building := calm.kept.building active beforeProbing
  obtain ⟨remembers, notBoth⟩ :=
    building.cause?_receiveRight (Operator.pull join.right).block
  have plan_eq : join.behindRight.state.plan = join.state.plan :=
    JoinState.plan_receiveRight
  have raised_eq :
      join.behindRight.raised? =
        join.state.plan.raised?
          (join.right.answered ++ [(Operator.pull join.right).block])
          join.left.answered := by
    rw [raised?, plan_eq]
    rfl
  rw [← raised_eq] at remembers notBoth
  have kept :
      (join.behindRight.record
        (answers ++ join.receivedRight.answer?.toList)).Kept :=
    building.receiveRight calm.kept.truthful (Operator.pull join.right).block
  apply calm_or_struck_of_child runFaults kept remembers (plan_eq ▸ calm.evaluates)
  rcases rightClimbs.pulled join.right calm.rightCalm with
      ⟨rightCalm, noCause⟩ | ⟨place, cause, rightStruck, failing⟩
  · exact .inl ⟨calm.leftCalm, rightCalm, noCause⟩
  · rw [failing] at remembers
    have notRaised := notBoth (by rw [failing]; rfl)
    exact .inr ⟨_, cause, .right notRaised remembers calm.leftCalm rightStruck⟩

section Requests

variable [Operator Left] [Drainable Right]

/--
A pull that is let through goes on only as long as everything is calm: the first
failure ends it.
-/
theorem calm_or_struck_advance
    (runFaults : ∀ cause, cause.isPlanFault = false → allowed cause)
    (leftClimbs : left.Climbs)
    (rightClimbs : right.Climbs)
    (active : join.state.isActive = true)
    (calm : join.Calm allowed left right answers) :
    join.advance.next.Calm allowed left right (answers ++ [join.advance.block]) ∨
      ∃ place cause, Struck allowed left right place cause join.advance.next := by
  revert calm
  apply advance_induction
    (motive := fun join pulled =>
      join.Calm allowed left right answers →
        pulled.next.Calm allowed left right (answers ++ [pulled.block]) ∨
          ∃ place cause, Struck allowed left right place cause pulled.next)
    _ _ _ active
  · exact fun join opened probing calm =>
      calm_or_struck_pullLeft runFaults leftClimbs opened probing calm
  · intro join answered opened beforeProbing answersRight calm
    have behind :=
      calm_or_struck_behindRight runFaults rightClimbs opened beforeProbing calm
    rw [answersRight] at behind
    exact behind
  · intro join opened beforeProbing goesOn later calm
    rcases calm_or_struck_behindRight runFaults rightClimbs opened beforeProbing
      calm with behindCalm | ⟨place, cause, struck⟩
    · rw [goesOn, Option.toList_none, List.append_nil] at behindCalm
      exact later behindCalm
    · -- A join that remembers a failure may not go on, but this one does.
      have stopped := JoinState.isActive_of_failed struck.cause?_eq
      have goesOnActive : join.behindRight.state.isActive = true :=
        JoinState.isActive_of_goesOn opened goesOn
      cases stopped.symm.trans goesOnActive

/-- A pull leaves a calm join calm or strikes it, and the answer tells which. -/
theorem outcome_pull
    (runFaults : ∀ cause, cause.isPlanFault = false → allowed cause)
    (leftClimbs : left.Climbs)
    (rightClimbs : right.Climbs)
    (calm : join.Calm allowed left right answers) :
    join.pull.next.Calm allowed left right (answers ++ [join.pull.block]) ∧
        join.pull.block.cause? = none ∨
      ∃ place cause, Struck allowed left right place cause join.pull.next ∧
        join.pull.block.cause? = some cause := by
  have settled := (settles_pull join).cause_eq
  have condition :
      join.pull.next.Calm allowed left right (answers ++ [join.pull.block]) ∨
        ∃ place cause, Struck allowed left right place cause join.pull.next := by
    cases active : join.state.isActive with
    | true =>
        rw [pull_of_isActive active]
        exact calm_or_struck_advance runFaults leftClimbs rightClimbs active calm
    | false =>
        obtain ⟨block_eq, next_eq⟩ := pull_of_inactive active
        rw [block_eq, next_eq]
        exact .inl { calm with kept := calm.kept.append_lastBlock active }
  rcases condition with stillCalm | ⟨place, cause, struck⟩
  · exact .inl ⟨stillCalm, settled.symm.trans stillCalm.noFailure⟩
  · exact .inr ⟨place, cause, struck, settled.symm.trans struck.cause?_eq⟩

/-- Closing a calm join leaves it calm. -/
theorem calm_close
    (leftClimbs : left.Climbs)
    (rightClimbs : right.Climbs)
    (calm : join.Calm allowed left right answers) :
    join.close.next.Calm allowed left right answers := by
  unfold close
  split
  · exact calm
  · exact {
      kept := calm.kept.release
      notRaised := calm.notRaised
      noFailure := calm.noFailure
      evaluates := calm.evaluates
      leftCalm := leftClimbs.closedCalm join.left calm.leftCalm
      rightCalm := rightClimbs.closedCalm join.right calm.rightCalm
    }

/-- Closing a join that was struck leaves the failure where it was. -/
theorem struck_close
    (leftClimbs : left.Climbs)
    (rightClimbs : right.Climbs)
    (struck : Struck allowed left right place cause join) :
    Struck allowed left right place cause join.close.next := by
  unfold close
  split
  · exact struck
  · cases struck with
    | here raised failed permitted leftCalm rightCalm =>
        exact
          .here raised failed permitted (leftClimbs.closedCalm join.left leftCalm)
            (rightClimbs.closedCalm join.right rightCalm)
    | @left _ place _ notRaised failed leftStruck rightCalm =>
        exact
          .left notRaised failed
            (leftClimbs.closedStruck place cause join.left leftStruck)
            (rightClimbs.closedCalm join.right rightCalm)
    | @right _ place _ notRaised failed leftCalm rightStruck =>
        exact
          .right notRaised failed (leftClimbs.closedCalm join.left leftCalm)
            (rightClimbs.closedStruck place cause join.right rightStruck)

/-- If failures climb the children of a join, they climb the join. -/
theorem climbs
    (runFaults : ∀ cause, cause.isPlanFault = false → allowed cause)
    (leftClimbs : left.Climbs)
    (rightClimbs : right.Climbs) :
    (condition allowed left right).Climbs where
  pulled _ calm := outcome_pull runFaults leftClimbs rightClimbs calm
  closedCalm _ calm := calm_close leftClimbs rightClimbs calm
  closedStruck _ _ _ struck := struck_close leftClimbs rightClimbs struck

/-- A join that remembers a failure pulls no child any more. -/
theorem struck_pull
    (struck : Struck allowed left right place cause join) :
    Struck allowed left right place cause join.pull.next ∧
      join.pull.block.cause? = some cause := by
  have failed := struck.cause?_eq
  obtain ⟨block_eq, next_eq⟩ :=
    pull_of_inactive (JoinState.isActive_of_failed failed)
  rw [block_eq, next_eq, JoinState.lastBlock_of_failed failed]
  exact ⟨struck, rfl⟩

/-- If failures climb the children of a join, those of the join last. -/
theorem lasts
    (runFaults : ∀ cause, cause.isPlanFault = false → allowed cause)
    (leftClimbs : left.Climbs)
    (rightClimbs : right.Climbs) :
    (condition allowed left right).Lasts where
  toClimbs := climbs runFaults leftClimbs rightClimbs
  pulledStruck _ _ _ struck := struck_pull struck

end Requests

end BroadcastJoin

end StreamJoin
