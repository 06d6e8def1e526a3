import StreamJoin.Proofs.PullHistory
import StreamJoin.Proofs.PullSteps
import StreamJoin.Stream.Replay

namespace StreamJoin

/-!
# How a join pulls its children

The children of a join are watched.  Nothing is known about them: they may hand out
data after their end or after a failure.  Whatever is asked of the join, and in
whatever order, each pull of a child is permitted by the moments before it, and one
pull of the join takes at most one block from its left child.
-/

namespace JoinState

variable (state : JoinState)

/-- The moments of the end of the left input. -/
def endMoments : List Moment := if state.kind.sweepsRight then [.swept] else []

/-- The end of the left input has the moment of the sweep, if there is one. -/
theorem momentsOf_finishProbe :
    momentsOf state.finishProbe.events = state.endMoments := by
  unfold finishProbe endMoments
  split
  · rfl
  · rfl

/-- Behind the end of the left input a join may not pull. -/
theorem isActive_finishProbe : state.finishProbe.state.isActive = false := by
  unfold finishProbe
  split
  · rfl
  · rfl

/-- Probing a block involves no child. -/
theorem momentsOf_probe (rows : List Row) :
    momentsOf (state.probe rows).events = [] := by
  unfold probe
  split
  · rfl
  · simp only
    split
    · rfl
    · rfl

/-- Probing fails the join for good or keeps it where it stood. -/
theorem probe_cases (rows : List Row) :
    (state.probe rows).state.isActive = false ∨
      (state.probe rows).block.isFailed = false ∧
        (state.probe rows).state.phase = state.phase := by
  unfold probe
  split
  · exact .inl rfl
  · simp only
    split
    · exact .inl rfl
    · exact .inr ⟨rfl, rfl⟩

end JoinState

namespace BroadcastJoin

variable {Left Right : Type}
variable {state : JoinState}
variable {left : Watched .left Left} {right : Watched .right Right}
variable {past : List Moment}

/--
What one pull does to the past: it pulls the children as permitted, and the join
goes on only if it did not fail.
-/
structure Orderly
    (past : List Moment)
    (pulled : Pull (BroadcastJoin (Watched .left Left) (Watched .right Right))) :
    Prop where
  permitted : Disciplined past (momentsOf pulled.events)
  running :
    pulled.next.state.isActive = true →
      Running (past ++ momentsOf pulled.events) pulled.next.state.phase ∧
        pulled.block.isFailed = false

/-- Permitted moments may stand in front of an orderly pull. -/
theorem orderly_after
    {events : List Event}
    {later : Pull (BroadcastJoin (Watched .left Left) (Watched .right Right))}
    (permitted : Disciplined past (momentsOf events))
    (orderly : Orderly (past ++ momentsOf events) later) :
    Orderly past (later.after events) where
  permitted := by
    rw [Pull.after, momentsOf_append]
    exact disciplined_append permitted orderly.permitted
  running := by
    rw [Pull.after, momentsOf_append, ← List.append_assoc]
    exact orderly.running

/--
A pull behind which the join is not active leaves nothing to show of the past.
-/
theorem orderly_of_inactive
    {pulled : Pull (BroadcastJoin (Watched .left Left) (Watched .right Right))}
    (permitted : Disciplined past (momentsOf pulled.events))
    (inactive : pulled.next.state.isActive = false) :
    Orderly past pulled where
  permitted := permitted
  running active := by
    rw [inactive] at active
    cases active

/-- The frame of a pull involves no child. -/
theorem momentsOf_framed
    (join : BroadcastJoin (Watched .left Left) (Watched .right Right))
    (pulled : Pull (BroadcastJoin (Watched .left Left) (Watched .right Right))) :
    momentsOf (join.framed pulled).events = momentsOf pulled.events := by
  have opened :
      momentsOf (join.framed pulled).events =
        momentsOf
          (pulled.events ++
            [.pullAnswered pulled.block.label pulled.block.rows.length]) := rfl
  rw [opened, momentsOf_append]
  exact List.append_nil _

/-- A pull in its frame is as orderly as without it. -/
theorem orderly_framed
    {join : BroadcastJoin (Watched .left Left) (Watched .right Right)}
    {pulled : Pull (BroadcastJoin (Watched .left Left) (Watched .right Right))}
    (orderly : Orderly past pulled) :
    Orderly past (join.framed pulled) where
  permitted := by
    rw [momentsOf_framed]
    exact orderly.permitted
  running := by
    rw [momentsOf_framed]
    exact orderly.running

variable [Operator Left]

/-- One block is taken from the left child, and at its end there may be a sweep. -/
theorem momentsOf_pullLeft
    (state : JoinState)
    (left : Watched .left Left)
    (right : Watched .right Right) :
    ∃ rest, (rest = [] ∨ rest = [.swept]) ∧
      momentsOf (pullLeft ⟨state, left, right⟩).events =
        .pulled .left (Operator.pull left).block :: rest := by
  have reported := Watched.events_pull left
  cases answer : (Operator.pull left).block with
  | idle =>
      rw [pullLeft_idle answer, reported, answer]
      exact ⟨[], .inl rfl, rfl⟩
  | ended =>
      rw [pullLeft_ended answer, reported, answer, momentsOf_append,
        JoinState.momentsOf_finishProbe]
      refine ⟨state.endMoments, ?_, rfl⟩
      unfold JoinState.endMoments
      split
      · exact .inr rfl
      · exact .inl rfl
  | failed cause =>
      rw [pullLeft_failed answer, reported, answer]
      exact ⟨[], .inl rfl, rfl⟩
  | data block =>
      rw [pullLeft_data answer, reported, answer, momentsOf_append,
        JoinState.momentsOf_probe]
      exact ⟨[], .inl rfl, rfl⟩

/-- Taking a left block is one pull of the left child, and completes no table. -/
theorem leftPulls_pullLeft
    (state : JoinState)
    (left : Watched .left Left)
    (right : Watched .right Right) :
    leftPulls (momentsOf (pullLeft ⟨state, left, right⟩).events) = 1 ∧
      .built ∉ momentsOf (pullLeft ⟨state, left, right⟩).events := by
  obtain ⟨rest, rfl | rfl, shape⟩ := momentsOf_pullLeft state left right
  · rw [shape]
    exact ⟨rfl, by simp⟩
  · rw [shape]
    exact ⟨rfl, by simp⟩

/-- Taking a left block is orderly. -/
theorem orderly_pullLeft
    (probing : state.phase = .probing)
    (running : Running past .probing) :
    Orderly past (pullLeft ⟨state, left, right⟩) := by
  have permitted :
      Disciplined past (momentsOf (pullLeft ⟨state, left, right⟩).events) := by
    obtain ⟨rest, rfl | rfl, shape⟩ := momentsOf_pullLeft state left right
    · rw [shape]
      exact ⟨running.permits_left, trivial⟩
    · rw [shape]
      exact ⟨running.permits_left, trivial⟩
  have reported := Watched.events_pull left
  cases answer : (Operator.pull left).block with
  | idle =>
      rw [pullLeft_idle answer, reported, answer] at permitted ⊢
      refine ⟨permitted, fun _ => ⟨?_, rfl⟩⟩
      rw [probing]
      exact running.append_one rfl
  | ended =>
      rw [pullLeft_ended answer] at permitted ⊢
      exact orderly_of_inactive permitted state.isActive_finishProbe
  | failed cause =>
      rw [pullLeft_failed answer] at permitted ⊢
      exact orderly_of_inactive permitted rfl
  | data block =>
      rw [pullLeft_data answer, reported, answer] at permitted ⊢
      rcases state.probe_cases block.rows with inactive | ⟨notFailed, samePhase⟩
      · exact orderly_of_inactive permitted inactive
      · refine ⟨permitted, fun _ => ⟨?_, notFailed⟩⟩
        simp only [samePhase, probing, momentsOf_append, JoinState.momentsOf_probe]
        exact running.append_one rfl

variable [Operator Right]

/-- Draining the right child is orderly. -/
theorem orderly_pullRight
    (building : state.phase = .building)
    (running : Running past .building) :
    Orderly past (pullRight ⟨state, left, right⟩) := by
  -- One stored block after another: each of them makes the past longer by its pull.
  induction state, right using JoinState.drainRight_induction generalizing past with
  | step state right inductionHypothesis =>
      have goesOn := JoinState.beginBuild_of_building building
      have permits := running.permits_right rfl
      have reported := Watched.events_pull right
      cases answer : (Operator.pull right).block with
      | idle =>
          rw [pullRight_idle answer, reported, answer]
          refine ⟨⟨permits, trivial⟩, fun _ => ⟨?_, rfl⟩⟩
          exact running.append_one rfl
      | failed cause =>
          rw [pullRight_failed answer, reported, answer]
          exact orderly_of_inactive ⟨permits, trivial⟩ rfl
      | ended =>
          rw [pullRight_ended answer, reported, answer]
          apply orderly_after
          · exact ⟨permits, trivial⟩
          · exact orderly_pullLeft rfl running.turn
      | data block =>
          cases outcome : state.store block.rows with
          | error fault =>
              rw [← goesOn] at outcome
              rw [pullRight_refused answer outcome, reported, answer]
              exact orderly_of_inactive ⟨permits, trivial⟩ rfl
          | ok stored =>
              have stillBuilding := (JoinState.phase_store outcome).trans building
              have accepted := outcome
              rw [← goesOn] at accepted
              rw [pullRight_stored answer accepted, reported, answer]
              apply orderly_after
              · exact ⟨permits, trivial⟩
              · apply inductionHypothesis block stored answer outcome stillBuilding
                exact running.append_one rfl

/--
The left child is pulled once if the table was completed, and otherwise not at all.
-/
theorem leftPulls_pullRight (building : state.phase = .building) :
    leftPulls (momentsOf (pullRight ⟨state, left, right⟩).events) =
      if .built ∈ momentsOf (pullRight ⟨state, left, right⟩).events then 1
      else 0 := by
  induction state, right using JoinState.drainRight_induction with
  | step state right inductionHypothesis =>
      have goesOn := JoinState.beginBuild_of_building building
      have reported := Watched.events_pull right
      cases answer : (Operator.pull right).block with
      | idle =>
          rw [pullRight_idle answer, reported, answer]
          rfl
      | failed cause =>
          rw [pullRight_failed answer, reported, answer]
          rfl
      | ended =>
          rw [pullRight_ended answer, reported, answer, Pull.after,
            momentsOf_append, leftPulls_append, (leftPulls_pullLeft _ left _).1,
            if_pos]
          · rfl
          · exact List.mem_append_left _ (List.mem_cons_of_mem _ List.mem_cons_self)
      | data block =>
          cases outcome : state.store block.rows with
          | error fault =>
              rw [← goesOn] at outcome
              rw [pullRight_refused answer outcome, reported, answer]
              rfl
          | ok stored =>
              have stillBuilding := (JoinState.phase_store outcome).trans building
              have accepted := outcome
              rw [← goesOn] at accepted
              have later :=
                inductionHypothesis block stored answer outcome stillBuilding
              rw [pullRight_stored answer accepted, reported, answer, Pull.after,
                momentsOf_append, leftPulls_append, later]
              simp [momentsOf, Event.moment?, leftPulls, Moment.isLeftPull]

section Requests

variable {join : BroadcastJoin (Watched .left Left) (Watched .right Right)}

/-- A join that may not pull leaves its children alone. -/
theorem momentsOf_pull_of_inactive (inactive : join.state.isActive = false) :
    momentsOf join.pull.events = [] := by
  rw [pull_eq_of_inactive inactive, JoinState.lastEvents]
  split <;> rfl

/-- A pull of a join that may pull is orderly. -/
theorem orderly_pull
    (active : join.state.isActive = true)
    (running : Running past join.state.phase) :
    Orderly past join.pull := by
  obtain ⟨opened, fresh | building | probing⟩ := active_cases active
  · rw [pull_of_beforeProbing (by rw [fresh]; rfl) opened]
    apply orderly_framed
    rw [fresh] at running
    have sameDrain :
        join.pullRight =
          pullRight ⟨join.state.beginBuild, join.left, join.right⟩ := rfl
    rw [sameDrain]
    exact orderly_pullRight rfl running.begin
  · rw [pull_of_beforeProbing (by rw [building]; rfl) opened]
    apply orderly_framed
    rw [building] at running
    exact orderly_pullRight building running
  · rw [pull_of_probing probing opened]
    apply orderly_framed
    rw [probing] at running
    exact orderly_pullLeft probing running

/-- Draining the right child takes at most one block from the left one. -/
theorem leftPulls_of_pullRight
    {join : BroadcastJoin (Watched .left Left) (Watched .right Right)}
    (beforeProbing : join.state.phase.isBeforeProbing = true)
    (opened : join.state.closed = false) :
    leftPulls (momentsOf join.pull.events) ≤ 1 ∧
      (leftPulls (momentsOf join.pull.events) = 1 ↔
        .built ∈ momentsOf join.pull.events) := by
  have sameDrain :
      join.pullRight =
        pullRight ⟨join.state.beginBuild, join.left, join.right⟩ := rfl
  rw [pull_of_beforeProbing beforeProbing opened, momentsOf_framed, sameDrain,
    leftPulls_pullRight rfl]
  split
  · rename_i completed
    exact ⟨Nat.le_refl 1, iff_of_true rfl completed⟩
  · rename_i notCompleted
    exact ⟨Nat.zero_le 1, iff_of_false Nat.zero_ne_one notCompleted⟩

/--
The left child is pulled once by a pull that finds the join streaming its left input
or that completes the table, and not at all by any other.
-/
theorem leftPulls_pull
    (join : BroadcastJoin (Watched .left Left) (Watched .right Right)) :
    leftPulls (Operator.moments join .pull) ≤ 1 ∧
      (leftPulls (Operator.moments join .pull) = 1 ↔
        (join.state.phase = .probing ∧ join.state.closed = false) ∨
          .built ∈ Operator.moments join .pull) := by
  have split :
      Operator.moments join .pull =
        momentsOf join.pull.events ++ [.answered join.pull.block] := rfl
  have sameCount :
      leftPulls (Operator.moments join .pull) =
        leftPulls (momentsOf join.pull.events) := by
    rw [split, leftPulls_append]
    rfl
  have sameBuilt :
      .built ∈ Operator.moments join .pull ↔
        .built ∈ momentsOf join.pull.events := by
    rw [split, List.mem_append, or_iff_left]
    simp
  rw [sameCount, sameBuilt]
  cases active : join.state.isActive with
  | false =>
      rw [momentsOf_pull_of_inactive active]
      refine ⟨Nat.zero_le 1, iff_of_false Nat.zero_ne_one ?_⟩
      rintro (⟨probing, opened⟩ | impossible)
      · rw [JoinState.isActive_of_probing opened probing] at active
        cases active
      · cases impossible
  | true =>
      obtain ⟨opened, fresh | building | probing⟩ := active_cases active
      · have notProbing :
            ¬ (join.state.phase = .probing ∧ join.state.closed = false) := by
          simp [fresh]
        rw [or_iff_right notProbing]
        exact leftPulls_of_pullRight (by rw [fresh]; rfl) opened
      · have notProbing :
            ¬ (join.state.phase = .probing ∧ join.state.closed = false) := by
          simp [building]
        rw [or_iff_right notProbing]
        exact leftPulls_of_pullRight (by rw [building]; rfl) opened
      · rw [pull_of_probing probing opened, momentsOf_framed,
          (leftPulls_pullLeft join.state join.left join.right).1]
        exact ⟨Nat.le_refl 1, iff_of_true rfl (.inl ⟨probing, opened⟩)⟩

/-- A closed join may not pull, and closing it leaves its children unpulled. -/
theorem close_inactive
    (join : BroadcastJoin (Watched .left Left) (Watched .right Right)) :
    join.close.next.state.isActive = false ∧ momentsOf join.close.events = [] := by
  cases closed : join.state.closed with
  | true =>
      simp only [close, closed, if_true]
      refine ⟨?_, rfl⟩
      cases position : join.state.phase <;>
        simp [JoinState.isActive, position, closed]
  | false =>
      simp only [close, closed, Bool.false_eq_true, if_false]
      refine ⟨?_, rfl⟩
      cases position : join.state.phase <;>
        simp [JoinState.isActive, JoinState.release, position]

/-- The past of a join, which matters as long as the join may pull. -/
def Keeps
    (past : List Moment)
    (join : BroadcastJoin (Watched .left Left) (Watched .right Right)) : Prop :=
  join.state.isActive = true → Running past join.state.phase

/-- A request pulls the children as permitted and keeps the past in order. -/
theorem keeps_request
    (keeps : Keeps past join)
    (call : Call) :
    Disciplined past (Operator.moments join call) ∧
      Keeps (past ++ Operator.moments join call) (Operator.next join call) := by
  cases call with
  | pull =>
      change
        Disciplined past
            (momentsOf join.pull.events ++ [.answered join.pull.block]) ∧
          Keeps
            (past ++ (momentsOf join.pull.events ++ [.answered join.pull.block]))
            join.pull.next
      cases active : join.state.isActive with
      | false =>
          rw [momentsOf_pull_of_inactive active, (pull_of_inactive active).2]
          refine ⟨trivial, fun nowActive => ?_⟩
          rw [active] at nowActive
          cases nowActive
      | true =>
          have orderly := orderly_pull active (keeps active)
          refine ⟨disciplined_append orderly.permitted trivial, fun nowActive => ?_⟩
          obtain ⟨running, notFailed⟩ := orderly.running nowActive
          rw [← List.append_assoc]
          apply running.append_one
          rw [Moment.endsNothing, notFailed]
          rfl
  | close =>
      change Disciplined past (momentsOf join.close.events ++ [.closed]) ∧
        Keeps (past ++ (momentsOf join.close.events ++ [.closed])) join.close.next
      obtain ⟨inactive, noMoments⟩ := close_inactive join
      rw [noMoments]
      refine ⟨trivial, fun nowActive => ?_⟩
      rw [inactive] at nowActive
      cases nowActive

/-- Any requests pull the children as permitted. -/
theorem disciplined_history
    (keeps : Keeps past join)
    (calls : List Call) :
    Disciplined past (Operator.history join calls) := by
  induction calls generalizing past join with
  | nil => trivial
  | cons call rest inductionHypothesis =>
      obtain ⟨permitted, laterKeeps⟩ := keeps_request keeps call
      exact disciplined_append permitted (inductionHypothesis laterKeeps)

/--
Whatever is asked of an accepted join, and in whatever order, each pull of a child
is permitted by all moments before it; and a pull of the join takes at most one
block from its left child, namely one if it finds the join streaming its left input
or completes the table.
-/
theorem children_pulled_as_permitted
    {spec : JoinSpec}
    {options : JoinOptions}
    {order : BucketOrder}
    (accepted : ofSpec left right spec options order = .ok join)
    (calls : List Call) :
    (∀ before side block after,
      Operator.history join calls = before ++ .pulled side block :: after →
        Permits before side) ∧
    leftPulls (Operator.moments (Operator.afterCalls join calls) .pull) ≤ 1 ∧
    (leftPulls (Operator.moments (Operator.afterCalls join calls) .pull) = 1 ↔
      ((Operator.afterCalls join calls).state.phase = .probing ∧
          (Operator.afterCalls join calls).state.closed = false) ∨
        .built ∈ Operator.moments (Operator.afterCalls join calls) .pull) := by
  refine ⟨?_, leftPulls_pull _⟩
  intro before side block after split
  have keeps : Keeps [] join := by
    intro _
    rw [eq_ofPlan accepted]
    exact Running.nil rfl
  exact permits_of_disciplined (disciplined_history keeps calls) split

/-- One column of whole numbers. -/
def watchedSchema : Schema := ⟨[⟨"key", .int⟩]⟩

/-- A join that sweeps. -/
def watchedSpec : JoinSpec :=
  .equiJoin .right watchedSchema watchedSchema ⟨[0]⟩ ⟨[0]⟩

/-- A block of one row, for either side. -/
def watchedBlock : Block := .ofRows [[.int 1]] watchedSchema

/-- A watched left child that has a block behind its end. -/
def watchedLeft : Watched .left Replay :=
  ⟨.ofBlocks [watchedBlock, .ended, watchedBlock], 9⟩

/-- A watched right child that has a block behind its end. -/
def watchedRight : Watched .right Replay :=
  ⟨.ofBlocks [.idle, watchedBlock, .ended, watchedBlock], 9⟩

/--
What happens when a join of the two is pulled four times, closed, and pulled once
more.
-/
def watchedHistory : List Moment :=
  [.pulled .right .idle, .answered .idle,
    .pulled .right watchedBlock, .pulled .right .ended, .built,
    .pulled .left watchedBlock,
    .answered (.ofRows [[.int 1, .int 1]] watchedSpec.resultSchema),
    .pulled .left .ended, .swept, .answered (.ofRows [] watchedSpec.resultSchema),
    .answered .ended, .closed, .answered .ended]

/-- The sample join pulls its children in this order, and not beyond their ends. -/
theorem children_pulled_as_permitted_sample :
    ∃ join,
      ofSpec watchedLeft watchedRight watchedSpec .default = .ok join ∧
        Operator.history join [.pull, .pull, .pull, .pull, .close, .pull] =
          watchedHistory ∧
        (∀ before side block after,
          watchedHistory = before ++ .pulled side block :: after →
            Permits before side) ∧
        leftPulls (Operator.moments (Operator.afterCalls join [.pull]) .pull) =
          1 := by
  obtain ⟨join, accepted, shape, completed⟩ :
      ∃ join,
        ofSpec watchedLeft watchedRight watchedSpec .default = .ok join ∧
          Operator.history join [.pull, .pull, .pull, .pull, .close, .pull] =
            watchedHistory ∧
          .built ∈ Operator.moments (Operator.afterCalls join [.pull]) .pull :=
    ⟨_, rfl, by decide, by decide⟩
  refine ⟨join, accepted, shape, ?_, ?_⟩
  · rw [← shape]
    exact (children_pulled_as_permitted accepted _).1
  · exact (children_pulled_as_permitted accepted [.pull]).2.2.mpr (.inr completed)

end Requests

end BroadcastJoin

end StreamJoin
