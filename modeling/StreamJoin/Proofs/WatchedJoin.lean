import StreamJoin.Proofs.JoinLifecycle

namespace StreamJoin

/-!
# Watching changes nothing

A join answers the same whether its children are watched or not, as long as their
patience lasts.  For every list of requests there is enough of it, so the histories
of watched joins are those of all joins: what is shown of them, by the pull
discipline and by the lifecycle, is shown of joins over any children.
-/

namespace Watched

variable {side : Side} {Child : Type}

/-- A watched child that goes on like the child for some more pulls. -/
structure Agrees (watched : Watched side Child) (pulls : Nat) (child : Child) :
    Prop where
  child_eq : watched.child = child
  patient : pulls ≤ watched.patience

variable {pulls : Nat} {watched : Watched side Child} {child : Child}

/-- Patience for more pulls is patience for fewer. -/
theorem Agrees.weaken
    {fewer : Nat}
    (agrees : watched.Agrees pulls child)
    (le : fewer ≤ pulls) :
    watched.Agrees fewer child :=
  ⟨agrees.child_eq, Nat.le_trans le agrees.patient⟩

variable [Operator Child]

/-- A pull takes up some patience and is answered alike. -/
theorem Agrees.pull (agrees : watched.Agrees (pulls + 1) child) :
    (Operator.pull watched).block = (Operator.pull child).block ∧
      (Operator.pull watched).next.Agrees pulls (Operator.pull child).next := by
  obtain ⟨inner, patience⟩ := watched
  obtain ⟨rfl, patient⟩ := agrees
  cases patience with
  | zero => cases patient
  | succ patience => exact ⟨rfl, rfl, Nat.le_of_succ_le_succ patient⟩

/-- Closing takes up no patience. -/
theorem Agrees.close (agrees : watched.Agrees pulls child) :
    (Operator.close watched).next.Agrees pulls (Operator.close child).next :=
  ⟨congrArg (fun inner => (Operator.close inner).next) agrees.child_eq,
    agrees.patient⟩

end Watched

namespace BroadcastJoin

variable {Left Right : Type}

/-- A join with watched children that goes on like the join for some more pulls. -/
structure Agrees
    (watched : BroadcastJoin (Watched .left Left) (Watched .right Right))
    (pulls : Nat)
    (join : BroadcastJoin Left Right) : Prop where
  state_eq : watched.state = join.state
  left : watched.left.Agrees pulls join.left
  right : watched.right.Agrees pulls join.right

/-- Two pulls with the same answer, behind which the joins still agree. -/
def SameAnswer
    (pulls : Nat)
    (watched : Pull (BroadcastJoin (Watched .left Left) (Watched .right Right)))
    (pulled : Pull (BroadcastJoin Left Right)) : Prop :=
  watched.block = pulled.block ∧ watched.next.Agrees pulls pulled.next

/-- Patience of both children for more pulls is patience for fewer. -/
theorem Agrees.weaken
    {pulls fewer : Nat}
    {watched : BroadcastJoin (Watched .left Left) (Watched .right Right)}
    {join : BroadcastJoin Left Right}
    (agrees : watched.Agrees pulls join)
    (le : fewer ≤ pulls) :
    watched.Agrees fewer join :=
  ⟨agrees.state_eq, agrees.left.weaken le, agrees.right.weaken le⟩

/-- Answers that are the same are so in their frames. -/
theorem sameAnswer_framed
    {pulls : Nat}
    {watched : BroadcastJoin (Watched .left Left) (Watched .right Right)}
    {join : BroadcastJoin Left Right}
    {watchedPull : Pull (BroadcastJoin (Watched .left Left) (Watched .right Right))}
    {pulled : Pull (BroadcastJoin Left Right)}
    (same : SameAnswer pulls watchedPull pulled) :
    SameAnswer pulls (watched.framed watchedPull) (join.framed pulled) := same

variable [Operator Left]
variable {pulls : Nat} {state : JoinState} {left : Left} {right : Right}
variable {watchedLeft : Watched .left Left} {watchedRight : Watched .right Right}

/-- Taking a left block takes up one pull of patience. -/
theorem sameAnswer_pullLeft
    (leftAgrees : watchedLeft.Agrees (pulls + 1) left)
    (rightAgrees : watchedRight.Agrees pulls right) :
    SameAnswer pulls (pullLeft ⟨state, watchedLeft, watchedRight⟩)
      (pullLeft ⟨state, left, right⟩) := by
  obtain ⟨sameBlock, laterAgrees⟩ := leftAgrees.pull
  cases answer : (Operator.pull left).block with
  | idle =>
      rw [pullLeft_idle answer, pullLeft_idle (sameBlock.trans answer)]
      exact ⟨rfl, rfl, laterAgrees, rightAgrees⟩
  | ended =>
      rw [pullLeft_ended answer, pullLeft_ended (sameBlock.trans answer)]
      exact ⟨rfl, rfl, laterAgrees, rightAgrees⟩
  | failed cause =>
      rw [pullLeft_failed answer, pullLeft_failed (sameBlock.trans answer)]
      exact ⟨rfl, rfl, laterAgrees, rightAgrees⟩
  | data block =>
      rw [pullLeft_data answer, pullLeft_data (sameBlock.trans answer)]
      exact ⟨rfl, rfl, laterAgrees, rightAgrees⟩

variable [Drainable Right]

/--
Draining the right child takes finitely many pulls, which patience allows for.
-/
theorem exists_sameAnswer_pullRight
    (left : Left)
    (state : JoinState)
    (right : Right)
    (building : state.phase = .building) :
    ∃ cost,
      ∀ pulls (watchedLeft : Watched .left Left)
        (watchedRight : Watched .right Right),
        watchedLeft.Agrees (pulls + cost) left →
          watchedRight.Agrees (pulls + cost) right →
            SameAnswer pulls (pullRight ⟨state, watchedLeft, watchedRight⟩)
              (pullRight ⟨state, left, right⟩) := by
  induction state, right using JoinState.drainRight_induction with
  | step state right inductionHypothesis =>
      have goesOn := JoinState.beginBuild_of_building building
      cases answer : (Operator.pull right).block with
      | idle =>
          refine
            ⟨1, fun pulls watchedLeft watchedRight leftAgrees rightAgrees => ?_⟩
          obtain ⟨sameBlock, laterAgrees⟩ := rightAgrees.pull
          rw [pullRight_idle answer, pullRight_idle (sameBlock.trans answer)]
          exact ⟨rfl, rfl, leftAgrees.weaken (Nat.le_succ pulls), laterAgrees⟩
      | failed cause =>
          refine
            ⟨1, fun pulls watchedLeft watchedRight leftAgrees rightAgrees => ?_⟩
          obtain ⟨sameBlock, laterAgrees⟩ := rightAgrees.pull
          rw [pullRight_failed answer, pullRight_failed (sameBlock.trans answer)]
          exact ⟨rfl, rfl, leftAgrees.weaken (Nat.le_succ pulls), laterAgrees⟩
      | ended =>
          refine
            ⟨2, fun pulls watchedLeft watchedRight leftAgrees rightAgrees => ?_⟩
          obtain ⟨sameBlock, laterAgrees⟩ := rightAgrees.pull
          rw [pullRight_ended answer, pullRight_ended (sameBlock.trans answer)]
          exact
            sameAnswer_pullLeft (leftAgrees.weaken (Nat.le_succ (pulls + 1)))
              (laterAgrees.weaken (Nat.le_succ pulls))
      | data block =>
          cases outcome : state.store block.rows with
          | error fault =>
              rw [← goesOn] at outcome
              refine
                ⟨1, fun pulls watchedLeft watchedRight leftAgrees rightAgrees => ?_⟩
              obtain ⟨sameBlock, laterAgrees⟩ := rightAgrees.pull
              rw [pullRight_refused answer outcome,
                pullRight_refused (sameBlock.trans answer) outcome]
              exact ⟨rfl, rfl, leftAgrees.weaken (Nat.le_succ pulls), laterAgrees⟩
          | ok stored =>
              have stillBuilding := (JoinState.phase_store outcome).trans building
              obtain ⟨cost, later⟩ :=
                inductionHypothesis block stored answer outcome stillBuilding
              rw [← goesOn] at outcome
              refine
                ⟨cost + 1,
                  fun pulls watchedLeft watchedRight leftAgrees rightAgrees => ?_⟩
              obtain ⟨sameBlock, laterAgrees⟩ := rightAgrees.pull
              rw [pullRight_stored answer outcome,
                pullRight_stored (sameBlock.trans answer) outcome]
              exact
                later pulls watchedLeft _
                  (leftAgrees.weaken (Nat.le_succ (pulls + cost))) laterAgrees

/-- A pull of a join that builds takes up finitely much patience. -/
theorem exists_sameAnswer_pull_of_beforeProbing
    {join : BroadcastJoin Left Right}
    (beforeProbing : join.state.phase.isBeforeProbing = true)
    (opened : join.state.closed = false) :
    ∃ cost,
      ∀ pulls
        (watched : BroadcastJoin (Watched .left Left) (Watched .right Right)),
        watched.Agrees (pulls + cost) join →
          SameAnswer pulls watched.pull join.pull := by
  obtain ⟨cost, drained⟩ :=
    exists_sameAnswer_pullRight join.left join.state.beginBuild join.right rfl
  refine ⟨cost, ?_⟩
  rintro pulls ⟨_, watchedLeft, watchedRight⟩ ⟨rfl, leftAgrees, rightAgrees⟩
  have watchedPull :
      (BroadcastJoin.mk join.state watchedLeft watchedRight).pull = _ :=
    pull_of_beforeProbing beforeProbing opened
  rw [pull_of_beforeProbing beforeProbing opened, watchedPull]
  apply sameAnswer_framed
  exact drained pulls watchedLeft watchedRight leftAgrees rightAgrees

/-- A pull costs finitely many pulls of the children. -/
theorem exists_sameAnswer_pull (join : BroadcastJoin Left Right) :
    ∃ cost,
      ∀ pulls
        (watched : BroadcastJoin (Watched .left Left) (Watched .right Right)),
        watched.Agrees (pulls + cost) join →
          SameAnswer pulls watched.pull join.pull := by
  cases active : join.state.isActive with
  | false =>
      refine ⟨0, fun pulls watched agrees => ?_⟩
      have watchedInactive : watched.state.isActive = false :=
        agrees.state_eq ▸ active
      obtain ⟨sameBlock, sameNext⟩ := pull_of_inactive active
      obtain ⟨watchedBlock, watchedNext⟩ := pull_of_inactive watchedInactive
      rw [SameAnswer, sameBlock, sameNext, watchedBlock, watchedNext,
        agrees.state_eq]
      exact ⟨rfl, agrees⟩
  | true =>
      obtain ⟨opened, fresh | building | probing⟩ := active_cases active
      · exact exists_sameAnswer_pull_of_beforeProbing (by rw [fresh]; rfl) opened
      · exact exists_sameAnswer_pull_of_beforeProbing (by rw [building]; rfl) opened
      · refine ⟨1, ?_⟩
        rintro pulls ⟨_, watchedLeft, watchedRight⟩ ⟨rfl, leftAgrees, rightAgrees⟩
        have watchedPull :
            (BroadcastJoin.mk join.state watchedLeft watchedRight).pull = _ :=
          pull_of_probing probing opened
        rw [pull_of_probing probing opened, watchedPull]
        apply sameAnswer_framed
        exact
          sameAnswer_pullLeft leftAgrees (rightAgrees.weaken (Nat.le_succ pulls))

/-- Closing a join takes up no patience. -/
theorem agrees_close
    {watched : BroadcastJoin (Watched .left Left) (Watched .right Right)}
    {join : BroadcastJoin Left Right}
    (agrees : watched.Agrees pulls join) :
    watched.close.next.Agrees pulls join.close.next := by
  unfold close
  rw [agrees.state_eq]
  cases join.state.closed with
  | true => exact agrees
  | false => exact ⟨rfl, agrees.left.close, agrees.right.close⟩

/--
With patience, watching the children changes neither the answers nor the state of a
join.
-/
theorem exists_replies_watched
    (join : BroadcastJoin Left Right)
    (calls : List Call) :
    ∃ enough, ∀ watched : BroadcastJoin (Watched .left Left) (Watched .right Right),
      watched.Agrees enough join →
        Operator.replies watched calls = Operator.replies join calls ∧
          (Operator.afterCalls watched calls).state =
            (Operator.afterCalls join calls).state := by
  induction calls generalizing join with
  | nil => exact ⟨0, fun _ agrees => ⟨rfl, agrees.state_eq⟩⟩
  | cons call rest inductionHypothesis =>
      cases call with
      | pull =>
          obtain ⟨cost, sameAnswer⟩ := exists_sameAnswer_pull join
          obtain ⟨enough, later⟩ := inductionHypothesis join.pull.next
          refine ⟨enough + cost, fun watched agrees => ?_⟩
          obtain ⟨sameBlock, laterAgrees⟩ := sameAnswer enough watched agrees
          obtain ⟨sameReplies, sameState⟩ := later watched.pull.next laterAgrees
          exact ⟨List.cons_eq_cons.mpr ⟨sameBlock, sameReplies⟩, sameState⟩
      | close =>
          obtain ⟨enough, later⟩ := inductionHypothesis join.close.next
          exact
            ⟨enough,
              fun watched agrees => later watched.close.next (agrees_close agrees)⟩

/--
An accepted join over any children has a twin over watched ones that answers the
same and comes to the same state.  So what is seen of the children of the twin
happens to those of the join: each pull of a child is permitted by all moments
before it, and no child is pulled as long as the join is in its first phase.
-/
theorem exists_watched_twin
    {left : Left}
    {right : Right}
    {spec : JoinSpec}
    {options : JoinOptions}
    {order : BucketOrder}
    {join : BroadcastJoin Left Right}
    (accepted : ofSpec left right spec options order = .ok join)
    (calls : List Call) :
    ∃ (patience : Nat)
      (twin : BroadcastJoin (Watched .left Left) (Watched .right Right)),
      ofSpec ⟨left, patience⟩ ⟨right, patience⟩ spec options order = .ok twin ∧
        Operator.replies twin calls = Operator.replies join calls ∧
        (Operator.afterCalls twin calls).state =
          (Operator.afterCalls join calls).state ∧
        (∀ before side block after,
          Operator.history twin calls = before ++ .pulled side block :: after →
            Permits before side) ∧
        ((Operator.afterCalls join calls).state.phase = .fresh →
          NoPulls (Operator.history twin calls)) := by
  obtain ⟨plan, checked, rfl⟩ := exists_plan_of_ofSpec accepted
  obtain ⟨patience, same⟩ :=
    exists_replies_watched ⟨.ofPlan plan, left, right⟩ calls
  let twin : BroadcastJoin (Watched .left Left) (Watched .right Right) :=
    ⟨.ofPlan plan, ⟨left, patience⟩, ⟨right, patience⟩⟩
  have agrees : twin.Agrees patience ⟨.ofPlan plan, left, right⟩ :=
    ⟨rfl, ⟨rfl, Nat.le_refl patience⟩, ⟨rfl, Nat.le_refl patience⟩⟩
  obtain ⟨sameReplies, sameState⟩ := same twin agrees
  have keeps : Keeps [] twin := fun _ => Running.nil rfl
  refine ⟨patience, twin, ?accepted, sameReplies, sameState, ?permitted, ?untouched⟩
  case accepted =>
    rw [ofSpec, checked]
    rfl
  case permitted =>
    intro before side block after split
    exact permits_of_disciplined (disciplined_history keeps calls) split
  case untouched =>
    intro staysFresh
    rw [← sameState] at staysFresh
    exact noPulls_history calls staysFresh

end BroadcastJoin

end StreamJoin
