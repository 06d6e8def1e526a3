import StreamJoin.Proofs.CounterTotals
import StreamJoin.Proofs.RecordedRuns
import StreamJoin.Proofs.TreeMeaning

namespace StreamJoin

/-!
# The counters of a tree of joins

Each join keeps statistics of its own, and all joins of a program share five
counters.  After any requests to a tree the statistics of each join are those of its
history, and the shared counters are the totals over all joins of the tree.

Both are shown together, for one request first.  A request to a tree is a list of
steps at whatever joins: each of them keeps the record of its join true, and adds to
the totals what it reports.
-/

/-- The joins of some records. -/
def statesOf (records : List JoinRecord) : List JoinState :=
  records.map JoinRecord.state

/--
A change of records in which true records stay true, and the totals grow by what is
reported.
-/
def Accounted (before after : List JoinRecord) (events : List Event) : Prop :=
  (∀ record ∈ before, record.Kept) →
    (∀ record ∈ after, record.Kept) ∧
      totalsOf (statesOf after) = totalsOf (statesOf before) + gained events

namespace Accounted

variable {before middle after otherBefore otherAfter : List JoinRecord}
variable {events later : List Event}

/-- Without events nothing is to be accounted for. -/
theorem refl (records : List JoinRecord) : Accounted records records [] :=
  fun kept => ⟨kept, (add_zero _).symm⟩

/-- Events are accounted for one stretch after the other. -/
theorem trans
    (first : Accounted before middle events)
    (second : Accounted middle after later) :
    Accounted before after (events ++ later) := by
  intro kept
  obtain ⟨middleKept, middleTotals⟩ := first kept
  obtain ⟨afterKept, afterTotals⟩ := second middleKept
  refine ⟨afterKept, ?_⟩
  rw [afterTotals, middleTotals, gained_append, add_assoc]

/-- What two groups of joins gain is accounted for together. -/
theorem append
    (first : Accounted before after events)
    (second : Accounted otherBefore otherAfter later) :
    Accounted (before ++ otherBefore) (after ++ otherAfter) (events ++ later) := by
  intro kept
  obtain ⟨firstKept, firstTotals⟩ :=
    first fun record member => kept record (List.mem_append_left _ member)
  obtain ⟨secondKept, secondTotals⟩ :=
    second fun record member => kept record (List.mem_append_right _ member)
  refine ⟨?_, ?_⟩
  · intro record member
    rcases List.mem_append.mp member with inFirst | inSecond
    · exact firstKept record inFirst
    · exact secondKept record inSecond
  · simp only [statesOf, List.map_append,
      totalsOf_append] at firstTotals secondTotals ⊢
    rw [firstTotals, secondTotals, gained_append, add_add_add_comm]

/--
A step of one join is accounted for if its record stays true and it reports what it
gains.
-/
theorem of_step
    {record next : JoinRecord}
    (staysKept : record.Kept → next.Kept)
    (gains :
      record.Kept →
        totalsOf [next.state] = totalsOf [record.state] + gained events) :
    Accounted [record] [next] events := by
  intro allKept
  have kept := allKept record List.mem_cons_self
  refine ⟨?_, gains kept⟩
  intro other member
  rw [List.mem_singleton.mp member]
  exact staysKept kept

/-- Events count the same in any order. -/
theorem of_gained_eq
    (accounted : Accounted before after events)
    (same : gained later = gained events) :
    Accounted before after later := by
  intro kept
  rw [same]
  exact accounted kept

end Accounted

namespace Operator

variable {State : Type} [Operator State]

/-- Records that every request accounts for. -/
structure Audited (recordsOf : State → List JoinRecord) : Prop where
  pulled :
    ∀ state,
      Accounted (recordsOf state) (recordsOf (pull state).next) (pull state).events
  closed :
    ∀ state,
      Accounted (recordsOf state) (recordsOf (close state).next)
        (close state).events

/-- Any requests to an audited operator are accounted for. -/
theorem Audited.afterCalls
    {recordsOf : State → List JoinRecord}
    (audited : Audited recordsOf)
    (state : State)
    (calls : List Call) :
    Accounted (recordsOf state) (recordsOf (afterCalls state calls))
      (reports state calls) := by
  induction calls generalizing state with
  | nil => exact .refl (recordsOf state)
  | cons call rest inductionHypothesis =>
      cases call with
      | pull =>
          exact (audited.pulled state).trans (inductionHypothesis (pull state).next)
      | close =>
          exact (audited.closed state).trans
            (inductionHypothesis (close state).next)

end Operator

namespace BroadcastJoin

variable {Left Right : Type}
variable {leftRecords : Noted Left → List JoinRecord}
variable {rightRecords : Noted Right → List JoinRecord}

/-- The records of a join with noted children and of all joins below it. -/
def records
    (leftRecords : Noted Left → List JoinRecord)
    (rightRecords : Noted Right → List JoinRecord)
    (join : BroadcastJoin (Noted Left) (Noted Right))
    (answers : List Block) : List JoinRecord :=
  [join.record answers] ++ (leftRecords join.left ++ rightRecords join.right)

/-- Events of a join and of its children are accounted for, in any order. -/
theorem accounted_records
    {join next : BroadcastJoin (Noted Left) (Noted Right)}
    {answers nextAnswers : List Block}
    {leftEvents rightEvents events : List Event}
    (ownEvents : List Event)
    (own : Accounted [join.record answers] [next.record nextAnswers] ownEvents)
    (left : Accounted (leftRecords join.left) (leftRecords next.left) leftEvents)
    (right :
      Accounted (rightRecords join.right) (rightRecords next.right) rightEvents)
    (gained_eq :
      gained events = gained ownEvents + (gained leftEvents + gained rightEvents)) :
    Accounted (join.records leftRecords rightRecords answers)
      (next.records leftRecords rightRecords nextAnswers) events := by
  apply (own.append (left.append right)).of_gained_eq
  rw [gained_append, gained_append, gained_eq]

/-- Taking a left block is accounted for. -/
theorem accounted_pullLeft
    [Operator Left]
    {join : BroadcastJoin (Noted Left) (Noted Right)}
    {answers : List Block}
    (leftAudited : Operator.Audited leftRecords)
    (opened : join.state.closed = false)
    (probing : join.state.phase = .probing) :
    Accounted (join.records leftRecords rightRecords answers)
      (join.pullLeft.next.records leftRecords rightRecords
        (answers ++ [join.pullLeft.block]))
      join.pullLeft.events := by
  have active := JoinState.isActive_of_probing opened probing
  rw [pullLeft_eq_receive]
  refine
    accounted_records
      (join.state.receiveLeft (Operator.pull join.left).block).events ?_
      (leftAudited.pulled join.left) (.refl (rightRecords join.right)) ?_
  · apply Accounted.of_step
    · intro kept
      obtain ⟨stored, streaming⟩ := kept.probing active probing
      exact streaming.receiveLeft kept.truthful _
    · intro kept
      obtain ⟨stored, streaming⟩ := kept.probing active probing
      exact
        JoinState.totalsOf_receiveLeft (JoinState.noFailure_of_active active)
          (streaming.unmatchedRightRows_eq kept.truthful) _
  · exact (gained_append _ _).trans (add_comm _ _)

/-- Taking a right block is accounted for. -/
theorem accounted_receivedRight
    [Drainable Right]
    {join : BroadcastJoin (Noted Left) (Noted Right)}
    (leftRecords : Noted Left → List JoinRecord)
    (answers : List Block)
    (rightAudited : Operator.Audited rightRecords)
    (opened : join.state.closed = false)
    (beforeProbing : join.state.phase.isBeforeProbing = true) :
    Accounted (join.records leftRecords rightRecords answers)
      (join.behindRight.records leftRecords rightRecords
        (answers ++ join.receivedRight.answer?.toList))
      join.rightEvents := by
  have active := JoinState.isActive_of_beforeProbing beforeProbing opened
  refine
    accounted_records join.receivedRight.events ?_ (.refl (leftRecords join.left))
      (rightAudited.pulled join.right) ?_
  · apply Accounted.of_step
    · intro kept
      exact (kept.building active beforeProbing).receiveRight kept.truthful _
    · intro _
      have begun : totalsOf [join.state.beginBuild] = totalsOf [join.state] :=
        JoinState.totalsOf_beginBuild (JoinState.noFailure_of_active active)
      exact begun ▸ JoinState.totalsOf_receiveRight rfl _
  · refine (gained_append _ _).trans ?_
    rw [add_comm]
    exact congrArg _ (zero_add _).symm

/-- The events around a pull that is let through count nothing. -/
theorem gained_framed
    (join : BroadcastJoin (Noted Left) (Noted Right))
    (pulled : Pull (BroadcastJoin (Noted Left) (Noted Right))) :
    gained (join.framed pulled).events = gained pulled.events := by
  rw [framed, gained, Counters.recordAll, List.foldl_cons, List.foldl_append]
  rfl

section Requests

variable [Operator Left] [Drainable Right]
variable {join : BroadcastJoin (Noted Left) (Noted Right)}

/--
A pull that is let through is accounted for, one received block after another.
-/
theorem accounted_advance
    (leftAudited : Operator.Audited leftRecords)
    (rightAudited : Operator.Audited rightRecords)
    (active : join.state.isActive = true)
    (answers : List Block) :
    Accounted (join.records leftRecords rightRecords answers)
      (join.advance.next.records leftRecords rightRecords
        (answers ++ [join.advance.block]))
      join.advance.events := by
  apply advance_induction
    (motive := fun join pulled =>
      Accounted (join.records leftRecords rightRecords answers)
        (pulled.next.records leftRecords rightRecords (answers ++ [pulled.block]))
        pulled.events)
    _ _ _ active
  · exact fun join opened probing => accounted_pullLeft leftAudited opened probing
  · intro join answered opened beforeProbing answersRight
    have received :=
      accounted_receivedRight leftRecords answers rightAudited opened beforeProbing
    rw [answersRight] at received
    exact received
  · intro join opened beforeProbing goesOn later
    have received :=
      accounted_receivedRight leftRecords answers rightAudited opened beforeProbing
    rw [goesOn, Option.toList_none, List.append_nil] at received
    exact received.trans later

/-- A pull is accounted for. -/
theorem accounted_pull
    (leftAudited : Operator.Audited leftRecords)
    (rightAudited : Operator.Audited rightRecords)
    (join : BroadcastJoin (Noted Left) (Noted Right))
    (answers : List Block) :
    Accounted (join.records leftRecords rightRecords answers)
      (join.pull.next.records leftRecords rightRecords
        (answers ++ [join.pull.block]))
      join.pull.events := by
  cases active : join.state.isActive with
  | true =>
      rw [pull_of_isActive active]
      apply (accounted_advance leftAudited rightAudited active answers).of_gained_eq
      exact gained_framed join join.advance
  | false =>
      obtain ⟨block_eq, next_eq⟩ := pull_of_inactive active
      rw [block_eq, next_eq]
      have own :
          Accounted [join.record answers]
            [join.record (answers ++ [join.state.lastBlock])] [] :=
        .of_step (fun kept => kept.append_lastBlock active) fun _ => rfl
      apply
        accounted_records [] own (.refl (leftRecords join.left))
          (.refl (rightRecords join.right))
      exact recordAll_pull_of_inactive active .zero

/-- A closing is accounted for. -/
theorem accounted_close
    (leftAudited : Operator.Audited leftRecords)
    (rightAudited : Operator.Audited rightRecords)
    (join : BroadcastJoin (Noted Left) (Noted Right))
    (answers : List Block) :
    Accounted (join.records leftRecords rightRecords answers)
      (join.close.next.records leftRecords rightRecords answers)
      join.close.events := by
  unfold close
  split
  · exact .refl _
  · refine
      accounted_records [] ?_ (leftAudited.closed join.left)
        (rightAudited.closed join.right) ?_
    · exact .of_step (fun kept => kept.release) fun _ => rfl
    · rw [gained_append, gained_append]
      exact (add_zero _).trans (zero_add _).symm

/-- Every request to a join is accounted for, at the join and below it. -/
theorem audited_records
    (leftAudited : Operator.Audited leftRecords)
    (rightAudited : Operator.Audited rightRecords) :
    Operator.Audited fun noted : Noted (BroadcastJoin (Noted Left) (Noted Right)) =>
      noted.operator.records leftRecords rightRecords noted.answered where
  pulled noted :=
    accounted_pull leftAudited rightAudited noted.operator noted.answered
  closed noted :=
    accounted_close leftAudited rightAudited noted.operator noted.answered

end Requests

end BroadcastJoin

/-- A queued source reports nothing. -/
theorem Replay.events_pull (source : Replay) : source.pull.events = [] := by
  unfold pull
  split <;> rfl

namespace NotedTree

/-- The records of the joins of a noted tree, in preorder. -/
def recordsOf : {shape : Shape} → Noted (NotedTree shape) → List JoinRecord
  | .source, _ => []
  | .join _ _, noted =>
      BroadcastJoin.records recordsOf recordsOf noted.operator noted.answered

/-- Every tree is audited by the records of its joins. -/
theorem audited_recordsOf : (shape : Shape) →
    Operator.Audited (recordsOf : Noted (NotedTree shape) → List JoinRecord)
  | .source => {
      pulled := fun noted =>
        (Accounted.refl []).of_gained_eq
          (congrArg gained (Replay.events_pull noted.operator))
      closed := fun _ => .refl [] }
  | .join left right =>
      BroadcastJoin.audited_records (audited_recordsOf left)
        (audited_recordsOf right)

/-- The records are about the joins of the tree. -/
theorem statesOf_recordsOf {shape : Shape} (noted : Noted (NotedTree shape)) :
    statesOf (recordsOf noted) = noted.operator.erase.joins := by
  induction shape with
  | source => rfl
  | join leftShape rightShape leftHypothesis rightHypothesis =>
      obtain ⟨⟨state, left, right⟩, answered⟩ := noted
      have children :=
        congrArg₂ (· ++ ·) (leftHypothesis left) (rightHypothesis right)
      simp only [statesOf, recordsOf, BroadcastJoin.records,
        List.map_append] at children ⊢
      rw [children]
      rfl

/--
A join that was just accepted has an empty record in front of those of its children.
-/
theorem recordsOf_noted
    {leftShape rightShape : Shape}
    {left : Tree leftShape}
    {right : Tree rightShape}
    {spec : JoinSpec}
    {options : JoinOptions}
    {order : BucketOrder}
    {tree : Tree (.join leftShape rightShape)}
    (accepted : Tree.ofSpec left right spec options order = .ok tree) :
    recordsOf tree.noted =
      [⟨.ofPlan tree.root.plan, [], [], []⟩] ++
        (recordsOf left.noted ++ recordsOf right.noted) := by
  have fresh : tree = BroadcastJoin.mk (.ofPlan tree.root.plan) left right :=
    BroadcastJoin.eq_ofPlan accepted
  rw [fresh]
  simp only [Tree.noted, recordsOf, BroadcastJoin.records, BroadcastJoin.record,
    BroadcastJoin.map, answered_noted]
  rfl

/-- All joins of a tree that was just built have kept their ledgers. -/
theorem kept_of_built
    {shape : Shape}
    {tree : Tree shape}
    (built : tree.Built) :
    ∀ record ∈ recordsOf tree.noted, record.Kept := by
  induction built with
  | source source => exact fun _ member => absurd member List.not_mem_nil
  | @join _ _ left right _ _ _ tree _ _ accepted leftHypothesis rightHypothesis =>
      intro record member
      rw [recordsOf_noted accepted] at member
      rcases List.mem_append.mp member with own | below
      · rw [List.mem_singleton.mp own]
        exact JoinRecord.kept_ofPlan tree.root.plan
      · rcases List.mem_append.mp below with inLeft | inRight
        · exact leftHypothesis record inLeft
        · exact rightHypothesis record inRight

/-- The joins of a tree that was just built count nothing. -/
theorem totalsOf_built
    {shape : Shape}
    {tree : Tree shape}
    (built : tree.Built) :
    totalsOf (statesOf (recordsOf tree.noted)) = 0 := by
  induction built with
  | source source => rfl
  | @join _ _ left right _ _ _ tree _ _ accepted leftHypothesis rightHypothesis =>
      simp only [statesOf] at leftHypothesis rightHypothesis ⊢
      rw [recordsOf_noted accepted, List.map_append, List.map_append,
        totalsOf_append, totalsOf_append, leftHypothesis, rightHypothesis, add_zero,
        add_zero]
      exact JoinState.totalsOf_ofPlan tree.root.plan

/-- The shared counters behind any requests to a tree that was just built. -/
theorem recordAll_reports
    {shape : Shape}
    {tree : Tree shape}
    (built : tree.Built)
    (calls : List Call) :
    Counters.zero.recordAll (Operator.reports tree calls) =
      totalsOf (Operator.afterCalls tree calls).joins := by
  have audited := (audited_recordsOf shape).afterCalls tree.noted calls
  obtain ⟨_, runTotals⟩ := audited (kept_of_built built)
  rw [totalsOf_built built, reports_noted, statesOf_recordsOf,
    erase_afterCalls] at runTotals
  exact (runTotals.trans (zero_add _)).symm

end NotedTree

namespace Tree

/--
Whatever is asked of a tree that was just built: the statistics of each of its joins
are those of its history, and the shared counters, if they were reset before, are
the totals over all its joins.
-/
theorem counters_truthful
    {shape : Shape}
    {tree : Tree shape}
    (built : tree.Built)
    (calls : List Call) :
    let run := Operator.afterCalls tree.noted calls
    run.operator.erase = Operator.afterCalls tree calls ∧
      run.answered = Operator.replies tree calls ∧
      statesOf (NotedTree.recordsOf run) = (Operator.afterCalls tree calls).joins ∧
      (∀ record ∈ NotedTree.recordsOf run, record.Truthful) ∧
      Counters.zero.recordAll (Operator.reports tree calls) =
        totalsOf (Operator.afterCalls tree calls).joins := by
  intro run
  have erased := NotedTree.erase_afterCalls tree calls
  have states_eq :
      statesOf (NotedTree.recordsOf run) = (Operator.afterCalls tree calls).joins :=
    (NotedTree.statesOf_recordsOf run).trans (congrArg joins erased)
  have audited := (NotedTree.audited_recordsOf shape).afterCalls tree.noted calls
  obtain ⟨runKept, runTotals⟩ := audited (NotedTree.kept_of_built built)
  refine ⟨erased, NotedTree.answered_afterCalls tree calls, states_eq, ?_, ?_⟩
  · exact fun record member => (runKept record member).truthful
  · rw [NotedTree.totalsOf_built built, NotedTree.reports_noted] at runTotals
    rw [← states_eq]
    exact (runTotals.trans (zero_add _)).symm

/--
Closed behind its first data block, the sample tree has not swept its unpaired rows.
-/
theorem counters_truthful_sample :
    let calls : List Call := List.replicate 4 .pull ++ [.close, .pull]
    let run := Operator.afterCalls sampleTree.noted calls
    (∀ record ∈ NotedTree.recordsOf run, record.Truthful) ∧
      (Operator.afterCalls sampleTree calls).joins.map JoinState.stats =
        [⟨4, 6, 3, 1, 2, 3, 0⟩, ⟨2, 5, 3, 3, 3, 6, 2⟩] ∧
      Counters.zero.recordAll (Operator.reports sampleTree calls) =
        ⟨11, 5, 9, 2, 0⟩ := by
  intro calls run
  obtain ⟨_, _, _, truthful, totals⟩ := counters_truthful built_sampleTree calls
  have stats_eq :
      (Operator.afterCalls sampleTree calls).joins.map JoinState.stats =
        [⟨4, 6, 3, 1, 2, 3, 0⟩, ⟨2, 5, 3, 3, 3, 6, 2⟩] := by
    decide +kernel
  refine ⟨truthful, stats_eq, totals.trans ?_⟩
  decide +kernel

end Tree

end StreamJoin
