import StreamJoin.Proofs.FailurePaths

namespace StreamJoin

/-!
# Closing a tree

A join that was closed before does not pass a closing on to its children.  In a tree
that is driven through its root this leaves nothing open: either no join of the tree
was closed, or the whole tree was released.  So closing the root releases the whole
tree, in whatever state it is, and afterwards no request changes anything in it.
-/

namespace JoinState

/-- A join that was released holds no row and no mark. -/
structure Empty (state : JoinState) : Prop where
  closed : state.closed = true
  tableRows_eq : state.tableRows = 0
  table_eq : state.table = .empty
  marks_eq : ∀ marks, state.marks? = some marks → marks = .empty

/-- Releasing a join leaves it empty. -/
theorem empty_release (state : JoinState) : state.release.Empty where
  closed := rfl
  tableRows_eq := rfl
  table_eq := rfl
  marks_eq marks allocated := by
    obtain ⟨_, _, rfl⟩ := Option.map_eq_some_iff.mp allocated
    rfl

end JoinState

namespace Tree

variable {shape : Shape} {tree : Tree shape}

/--
A tree in which every join is released and every source closed, and nothing else
changed.
-/
def released : {shape : Shape} → Tree shape → Tree shape
  | .source, tree => (Replay.close tree).next
  | .join left right, tree =>
      let join : BroadcastJoin (Tree left) (Tree right) := tree
      BroadcastJoin.mk join.state.release join.left.released join.right.released

/-- In a released tree every join is released. -/
theorem joins_released (tree : Tree shape) :
    tree.released.joins = tree.joins.map .release := by
  induction shape with
  | source => rfl
  | join leftShape rightShape leftHypothesis rightHypothesis =>
      obtain ⟨state, left, right⟩ := tree
      have children :=
        congrArg₂ (· ++ ·) (leftHypothesis left) (rightHypothesis right)
      simp only [released, joins, List.map_cons, List.map_append] at children ⊢
      rw [children]

/-- In a released tree every source is closed. -/
theorem sources_released (tree : Tree shape) :
    tree.released.sources = tree.sources.map fun source => source.close.next := by
  induction shape with
  | source => rfl
  | join leftShape rightShape leftHypothesis rightHypothesis =>
      obtain ⟨state, left, right⟩ := tree
      have children :=
        congrArg₂ (· ++ ·) (leftHypothesis left) (rightHypothesis right)
      simp only [released, sources, List.map_append] at children ⊢
      exact children

/-- Releasing a tree once more changes nothing. -/
theorem released_released (tree : Tree shape) :
    tree.released.released = tree.released := by
  induction shape with
  | source => rfl
  | join leftShape rightShape leftHypothesis rightHypothesis =>
      obtain ⟨state, left, right⟩ := tree
      simp only [released, state.release_release, leftHypothesis left,
        rightHypothesis right]
      rfl

/-- No join of a tree was closed. -/
def Opened (tree : Tree shape) : Prop := ∀ state ∈ tree.joins, state.closed = false

/-- A tree is open exactly if its root and both subtrees are. -/
theorem opened_join_iff
    {leftShape rightShape : Shape}
    {state : JoinState}
    {left : Tree leftShape}
    {right : Tree rightShape} :
    Opened (show Tree (.join leftShape rightShape) from ⟨state, left, right⟩) ↔
      state.closed = false ∧ left.Opened ∧ right.Opened := by
  simp only [Opened, joins, List.forall_mem_cons, List.forall_mem_append]

/-- A tree that was just built has no closed join. -/
theorem opened_of_built (built : tree.Built) : tree.Opened := by
  induction built with
  | source source => exact fun state member => absurd member List.not_mem_nil
  | @join _ _ left right _ _ _ tree _ _ accepted leftHypothesis rightHypothesis =>
      have fresh : tree = BroadcastJoin.mk (.ofPlan tree.root.plan) left right :=
        BroadcastJoin.eq_ofPlan accepted
      rw [fresh]
      exact opened_join_iff.mpr ⟨rfl, leftHypothesis, rightHypothesis⟩

/-- A pull closes nothing. -/
theorem opened_pull (opened : tree.Opened) : (Operator.pull tree).next.Opened := by
  induction shape with
  | source => exact fun state member => absurd member List.not_mem_nil
  | join leftShape rightShape leftHypothesis rightHypothesis =>
      let join : BroadcastJoin (Tree leftShape) (Tree rightShape) := tree
      obtain ⟨rootOpened, leftOpened, rightOpened⟩ := opened_join_iff.mp opened
      have children :
          join.pull.next.left.Opened ∧ join.pull.next.right.Opened :=
        BroadcastJoin.children_pull (fun _ => leftHypothesis)
          (fun _ => rightHypothesis) leftOpened rightOpened
      exact
        opened_join_iff.mpr
          ⟨(BroadcastJoin.closed_pull join).trans rootOpened, children⟩

/-- Closing the root of an open tree goes all the way down. -/
theorem close_of_opened (opened : tree.Opened) :
    (Operator.close tree).next = tree.released := by
  induction shape with
  | source => rfl
  | join leftShape rightShape leftHypothesis rightHypothesis =>
      obtain ⟨state, left, right⟩ := tree
      obtain ⟨rootOpened, leftOpened, rightOpened⟩ := opened_join_iff.mp opened
      let join : BroadcastJoin (Tree leftShape) (Tree rightShape) :=
        ⟨state, left, right⟩
      have goesOn :
          join.close.next =
            ⟨state.release, (Operator.close left).next,
              (Operator.close right).next⟩ := by
        simp only [BroadcastJoin.close, join, rootOpened, Bool.false_eq_true,
          if_false]
      refine (show (Operator.close join).next = _ from goesOn).trans ?_
      rw [leftHypothesis leftOpened, rightHypothesis rightOpened]
      rfl

/-- Closing a released tree changes nothing and reports nothing. -/
theorem close_released (tree : Tree shape) :
    Operator.close tree.released = ⟨tree.released, []⟩ := by
  cases shape with
  | source => rfl
  | join leftShape rightShape => rfl

/-- No total counts that a tree is closed. -/
theorem recordAll_close (tree : Tree shape) (counters : Counters) :
    counters.recordAll (Operator.close tree).events = counters := by
  induction shape generalizing counters with
  | source => rfl
  | join leftShape rightShape leftHypothesis rightHypothesis =>
      let join : BroadcastJoin (Tree leftShape) (Tree rightShape) := tree
      change counters.recordAll join.close.events = counters
      unfold BroadcastJoin.close
      split
      · rfl
      · simp only [Counters.recordAll_append, leftHypothesis, rightHypothesis]
        rfl

/--
Every tree that is driven through its root is either open or released as a whole.
-/
theorem opened_or_released_afterCalls
    (settled : tree.Opened ∨ tree.released = tree)
    (calls : List Call) :
    (Operator.afterCalls tree calls).Opened ∨
      (Operator.afterCalls tree calls).released =
        Operator.afterCalls tree calls := by
  induction calls generalizing tree with
  | nil => exact settled
  | cons call rest inductionHypothesis =>
      apply inductionHypothesis
      cases call with
      | close =>
          right
          rcases settled with opened | released
          · rw [Operator.next, close_of_opened opened, released_released]
          · rw [Operator.next, ← released, close_released, released_released]
      | pull =>
          rcases settled with opened | released
          · exact .inl (opened_pull opened)
          · cases shape with
            | source =>
                exact .inl fun state member => absurd member List.not_mem_nil
            | join leftShape rightShape =>
                right
                have unchanged : Operator.next tree .pull = tree := by
                  rw [← released]
                  exact
                    (BroadcastJoin.pull_of_inactive
                      (JoinState.isActive_of_closed rfl)).2
                rw [unchanged]
                exact released

/-- Closing the root releases the tree, in whatever state it is. -/
theorem close_eq_released
    (settled : tree.Opened ∨ tree.released = tree) :
    (Operator.close tree).next = tree.released := by
  rcases settled with opened | released
  · exact close_of_opened opened
  · rw [← released, close_released, released_released]

/-- A released tree of joins answers whatever is asked of it and stays as it is. -/
theorem afterCalls_released
    {leftShape rightShape : Shape}
    (tree : Tree (.join leftShape rightShape))
    (calls : List Call)
    (counters : Counters) :
    Operator.afterCalls tree.released calls = tree.released ∧
      counters.recordAll (Operator.reports tree.released calls) = counters := by
  have inactive : tree.released.root.isActive = false :=
    JoinState.isActive_of_closed rfl
  have pulledNext : (Operator.pull tree.released).next = tree.released :=
    (BroadcastJoin.pull_of_inactive inactive).2
  have pulledEvents :
      ∀ before : Counters,
        before.recordAll (Operator.pull tree.released).events = before :=
    BroadcastJoin.recordAll_pull_of_inactive inactive
  induction calls with
  | nil => exact ⟨rfl, rfl⟩
  | cons call rest inductionHypothesis =>
      cases call with
      | pull =>
          simp only [Operator.afterCalls, Operator.next, Operator.reports,
            Counters.recordAll_append, pulledNext, pulledEvents]
          exact inductionHypothesis
      | close =>
          simp only [Operator.afterCalls, Operator.next, Operator.reports,
            close_released, List.nil_append]
          exact inductionHypothesis

/--
A tree behind a closing of its root: nothing is held or queued any more, and
everything else is as it was before.
-/
structure EmptiedFrom (after before : Tree shape) : Prop where
  sourcesClosed :
    ∀ source ∈ after.sources, source.closed = true ∧ source.queued = []
  joinsEmpty : ∀ state ∈ after.joins, state.Empty
  pullCounts_eq : after.pullCounts = before.pullCounts
  plans_eq : after.joins.map JoinState.plan = before.joins.map JoinState.plan
  phases_eq : after.joins.map JoinState.phase = before.joins.map JoinState.phase
  stats_eq : after.joins.map JoinState.stats = before.joins.map JoinState.stats

/-- A released tree is what is left when the root is closed. -/
theorem emptiedFrom_released (tree : Tree shape) :
    tree.released.EmptiedFrom tree where
  sourcesClosed source member := by
    rw [sources_released] at member
    obtain ⟨_, _, rfl⟩ := List.mem_map.mp member
    exact ⟨rfl, rfl⟩
  joinsEmpty state member := by
    rw [joins_released] at member
    obtain ⟨before, _, rfl⟩ := List.mem_map.mp member
    exact before.empty_release
  pullCounts_eq := by
    rw [pullCounts, pullCounts, sources_released, List.map_map]
    rfl
  plans_eq := by
    rw [joins_released, List.map_map]
    rfl
  phases_eq := by
    rw [joins_released, List.map_map]
    rfl
  stats_eq := by
    rw [joins_released, List.map_map]
    rfl

/--
Whatever was asked of a tree that was just built: closing its root closes every
source and drops what is queued, closes every join and drops what it holds, and
changes nothing else, the shared counters included.  Closing it once more does
nothing.  If the root is a join, nothing that is asked afterwards pulls a source or
changes anything in the tree or in the counters.
-/
theorem closing_releases_tree
    (built : tree.Built)
    (calls : List Call)
    (counters : Counters) :
    let reached := Operator.afterCalls tree calls
    let closed := (Operator.close reached).next
    closed.EmptiedFrom reached ∧
      counters.recordAll (Operator.close reached).events = counters ∧
      Operator.close closed = ⟨closed, []⟩ ∧
      (shape ≠ .source →
        ∀ later : List Call,
          Operator.afterCalls closed later = closed ∧
            counters.recordAll (Operator.reports closed later) = counters) := by
  intro reached closed
  have settled := opened_or_released_afterCalls (.inl (opened_of_built built)) calls
  have released : closed = reached.released := close_eq_released settled
  rw [released]
  refine
    ⟨emptiedFrom_released reached, recordAll_close reached counters,
      close_released reached, ?_⟩
  intro isJoin later
  cases shape with
  | source => exact absurd rfl isJoin
  | join leftShape rightShape => exact afterCalls_released reached later counters

/-- The sample tree is closed while the join at its root streams its left input. -/
theorem closing_releases_tree_sample :
    let reached := Operator.afterCalls sampleTree (List.replicate 4 .pull)
    let closed := (Operator.close reached).next
    reached.joins.map JoinState.tableRows = [6, 5] ∧
      closed.joins.map JoinState.tableRows = [0, 0] ∧
      closed.EmptiedFrom reached ∧
      Operator.afterCalls closed [.pull, .close, .pull] = closed := by
  intro reached closed
  obtain ⟨emptied, _, _, frozen⟩ :=
    closing_releases_tree built_sampleTree (List.replicate 4 .pull) .zero
  refine ⟨by decide +kernel, by decide +kernel, emptied, (frozen nofun _).1⟩

end Tree

end StreamJoin
