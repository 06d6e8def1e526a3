import StreamJoin.Proofs.FailureOrigins

namespace StreamJoin

/-!
# The path of a failure

In a tree that is driven through its root at most one failure is ever raised, and
the root answers it in the very pull in which it comes up.  From then on exactly the
joins on the path from its place to the root remember a failure, all of them this
one, and no source is pulled any more.
-/

/--
Where in a tree a failure comes from: the way down to the place, and the cause.
-/
structure Origin where
  place : List Side
  cause : Fault
  deriving Repr, DecidableEq

/-- An origin seen from one level further up. -/
def Origin.below (side : Side) (origin : Origin) : Origin :=
  ⟨side :: origin.place, origin.cause⟩

/--
The failures that came up in a noted tree: handed out by its sources or raised by
its joins.
-/
def NotedTree.origins : {shape : Shape} → Noted (NotedTree shape) → List Origin
  | .source, noted => (noted.answered.filterMap Block.cause?).map (Origin.mk [])
  | .join left right, noted =>
      let join : BroadcastJoin (Noted (NotedTree left)) (Noted (NotedTree right)) :=
        noted.operator
      join.raised?.toList.map (Origin.mk []) ++
        ((origins join.left).map (Origin.below .left) ++
          (origins join.right).map (Origin.below .right))

namespace Tree

/-- The joins of a tree with their places, in preorder. -/
def placedJoins : {shape : Shape} → Tree shape → List (List Side × JoinState)
  | .source, _ => []
  | .join left right, tree =>
      let join : BroadcastJoin (Tree left) (Tree right) := tree
      ([], join.state) ::
        (join.left.placedJoins.map (Prod.map (List.cons .left) id) ++
          join.right.placedJoins.map (Prod.map (List.cons .right) id))

/-- The joins with their places are the joins. -/
theorem map_snd_placedJoins {shape : Shape} (tree : Tree shape) :
    tree.placedJoins.map Prod.snd = tree.joins := by
  induction shape with
  | source => rfl
  | join leftShape rightShape leftHypothesis rightHypothesis =>
      simp only [placedJoins, joins, List.map_cons, List.map_append, List.map_map]
      exact
        congrArg (List.cons _)
          (congrArg₂ (· ++ ·) (leftHypothesis _) (rightHypothesis _))

/-- How often the sources of a tree were pulled, from left to right. -/
def pullCounts {shape : Shape} (tree : Tree shape) : List Nat :=
  tree.sources.map Replay.pulls

/--
A tree in which exactly the joins on the path to a place remember a failure, and one
cause.
-/
def FailedFrom {shape : Shape} (tree : Tree shape) (origin : Origin) : Prop :=
  ∀ placed ∈ tree.placedJoins,
    placed.2.phase.cause? =
      if placed.1.isPrefixOf origin.place then some origin.cause else none

/-- How many joins stand on the path from a place to the root. -/
def joinsOnPath {shape : Shape} (tree : Tree shape) (place : List Side) : Nat :=
  tree.placedJoins.countP fun placed => placed.1.isPrefixOf place

end Tree

namespace NotedTree

/-- What may be the condition of a noted tree. -/
def condition (allowed : Fault → Prop) :
    (shape : Shape) → Condition (Noted (NotedTree shape))
  | .source => Replay.condition allowed
  | .join left right =>
      BroadcastJoin.condition allowed (condition allowed left)
        (condition allowed right)

variable {allowed : Fault → Prop}

/-- Failures climb in every tree. -/
theorem climbs
    (runFaults : ∀ cause, cause.isPlanFault = false → allowed cause) :
    (shape : Shape) → (condition allowed shape).Climbs
  | .source => Replay.climbs allowed
  | .join left right =>
      BroadcastJoin.climbs runFaults (climbs runFaults left)
        (climbs runFaults right)

section Reading

variable {shape : Shape} {noted : Noted (NotedTree shape)} {place : List Side}
  {cause : Fault}

/-- Nothing failed in a calm tree. -/
theorem origins_of_calm (calm : (condition allowed shape).calm noted) :
    origins noted = [] := by
  induction shape with
  | source => exact congrArg (List.map (Origin.mk [])) calm.1
  | join leftShape rightShape leftHypothesis rightHypothesis =>
      have own := BroadcastJoin.Calm.notRaised calm
      have left := leftHypothesis (BroadcastJoin.Calm.leftCalm calm)
      have right := rightHypothesis (BroadcastJoin.Calm.rightCalm calm)
      simp only [origins, own, left, right]
      rfl

/-- In a tree that was struck the failure has one origin. -/
theorem origins_of_struck
    (struck : (condition allowed shape).struck place cause noted) :
    origins noted = [⟨place, cause⟩] := by
  induction shape generalizing place with
  | source =>
      obtain ⟨rfl, handedOut, _⟩ := struck
      exact congrArg (List.map (Origin.mk [])) handedOut
  | join leftShape rightShape leftHypothesis rightHypothesis =>
      cases struck with
      | here raised _ _ leftCalm rightCalm =>
          simp only [origins, raised, origins_of_calm leftCalm,
            origins_of_calm rightCalm]
          rfl
      | left notRaised _ leftStruck rightCalm =>
          simp only [origins, notRaised, leftHypothesis leftStruck,
            origins_of_calm rightCalm]
          rfl
      | right notRaised _ leftCalm rightStruck =>
          simp only [origins, notRaised, origins_of_calm leftCalm,
            rightHypothesis rightStruck]
          rfl

/-- Only an allowed cause strikes a tree. -/
theorem allowed_of_struck
    (struck : (condition allowed shape).struck place cause noted) :
    allowed cause := by
  induction shape generalizing place with
  | source => exact struck.2.2
  | join leftShape rightShape leftHypothesis rightHypothesis =>
      cases struck with
      | here _ _ permitted => exact permitted
      | left _ _ leftStruck => exact leftHypothesis leftStruck
      | right _ _ _ rightStruck => exact rightHypothesis rightStruck

/-- In a calm tree no join remembers a failure. -/
theorem noFailure_of_calm (calm : (condition allowed shape).calm noted) :
    ∀ placed ∈ noted.operator.erase.placedJoins, placed.2.phase.cause? = none := by
  induction shape with
  | source => exact fun _ member => absurd member List.not_mem_nil
  | join leftShape rightShape leftHypothesis rightHypothesis =>
      intro placed member
      rcases List.mem_cons.mp member with rfl | below
      · exact BroadcastJoin.Calm.noFailure calm
      · rcases List.mem_append.mp below with inLeft | inRight
        · obtain ⟨inner, innerMember, rfl⟩ := List.mem_map.mp inLeft
          exact leftHypothesis (BroadcastJoin.Calm.leftCalm calm) inner innerMember
        · obtain ⟨inner, innerMember, rfl⟩ := List.mem_map.mp inRight
          exact
            rightHypothesis (BroadcastJoin.Calm.rightCalm calm) inner innerMember

/--
In a struck tree the joins on the path from the place to the root remember the
failure.
-/
theorem failedFrom_of_struck
    (struck : (condition allowed shape).struck place cause noted) :
    noted.operator.erase.FailedFrom ⟨place, cause⟩ := by
  induction shape generalizing place with
  | source => exact fun _ member => absurd member List.not_mem_nil
  | join leftShape rightShape leftHypothesis rightHypothesis =>
      intro placed member
      rcases List.mem_cons.mp member with rfl | below
      · exact BroadcastJoin.Struck.cause?_eq struck
      · rcases List.mem_append.mp below with inLeft | inRight
        · obtain ⟨inner, innerMember, rfl⟩ := List.mem_map.mp inLeft
          cases struck with
          | here _ _ _ leftCalm _ =>
              exact noFailure_of_calm leftCalm inner innerMember
          | left _ _ leftStruck _ =>
              exact leftHypothesis leftStruck inner innerMember
          | right _ _ leftCalm _ =>
              exact noFailure_of_calm leftCalm inner innerMember
        · obtain ⟨inner, innerMember, rfl⟩ := List.mem_map.mp inRight
          cases struck with
          | here _ _ _ _ rightCalm =>
              exact noFailure_of_calm rightCalm inner innerMember
          | left _ _ _ rightCalm =>
              exact noFailure_of_calm rightCalm inner innerMember
          | right _ _ _ rightStruck =>
              exact rightHypothesis rightStruck inner innerMember

end Reading

/-- A failure that struck a tree of joins is there to stay. -/
theorem lasts
    {leftShape rightShape : Shape}
    (runFaults : ∀ cause, cause.isPlanFault = false → allowed cause) :
    (condition allowed (.join leftShape rightShape)).Lasts :=
  BroadcastJoin.lasts runFaults (climbs runFaults leftShape)
    (climbs runFaults rightShape)

/--
A tree that was just built is calm, if what its sources and predicates hold is
allowed.
-/
theorem calm_noted
    {shape : Shape}
    {tree : Tree shape}
    (built : tree.Built)
    (scripts :
      ∀ source ∈ tree.sources,
        ∀ cause, .failed cause ∈ source.queued → allowed cause)
    (evaluates : ∀ state ∈ tree.joins, state.plan.EvaluatesWithin allowed) :
    (condition allowed shape).calm tree.noted := by
  induction built with
  | source source => exact ⟨rfl, scripts source List.mem_cons_self⟩
  | @join _ _ left right _ _ _ tree _ _ accepted leftHypothesis rightHypothesis =>
      have fresh : tree = BroadcastJoin.mk (.ofPlan tree.root.plan) left right :=
        BroadcastJoin.eq_ofPlan accepted
      generalize tree.root.plan = plan at fresh
      subst fresh
      have leftScripts source (member : source ∈ left.sources) :=
        scripts source (List.mem_append_left _ member)
      have rightScripts source (member : source ∈ right.sources) :=
        scripts source (List.mem_append_right _ member)
      have leftEvaluates state (member : state ∈ left.joins) :=
        evaluates state (List.mem_cons_of_mem _ (List.mem_append_left _ member))
      have rightEvaluates state (member : state ∈ right.joins) :=
        evaluates state (List.mem_cons_of_mem _ (List.mem_append_right _ member))
      have noLefts := answered_noted left
      have noRights := answered_noted right
      exact {
        kept := by
          simp only [Tree.noted, BroadcastJoin.record, BroadcastJoin.map, noLefts,
            noRights]
          exact JoinRecord.kept_ofPlan plan
        notRaised := by
          simp only [Tree.noted, BroadcastJoin.raised?, BroadcastJoin.map, noLefts,
            noRights]
          rfl
        noFailure := rfl
        evaluates := evaluates _ List.mem_cons_self
        leftCalm := leftHypothesis leftScripts leftEvaluates
        rightCalm := rightHypothesis rightScripts rightEvaluates
      }

/--
What newly comes up behind a request comes up in a pull of a tree that was calm
before.
-/
theorem struck_of_new
    {shape : Shape}
    {noted : Noted (NotedTree shape)}
    {call : Call}
    {origin : Origin}
    (runFaults : ∀ cause, cause.isPlanFault = false → allowed cause)
    (calm : (condition allowed shape).calm noted)
    (new : origin ∈ origins (Operator.next noted call)) :
    call = .pull ∧ (Operator.pull noted).block.cause? = some origin.cause ∧
      (condition allowed shape).struck origin.place origin.cause
        (Operator.pull noted).next := by
  have climbing := climbs runFaults shape
  cases call with
  | close =>
      have nothing : origins (Operator.next noted .close) = [] :=
        origins_of_calm (climbing.closedCalm noted calm)
      rw [nothing] at new
      cases new
  | pull =>
      change origin ∈ origins (Operator.pull noted).next at new
      rcases climbing.pulled noted calm with
          ⟨stillCalm, _⟩ | ⟨place, cause, struck, failing⟩
      · rw [origins_of_calm stillCalm] at new
        cases new
      · rw [origins_of_struck struck] at new
        obtain rfl := List.mem_singleton.mp new
        exact ⟨rfl, failing, struck⟩

end NotedTree

namespace Tree

/-- Closing a tree pulls nothing. -/
theorem pullCounts_close {shape : Shape} (tree : Tree shape) :
    (Operator.close tree).next.pullCounts = tree.pullCounts := by
  induction shape with
  | source => rfl
  | join leftShape rightShape leftHypothesis rightHypothesis =>
      obtain ⟨state, left, right⟩ := tree
      let join : BroadcastJoin (Tree leftShape) (Tree rightShape) :=
        ⟨state, left, right⟩
      change
        pullCounts (show Tree (.join leftShape rightShape) from join.close.next) = _
      unfold BroadcastJoin.close
      split
      · rfl
      · have children :=
          congrArg₂ (· ++ ·) (leftHypothesis left) (rightHypothesis right)
        simp only [pullCounts, sources, List.map_append] at children ⊢
        exact children

/-- A root that may not pull has none of the sources pulled. -/
theorem pullCounts_afterCalls
    {leftShape rightShape : Shape}
    {tree : Tree (.join leftShape rightShape)}
    (inactive : tree.root.isActive = false)
    (calls : List Call) :
    (Operator.afterCalls tree calls).pullCounts = tree.pullCounts := by
  induction calls generalizing tree with
  | nil => rfl
  | cons call rest inductionHypothesis =>
      cases call with
      | pull =>
          have fixed : Operator.next tree .pull = tree :=
            (BroadcastJoin.pull_of_inactive inactive).2
          simp only [Operator.afterCalls, fixed]
          exact inductionHypothesis inactive
      | close =>
          let join : BroadcastJoin (Tree leftShape) (Tree rightShape) := tree
          have nowInactive : join.close.next.state.isActive = false :=
            join.close_settled.2
          exact (inductionHypothesis nowInactive).trans (pullCounts_close tree)

/--
The counted failures of a tree that was just built are the joins that remember one.
-/
theorem errors_reports
    {shape : Shape}
    {tree : Tree shape}
    (built : tree.Built)
    (calls : List Call) :
    (Counters.zero.recordAll (Operator.reports tree calls)).errors =
      (Operator.afterCalls tree calls).placedJoins.countP
        fun placed => placed.2.phase.cause?.isSome := by
  rw [NotedTree.recordAll_reports built, ← map_snd_placedJoins, totalsOf,
    List.countP_map]
  rfl

/-- The joins that failed are as many as there are on the path from the origin. -/
theorem FailedFrom.countP_eq
    {shape : Shape}
    {tree : Tree shape}
    {origin : Origin}
    (failed : tree.FailedFrom origin) :
    tree.placedJoins.countP (fun placed => placed.2.phase.cause?.isSome) =
      tree.joinsOnPath origin.place := by
  apply List.countP_congr
  intro placed member
  rw [failed placed member]
  split <;> simp_all

/-- A tree in which no join remembers a failure counts none. -/
theorem countP_of_noFailure
    {shape : Shape}
    {tree : Tree shape}
    (noFailure : ∀ placed ∈ tree.placedJoins, placed.2.phase.cause? = none) :
    (tree.placedJoins.countP fun placed => placed.2.phase.cause?.isSome) = 0 := by
  apply List.countP_eq_zero.mpr
  intro placed member
  rw [noFailure placed member]
  exact Bool.false_ne_true

section Run

variable {leftShape rightShape : Shape} {tree : Tree (.join leftShape rightShape)}

/-- Behind the pull in which a failure comes up the root is struck, and stays so. -/
theorem struck_of_origin
    {allowed : Fault → Prop}
    {before : List Call}
    {call : Call}
    {origin : Origin}
    (runFaults : ∀ cause, cause.isPlanFault = false → allowed cause)
    (calm :
      (NotedTree.condition allowed (.join leftShape rightShape)).calm tree.noted)
    (comesUp :
      origin ∈
        NotedTree.origins (Operator.afterCalls tree.noted (before ++ [call])))
    (new : origin ∉ NotedTree.origins (Operator.afterCalls tree.noted before)) :
    call = .pull ∧
      (Operator.pull (Operator.afterCalls tree before)).block =
        .failed origin.cause ∧
      ∀ later,
        (NotedTree.condition allowed (.join leftShape rightShape)).struck
          origin.place origin.cause
          (Operator.afterCalls tree.noted (before ++ call :: later)) := by
  have lasts : (NotedTree.condition allowed (.join leftShape rightShape)).Lasts :=
    NotedTree.lasts runFaults
  rw [Operator.afterCalls_append] at comesUp
  rcases lasts.calm_afterCalls calm before with
      ⟨stillCalm, _⟩ | ⟨place, cause, struck, _⟩
  · obtain ⟨rfl, failing, struck⟩ :=
      NotedTree.struck_of_new runFaults stillCalm comesUp
    refine ⟨rfl, ?_, fun later => ?_⟩
    · have mirrored :=
        (NotedTree.mirrors_erase _).pull_eq (Operator.afterCalls tree.noted before)
      rw [NotedTree.erase_afterCalls] at mirrored
      rw [mirrored]
      exact Block.cause?_eq_some_iff.mp failing
    · rw [Operator.afterCalls_append]
      exact (lasts.struck_afterCalls struck later).1
  · -- A root that was struck before has only that failure, behind the request as
    -- before it.
    have stillStruck := (lasts.struck_afterCalls struck [call]).1
    rw [NotedTree.origins_of_struck stillStruck] at comesUp
    rw [NotedTree.origins_of_struck struck] at new
    exact absurd comesUp new

/-- What strikes the noted tree is what fails in the tree itself. -/
theorem failedFrom_afterCalls
    {allowed : Fault → Prop}
    {calls : List Call}
    {place : List Side}
    {cause : Fault}
    (struck :
      (NotedTree.condition allowed (.join leftShape rightShape)).struck place cause
        (Operator.afterCalls tree.noted calls)) :
    (Operator.afterCalls tree calls).FailedFrom ⟨place, cause⟩ := by
  have failed := NotedTree.failedFrom_of_struck struck
  rw [NotedTree.erase_afterCalls] at failed
  exact failed

/-- Behind a failure no source is pulled. -/
theorem FailedFrom.pullCounts_append
    {calls : List Call}
    {origin : Origin}
    (failed : (Operator.afterCalls tree calls).FailedFrom origin)
    (later : List Call) :
    (Operator.afterCalls tree (calls ++ later)).pullCounts =
      (Operator.afterCalls tree calls).pullCounts := by
  have rootFailed := failed _ List.mem_cons_self
  have inactive := JoinState.isActive_of_failed rootFailed
  rw [Operator.afterCalls_append]
  exact pullCounts_afterCalls inactive later

/-- A root that answered a failure is struck by it. -/
theorem struck_of_answered
    {allowed : Fault → Prop}
    {calls : List Call}
    {cause : Fault}
    (runFaults : ∀ cause, cause.isPlanFault = false → allowed cause)
    (calm :
      (NotedTree.condition allowed (.join leftShape rightShape)).calm tree.noted)
    (answered : .failed cause ∈ Operator.replies tree calls) :
    ∃ place,
      (NotedTree.condition allowed (.join leftShape rightShape)).struck place cause
        (Operator.afterCalls tree.noted calls) := by
  rw [← NotedTree.replies_noted] at answered
  rcases (NotedTree.lasts runFaults).calm_afterCalls calm calls with
      ⟨_, noFailures⟩ | ⟨place, other, struck, failures⟩
  · cases noFailures _ answered
  · rcases failures _ answered with noCause | same
    · cases noCause
    · obtain rfl : cause = other := Option.some.inj same
      exact ⟨place, struck⟩

/--
Failures climb a tree of joins unchanged, and at most one is ever raised.  The first
request behind which a failure has come up is a pull, and the root answers it in
that very pull.  Whatever is asked from then on, exactly the joins on the path from
its place to the root remember a failure, all of them this one, which is what the
shared counters count; no source is pulled any more, and no other failure comes up.
The root answers no failure but this one, and none that belongs to a plan, unless a
source has such a failure queued or a residual predicate fails with one.
-/
theorem failures_climb (built : tree.Built) :
    let run := Operator.afterCalls tree.noted
    let after := Operator.afterCalls tree
    let errors calls :=
      (Counters.zero.recordAll (Operator.reports tree calls)).errors
    (∀ before call later origin,
      origin ∈ NotedTree.origins (run (before ++ [call])) →
        origin ∉ NotedTree.origins (run before) →
          call = .pull ∧
            (Operator.pull (after before)).block = .failed origin.cause ∧
            NotedTree.origins (run (before ++ call :: later)) = [origin] ∧
            (after (before ++ call :: later)).FailedFrom origin ∧
            errors (before ++ call :: later) =
              (after (before ++ call :: later)).joinsOnPath origin.place ∧
            (after (before ++ call :: later)).pullCounts =
              (after (before ++ [call])).pullCounts) ∧
      ∀ calls,
        (run calls).operator.erase = after calls ∧
          (NotedTree.origins (run calls)).length ≤ 1 ∧
          (∀ cause, .failed cause ∈ Operator.replies tree calls →
            ∃ place, NotedTree.origins (run calls) = [⟨place, cause⟩]) ∧
          (NotedTree.origins (run calls) = [] →
            errors calls = 0 ∧
              ∀ placed ∈ (after calls).placedJoins, placed.2.phase.cause? = none) ∧
          ((∀ source ∈ tree.sources, ∀ cause, .failed cause ∈ source.queued →
              cause.isPlanFault = false) →
            (∀ state ∈ tree.joins, ∀ predicate ∈ state.plan.residuals.predicates,
              ∀ candidate cause, predicate candidate = .error cause →
                cause.isPlanFault = false) →
            ∀ cause, .failed cause ∈ Operator.replies tree calls →
              cause.isPlanFault = false) := by
  intro run after errors
  let anything : Fault → Prop := fun _ => True
  have anyFault :
      ∀ cause, cause.isPlanFault = false → anything cause := fun _ _ => trivial
  have calm :
      (NotedTree.condition anything (.join leftShape rightShape)).calm tree.noted :=
    NotedTree.calm_noted built (fun _ _ _ _ => trivial) fun _ _ _ _ _ => trivial
  have lasts : (NotedTree.condition anything (.join leftShape rightShape)).Lasts :=
    NotedTree.lasts anyFault
  refine ⟨?_, fun calls => ⟨NotedTree.erase_afterCalls tree calls, ?_, ?_, ?_, ?_⟩⟩
  · intro before call later origin comesUp new
    obtain ⟨isPull, answered, struck⟩ := struck_of_origin anyFault calm comesUp new
    have failedFrom later : (after (before ++ call :: later)).FailedFrom origin :=
      failedFrom_afterCalls (struck later)
    have pullCounts := (failedFrom []).pullCounts_append later
    rw [List.append_assoc] at pullCounts
    exact
      ⟨isPull, answered, NotedTree.origins_of_struck (struck later),
        failedFrom later,
        (errors_reports built _).trans (failedFrom later).countP_eq, pullCounts⟩
  · rcases lasts.calm_afterCalls calm calls with
      ⟨stillCalm, _⟩ | ⟨place, cause, struck, _⟩
    · exact
        (congrArg List.length (NotedTree.origins_of_calm stillCalm)).le.trans
          zero_le_one
    · exact (congrArg List.length (NotedTree.origins_of_struck struck)).le
  · intro cause answered
    obtain ⟨place, struck⟩ := struck_of_answered anyFault calm answered
    exact ⟨place, NotedTree.origins_of_struck struck⟩
  · intro nothing
    rcases lasts.calm_afterCalls calm calls with
      ⟨stillCalm, _⟩ | ⟨place, cause, struck, _⟩
    · have noFailure := NotedTree.noFailure_of_calm stillCalm
      rw [NotedTree.erase_afterCalls] at noFailure
      exact
        ⟨(errors_reports built calls).trans (countP_of_noFailure noFailure),
          noFailure⟩
    · cases (NotedTree.origins_of_struck struck).symm.trans nothing
  · intro scripts predicates cause answered
    have evaluates state (inTree : state ∈ tree.joins) :=
      JoinPlan.evaluatesWithin_of_predicates (predicates state inTree)
    have runCalm := NotedTree.calm_noted built scripts evaluates
    obtain ⟨place, struck⟩ :=
      struck_of_answered (fun _ runFault => runFault) runCalm answered
    exact NotedTree.allowed_of_struck struck

end Run

/-- The small join that fails, as a tree. -/
def failingInner : Tree (.join .source .source) := BroadcastJoin.failingJoin

/-- A join that builds on the small join that fails. -/
def failingOuterSpec : JoinSpec :=
  .equiJoin .left BroadcastJoin.failingSchema
    (BroadcastJoin.failingSchema.join BroadcastJoin.failingSchema) ⟨[0]⟩ ⟨[0]⟩

/-- The plan of the join that builds on the small one. -/
def failingOuterPlan : JoinPlan :=
  (JoinPlan.ofSpec failingOuterSpec .default).toOption.get rfl

/-- The small join that fails, as the right child of a join that builds on it. -/
def failingTree : Tree (.join .source (.join .source .source)) :=
  let join : BroadcastJoin (Tree .source) (Tree (.join .source .source)) :=
    ⟨.ofPlan failingOuterPlan,
      ofSource (.ofBlocks [.failed (.inputFailed "later")]), failingInner⟩
  join

/-- The failing sample tree is made of accepted joins. -/
theorem built_failingTree : failingTree.Built := by
  have innerAccepted :
      ofSpec (ofSource BroadcastJoin.failingJoin.left)
          (ofSource BroadcastJoin.failingJoin.right)
          (.equiJoin .full BroadcastJoin.failingSchema BroadcastJoin.failingSchema
            ⟨[0]⟩ ⟨[0]⟩)
          .default =
        .ok failingInner := rfl
  have outerAccepted :
      ofSpec (ofSource (.ofBlocks [.failed (.inputFailed "later")])) failingInner
          failingOuterSpec .default =
        .ok failingTree := rfl
  have innerBuilt : failingInner.Built :=
    .join (.source _) (.source _) innerAccepted
  exact .join (.source _) innerBuilt outerAccepted

/--
The failure comes up while the outer join builds, and the other source is never
pulled.
-/
theorem failures_climb_sample :
    let origin : Origin := ⟨[.right, .left], .inputFailed "gone"⟩
    let calls : List Call := [.pull] ++ .pull :: [.pull, .close, .pull]
    (Operator.pull (Operator.afterCalls failingTree [.pull])).block =
        .failed origin.cause ∧
      (Operator.afterCalls failingTree calls).FailedFrom origin ∧
      (Counters.zero.recordAll (Operator.reports failingTree calls)).errors = 2 ∧
      (Operator.afterCalls failingTree calls).pullCounts = [0, 2, 3] ∧
      ∀ cause, .failed cause ∈ Operator.replies failingTree calls →
        cause.isPlanFault = false := by
  intro origin calls
  obtain ⟨comesUp, wholeRun⟩ := failures_climb built_failingTree
  obtain ⟨_, answered, _, failedFrom, errors, pullCounts⟩ :=
    comesUp [.pull] .pull [.pull, .close, .pull] origin (by decide) (by decide)
  obtain ⟨_, _, _, _, runFault⟩ := wholeRun calls
  have queuedFaults :
      ∀ source ∈ failingTree.sources, ∀ block ∈ source.queued,
        (block.cause?.any Fault.isPlanFault) = false := by
    decide
  have noPredicates :
      ∀ state ∈ failingTree.joins, state.plan.residuals.isEmpty = true := by
    decide
  refine
    ⟨answered, failedFrom, errors.trans (by decide), pullCounts.trans (by decide),
      ?_⟩
  apply runFault
  · exact fun source inTree cause queued => queuedFaults source inTree _ queued
  · intro state inTree predicate listed
    rw [List.isEmpty_iff.mp (noPredicates state inTree)] at listed
    cases listed

end Tree

end StreamJoin
