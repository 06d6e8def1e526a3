import StreamJoin.Join.Tree
import StreamJoin.Proofs.BagJoin
import StreamJoin.Proofs.WholeRun

namespace StreamJoin

/-!
# The meaning of a tree of joins

A tree of joins means a bag of rows: a leaf means the rows that it has queued in
front of the first end of the stream, a join means the relational join of what its
children mean.  Reading a freshly built tree to its end gives the rows that it
means.

The induction goes over the tree.  What it carries upwards is a script of each
subtree whose rows, as a bag, are the meaning of the subtree.  The order of the rows
and their batches are forgotten at each join, and with them the order of the sweeps
below it.
-/

/-- What a queued source has queued in front of the first end of the stream. -/
def Replay.script (source : Replay) : List Block :=
  source.queued.takeWhile fun block => !block.isEnd

namespace Tree

/-- The rows that a tree means. -/
def meaning : {shape : Shape} → Tree shape → Multiset Row
  | .source, tree =>
      let source : Replay := tree
      ↑(rowsOf source.script)
  | .join left right, tree =>
      let join : BroadcastJoin (Tree left) (Tree right) := tree
      join.state.plan.bagJoin join.left.meaning join.right.meaning

/--
A tree that meets no failure: no leaf has a failure queued in front of its end, and
each join admits what its children mean.
-/
def Sound : {shape : Shape} → Tree shape → Prop
  | .source, tree =>
      let source : Replay := tree
      ∀ block ∈ source.script, block.isFailed = false
  | .join left right, tree =>
      let join : BroadcastJoin (Tree left) (Tree right) := tree
      join.left.Sound ∧ join.right.Sound ∧
        join.state.plan.Admits join.left.meaning join.right.meaning

/-- How many blocks of the leaves say only that nothing is ready yet. -/
def idles : {shape : Shape} → Tree shape → Nat
  | .source, tree =>
      let source : Replay := tree
      (idlesOf source.script).length
  | .join left right, tree =>
      let join : BroadcastJoin (Tree left) (Tree right) := tree
      join.left.idles + join.right.idles

/-- The trees that are built from queued sources by joins that are accepted. -/
inductive Built : {shape : Shape} → Tree shape → Prop where
  | source (source : Replay) : Built (ofSource source)
  | join
      {leftShape rightShape : Shape}
      {left : Tree leftShape}
      {right : Tree rightShape}
      {spec : JoinSpec}
      {options : JoinOptions}
      {order : BucketOrder}
      {tree : Tree (.join leftShape rightShape)}
      (leftBuilt : Built left)
      (rightBuilt : Built right)
      (accepted : ofSpec left right spec options order = .ok tree) :
      Built tree

end Tree

/-- The idle blocks of two lists are those of one and of the other. -/
theorem idlesOf_append (first later : List Block) :
    idlesOf (first ++ later) = idlesOf first ++ idlesOf later :=
  List.filter_append ..

/-- The idle blocks among idle blocks are all of them. -/
theorem idlesOf_idlesOf (blocks : List Block) :
    idlesOf (idlesOf blocks) = idlesOf blocks :=
  List.filter_filter.trans (by simp [idlesOf])

/-- Idle blocks have no rows. -/
theorem rowsOf_idlesOf (blocks : List Block) : rowsOf (idlesOf blocks) = [] := by
  induction blocks with
  | nil => rfl
  | cons block rest inductionHypothesis =>
      cases block with
      | idle => exact inductionHypothesis
      | data batch => exact inductionHypothesis
      | ended => exact inductionHypothesis
      | failed cause => exact inductionHypothesis

namespace JoinPlan

variable {plan : JoinPlan}

/-- Left blocks that are answered have the rows of the nested loop. -/
theorem rowsOf_map_probed (rights : List Row) (blocks : List Block) :
    rowsOf (blocks.map (plan.probed rights)) =
      plan.nestedRows rights (rowsOf blocks) := by
  induction blocks with
  | nil => rfl
  | cons block rest inductionHypothesis =>
      rw [List.map_cons, rowsOf_cons, inductionHypothesis, rowsOf_cons]
      cases block with
      | data batch => exact List.flatMap_append.symm
      | idle => rfl
      | ended => rfl
      | failed cause => rfl

/-- As many blocks are idle as were idle before they were answered. -/
theorem length_idlesOf_map_probed (rights : List Row) (blocks : List Block) :
    (idlesOf (blocks.map (plan.probed rights))).length =
      (idlesOf blocks).length := by
  induction blocks with
  | nil => rfl
  | cons block rest inductionHypothesis =>
      cases block with
      | idle => exact congrArg Nat.succ inductionHypothesis
      | data batch => exact inductionHypothesis
      | ended => exact inductionHypothesis
      | failed cause => exact inductionHypothesis

/-- The rows of the sweep are there if the kind has one. -/
theorem rowsOf_sweepOf (swept : List Row) :
    rowsOf (plan.sweepOf swept) = if plan.kind.sweepsRight then swept else [] := by
  unfold sweepOf
  split
  · exact List.append_nil swept
  · rfl

/-- The sweep is not idle. -/
theorem idlesOf_sweepOf (swept : List Row) : idlesOf (plan.sweepOf swept) = [] := by
  unfold sweepOf
  split
  · rfl
  · rfl

/-- The answer to a left block that ends nothing ends nothing. -/
theorem isTerminal_probed
    {rights : List Row}
    {block : Block}
    (goesOn : block.isTerminal = false) :
    (plan.probed rights block).isTerminal = false := by
  cases block with
  | data batch => rfl
  | idle => rfl
  | ended => cases goesOn
  | failed cause => cases goesOn

end JoinPlan

namespace BroadcastJoin

variable {Left Right : Type} [Operator Left] [Drainable Right]
variable {left : Left} {right : Right} {plan : JoinPlan}
variable {leftBlocks rightBlocks : List Block}

/--
A join of admitted rows follows a script with the rows of the relational join.
-/
theorem exists_script_ofPlan
    (leftFollows : Operator.Follows left leftBlocks)
    (rightFollows : Operator.Follows right rightBlocks)
    (leftGoesOn : ∀ block ∈ leftBlocks, block.isTerminal = false)
    (rightGoesOn : ∀ block ∈ rightBlocks, block.isTerminal = false)
    (admits : plan.Admits ↑(rowsOf leftBlocks) ↑(rowsOf rightBlocks)) :
    ∃ blocks : List Block,
      Operator.Follows (BroadcastJoin.mk (.ofPlan plan) left right) blocks ∧
        (∀ block ∈ blocks, block.isTerminal = false) ∧
        (↑(rowsOf blocks) : Multiset Row) =
          plan.bagJoin ↑(rowsOf leftBlocks) ↑(rowsOf rightBlocks) ∧
        (idlesOf blocks).length =
          (idlesOf leftBlocks).length + (idlesOf rightBlocks).length := by
  obtain ⟨swept, unpaired, answers⟩ :=
    answers_ofPlan_of_admits leftFollows rightFollows leftGoesOn rightGoesOn admits
  have goesOn :
      ∀ block ∈
        idlesOf rightBlocks ++ leftBlocks.map (plan.probed (rowsOf rightBlocks)) ++
          plan.sweepOf swept,
        block.isTerminal = false := by
    intro block member
    rcases List.mem_append.mp member with inFront | isSwept
    · rcases List.mem_append.mp inFront with isIdle | isProbed
      · exact rightGoesOn block (List.mem_filter.mp isIdle).1
      · obtain ⟨taken, inLeft, rfl⟩ := List.mem_map.mp isProbed
        exact JoinPlan.isTerminal_probed (leftGoesOn taken inLeft)
    · exact JoinPlan.isTerminal_of_mem_sweepOf isSwept
  refine ⟨_, Operator.follows_of_answers answers goesOn, goesOn, ?_, ?_⟩
  · rw [rowsOf_append, rowsOf_append, rowsOf_idlesOf, List.nil_append,
      JoinPlan.rowsOf_map_probed, JoinPlan.rowsOf_sweepOf,
      ← JoinPlan.coe_nestedRows_add_sweptRows, ← Multiset.coe_add]
    congr 1
    split
    · exact Multiset.coe_eq_coe.mpr unpaired
    · rfl
  · rw [idlesOf_append, idlesOf_append, idlesOf_idlesOf, JoinPlan.idlesOf_sweepOf,
      List.append_nil, List.length_append, JoinPlan.length_idlesOf_map_probed,
      Nat.add_comm]

end BroadcastJoin

namespace Tree

variable {shape : Shape} {tree : Tree shape}

/-- A leaf follows what it has queued in front of its end. -/
theorem follows_ofSource (source : Replay) :
    Operator.Follows (ofSource source) source.script :=
  Operator.follows_takeWhile (Replay.follows_queued source)

/-- No block of a sound script ends anything. -/
theorem isTerminal_of_mem_script
    {source : Replay}
    {block : Block}
    (sound : ∀ block ∈ source.script, block.isFailed = false)
    (member : block ∈ source.script) :
    block.isTerminal = false := by
  have notFailed := sound block member
  have notEnd := List.all_eq_true.mp List.all_takeWhile block member
  cases block with
  | data batch => rfl
  | idle => rfl
  | ended => cases notEnd
  | failed cause => cases notFailed

/-- A sound tree follows a script with the rows that the tree means. -/
theorem exists_script
    (built : tree.Built)
    (sound : tree.Sound) :
    ∃ blocks : List Block,
      Operator.Follows tree blocks ∧
        (∀ block ∈ blocks, block.isTerminal = false) ∧
        (↑(rowsOf blocks) : Multiset Row) = tree.meaning ∧
        (idlesOf blocks).length = tree.idles := by
  induction built with
  | source source =>
      refine ⟨source.script, follows_ofSource source, ?_, rfl, rfl⟩
      exact fun block member => isTerminal_of_mem_script sound member
  | @join _ _ left right _ _ _ tree _ _ accepted leftHypothesis rightHypothesis =>
      obtain ⟨plan, rfl⟩ :
          ∃ plan : JoinPlan, tree = BroadcastJoin.mk (.ofPlan plan) left right :=
        ⟨_, BroadcastJoin.eq_ofPlan accepted⟩
      obtain ⟨leftSound, rightSound, admits⟩ := sound
      obtain ⟨leftBlocks, leftFollows, leftGoesOn, leftMeans, leftIdles⟩ :=
        leftHypothesis leftSound
      obtain ⟨rightBlocks, rightFollows, rightGoesOn, rightMeans, rightIdles⟩ :=
        rightHypothesis rightSound
      -- From here on only the bags of the children's rows matter, not their
      -- scripts.
      simp only [← leftMeans, ← rightMeans] at admits
      obtain ⟨blocks, follows, goesOn, rows, idles⟩ :=
        BroadcastJoin.exists_script_ofPlan leftFollows rightFollows leftGoesOn
          rightGoesOn admits
      refine ⟨blocks, follows, goesOn, ?_, ?_⟩
      · rw [rows, leftMeans, rightMeans]
        rfl
      · rw [idles, leftIdles, rightIdles]
        rfl

/--
Reading a sound tree to its end gives a permutation of the rows that it means, if as
many blocks may say that nothing is ready as there are in the leaves.
-/
theorem collect_meaning
    {bound : Nat}
    (built : tree.Built)
    (sound : tree.Sound)
    (patient : tree.idles ≤ bound) :
    ∃ rows : List Row,
      (collect bound tree).outcome = .ok rows ∧
        (↑rows : Multiset Row) = tree.meaning := by
  obtain ⟨blocks, follows, goesOn, means, idles⟩ := exists_script built sound
  refine ⟨rowsOf blocks, ?_, means⟩
  apply outcome_collect follows goesOn
  rw [idles]
  exact patient

/-- A source with a null as a key, and a failure behind its end. -/
def sampleLeaf : Replay :=
  .ofBlocks
    [.idle, .ofRows [[.null, .int 4], [.int 2, .int 6]] BroadcastJoin.sampleSchema,
      .ended, .failed (.inputFailed "beyond the end")]

/-- The small join, as a tree. -/
def sampleInner : Tree (.join .source .source) :=
  BroadcastJoin.sampleJoin BroadcastJoin.sampleLefts BroadcastJoin.sampleRights

/-- A join over the right keys of the small join. -/
def sampleOuterSpec : JoinSpec :=
  .equiJoin .right BroadcastJoin.sampleSchema BroadcastJoin.samplePlan.resultSchema
    ⟨[0]⟩ ⟨[2]⟩

/-- The plan of the join over the right keys. -/
def sampleOuterPlan : JoinPlan :=
  (JoinPlan.ofSpec sampleOuterSpec .default).toOption.get rfl

/--
A small tree: the small join as the right child of a join over its right keys.
-/
def sampleTree : Tree (.join .source (.join .source .source)) :=
  let join : BroadcastJoin (Tree .source) (Tree (.join .source .source)) :=
    ⟨.ofPlan sampleOuterPlan, ofSource sampleLeaf, sampleInner⟩
  join

/-- The sample tree is made of accepted joins. -/
theorem built_sampleTree : sampleTree.Built := by
  have innerAccepted :
      ofSpec (ofSource (.ofBlocks BroadcastJoin.sampleLefts))
          (ofSource (.ofBlocks BroadcastJoin.sampleRights)) BroadcastJoin.sampleSpec
          ⟨some 5⟩ =
        .ok sampleInner := rfl
  have outerAccepted :
      ofSpec (ofSource sampleLeaf) sampleInner sampleOuterSpec .default =
        .ok sampleTree := rfl
  have innerBuilt : sampleInner.Built := .join (.source _) (.source _) innerAccepted
  exact .join (.source sampleLeaf) innerBuilt outerAccepted

/-- The sample tree has sound leaves. -/
theorem sound_sampleTree : sampleTree.Sound := by
  have leafSound : ∀ block ∈ sampleLeaf.script, block.isFailed = false := by decide
  have leftsSound : (ofSource (.ofBlocks BroadcastJoin.sampleLefts)).Sound := by
    change ∀ block ∈ _, _
    decide
  have rightsSound : (ofSource (.ofBlocks BroadcastJoin.sampleRights)).Sound := by
    change ∀ block ∈ _, _
    decide
  have outerAdmits :
      sampleOuterPlan.Admits (ofSource sampleLeaf).meaning sampleInner.meaning := {
    leftWidths := by decide
    rightWidths := by decide +kernel
    withinLimit := by
      rintro limit ⟨⟩
    evaluates := fun _ _ _ _ _ _ _ => rfl
  }
  exact
    ⟨leafSound, ⟨leftsSound, rightsSound, BroadcastJoin.admits_sample⟩, outerAdmits⟩

/-- The nulls that the inner join pads with are keys of the outer one. -/
theorem collect_meaning_sample :
    ∃ rows : List Row,
      (collect 3 sampleTree).outcome = .ok rows ∧
        (↑rows : Multiset Row) =
          {[.null, .int 4, .null, .int 1, .null, .int 2],
            [.null, .int 4, .int 2, .null, .null, .null],
            [.int 2, .int 6, .null, .null, .int 2, .int 1],
            [.null, .null, .int 1, .int 5, .int 1, .int 7],
            [.null, .null, .int 1, .int 5, .int 1, .int 9],
            [.null, .null, .null, .null, .int 1, .int 3]} := by
  have patient : sampleTree.idles ≤ 3 := by decide
  obtain ⟨rows, collected, means⟩ :=
    collect_meaning built_sampleTree sound_sampleTree patient
  refine ⟨rows, collected, means.trans ?_⟩
  decide +kernel

end Tree

end StreamJoin
