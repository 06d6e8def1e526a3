import StreamJoin.Proofs.LockstepJoins
import StreamJoin.Proofs.PlanChecks

namespace StreamJoin

/-!
# Plans of different kinds

A description is accepted for one kind of join exactly if it is accepted for all of
them, and the plans differ in nothing but the kind.  What the kind changes is which
rows a left row leads to, whether there is a sweep, and whether the residual
predicates are evaluated at all.  Kinds that look for pairs find the same failures,
kinds that look for presence find the same ones, and without residual predicates all
of them do.
-/

/-- The join type that a kind executes. -/
def JoinKind.joinType : JoinKind → JoinType
  | .inner => .inner
  | .left => .left
  | .right => .right
  | .full => .full
  | .semi => .semi
  | .anti => .anti

/-- The kind of the type of a kind is that kind. -/
@[simp] theorem JoinKind.ofType_joinType (kind : JoinKind) :
    ofType kind.joinType = .ok kind := by
  cases kind <;> rfl

/-- The same description for another kind of join. -/
def JoinSpec.withKind (spec : JoinSpec) (kind : JoinKind) : JoinSpec :=
  { spec with joinType := kind.joinType }

namespace JoinPlan

/--
The same plan for another kind of join, with an order of its own for the sweep.
-/
def withKind (plan : JoinPlan) (kind : JoinKind) (order : BucketOrder) : JoinPlan :=
  { plan with
    kind := kind
    bucketOrder := order }

variable {plan : JoinPlan}

/-- What is accepted for one kind is accepted for every kind. -/
theorem describes_withKind
    {spec : JoinSpec}
    {options : JoinOptions}
    {order : BucketOrder}
    (describes : plan.Describes spec options order)
    (kind : JoinKind)
    (other : BucketOrder) :
    (plan.withKind kind other).Describes (spec.withKind kind) options other :=
  { describes with
    kind_eq := kind.ofType_joinType
    order_eq := rfl }

variable {first second : JoinKind} {order other : BucketOrder}
variable {rights lefts : List Row} {left candidate : Row}

/-- A kind that asks whether a key is present meets no failure. -/
theorem rowFault?_of_presence
    (looksForPresence : first.presence?.isSome = true) :
    (plan.withKind first order).rowFault? rights left = none := by
  cases first <;> first | rfl | cases looksForPresence

/-- A kind that looks for pairs fails at the first pair whose predicate fails. -/
theorem rowFault?_of_pairing
    (looksForPairs : first.presence? = none) :
    (plan.withKind first order).rowFault? rights left =
      (rights.filter (plan.sameKey left)).findSome? fun right =>
        plan.residualFault? (pair left right) := by
  cases first <;> first | rfl | cases looksForPairs

/-- Without predicates every candidate survives. -/
theorem accepts_of_isEmpty (noResiduals : plan.residuals.isEmpty = true) :
    plan.residuals.accepts candidate = .ok true := by
  rw [Residuals.accepts, List.isEmpty_iff.mp noResiduals]
  rfl

/-- Without predicates no row fails. -/
theorem rowFault?_of_isEmpty (noResiduals : plan.residuals.isEmpty = true) :
    (plan.withKind first order).rowFault? rights left = none := by
  cases looksFor : first.presence? with
  | some kept => exact rowFault?_of_presence (by rw [looksFor]; rfl)
  | none =>
      rw [rowFault?_of_pairing looksFor, List.findSome?_eq_none_iff]
      intro right _
      simp only [residualFault?, accepts_of_isEmpty noResiduals]

/-- Kinds that find the same failures in every row find them in every block. -/
theorem faultsAlike_withKind
    {leftRow rightRow : Row → Prop}
    (sameFaults :
      ∀ rights left,
        (plan.withKind first order).rowFault? rights left =
          (plan.withKind second other).rowFault? rights left) :
    (plan.withKind first order).FaultsAlike (plan.withKind second other) leftRow
      rightRow where
  rightFault?_eq _ _ _ _ := rfl
  leftFault?_eq rights block _ _ := by
    have samePairs :
        (plan.withKind first order).pairFault? rights block.rows =
          (plan.withKind second other).pairFault? rights block.rows :=
      congrArg block.rows.findSome? (funext (sameFaults rights))
    simp only [leftFault?, samePairs]
    rfl

/-- Kinds that look for pairs fail alike. -/
theorem faultsAlike_of_pairing
    {leftRow rightRow : Row → Prop}
    (looksForPairs : first.presence? = none)
    (otherLooks : second.presence? = none) :
    (plan.withKind first order).FaultsAlike (plan.withKind second other) leftRow
      rightRow := by
  apply faultsAlike_withKind
  intro rights left
  rw [rowFault?_of_pairing looksForPairs, rowFault?_of_pairing otherLooks]

/-- Kinds that ask whether a key is present fail alike. -/
theorem faultsAlike_of_presence
    {leftRow rightRow : Row → Prop}
    (looksForPresence : first.presence?.isSome = true)
    (otherLooks : second.presence?.isSome = true) :
    (plan.withKind first order).FaultsAlike (plan.withKind second other) leftRow
      rightRow := by
  apply faultsAlike_withKind
  intro rights left
  rw [rowFault?_of_presence looksForPresence, rowFault?_of_presence otherLooks]

/-- Without predicates all kinds fail alike. -/
theorem faultsAlike_of_isEmpty
    {leftRow rightRow : Row → Prop}
    (noResiduals : plan.residuals.isEmpty = true) :
    (plan.withKind first order).FaultsAlike (plan.withKind second other) leftRow
      rightRow := by
  apply faultsAlike_withKind
  intro rights left
  rw [rowFault?_of_isEmpty noResiduals, rowFault?_of_isEmpty noResiduals]

/-- The rows of a left row that is padded if it forms no pair. -/
def paddedPairs (plan : JoinPlan) (rights : List Row) (left : Row) : List Row :=
  if (plan.pairsOf rights left).isEmpty then
    [plan.padRight left]
  else
    plan.pairsOf rights left

/-- The left rows with some property, each with nulls in place of a right row. -/
def paddedOf (plan : JoinPlan) (kept : Row → Bool) (lefts : List Row) : List Row :=
  (lefts.filter kept).map plan.padRight

/-- Keeping or dropping each row is a filter. -/
theorem flatMap_ite_padRight (kept : Row → Bool) :
    (lefts.flatMap fun left => if kept left then [plan.padRight left] else []) =
      plan.paddedOf kept lefts := by
  induction lefts with
  | nil => rfl
  | cons left rest inductionHypothesis =>
      rw [List.flatMap_cons, inductionHypothesis]
      cases isKept : kept left <;> simp [paddedOf, isKept]

/-- A semi join keeps the left rows whose key is present, padded. -/
theorem nestedRows_semi :
    (plan.withKind .semi order).nestedRows rights lefts =
      plan.paddedOf (fun left => rights.any (plan.sameKey left)) lefts :=
  flatMap_ite_padRight fun left => rights.any (plan.sameKey left)

/-- An anti join keeps the left rows whose key is absent, padded. -/
theorem nestedRows_anti :
    (plan.withKind .anti order).nestedRows rights lefts =
      plan.paddedOf (fun left => !rights.any (plan.sameKey left)) lefts := by
  rw [← flatMap_ite_padRight]
  apply List.flatMap_congr
  intro left _
  change (if rights.any (plan.sameKey left) then [] else [plan.padRight left]) = _
  cases rights.any (plan.sameKey left) <;> rfl

/--
Without residual predicates a left row has a partner as soon as its key is present.
-/
theorem isEmpty_pairsOf_of_isEmpty (noResiduals : plan.residuals.isEmpty = true) :
    (plan.pairsOf rights left).isEmpty = !rights.any (plan.sameKey left) := by
  have samePairs : plan.pairs left = plan.sameKey left := by
    funext right
    simp only [pairs, survives, accepts_of_isEmpty noResiduals, Bool.and_true]
  rw [pairsOf, samePairs, List.isEmpty_map, Bool.eq_iff_iff]
  simp

end JoinPlan

end StreamJoin
