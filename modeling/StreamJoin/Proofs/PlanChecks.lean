import StreamJoin.Join.Plan

namespace StreamJoin

/-!
# What the checks of a description establish

A description is accepted as a plan exactly if the plan says the same as the
description.  That the plan can be executed at all is part of its type, so nothing
else is left to check.
-/

namespace JoinPlan

/-- A plan with the contents of a description. -/
structure Describes
    (plan : JoinPlan)
    (spec : JoinSpec)
    (options : JoinOptions)
    (order : BucketOrder) : Prop where
  kind_eq : JoinKind.ofType spec.joinType = .ok plan.kind
  leftKeys_eq : spec.leftKeys = some plan.leftKeys
  rightKeys_eq : spec.rightKeys = some plan.rightKeys
  residuals_eq : spec.residuals = plan.residuals
  resultSchema_eq : spec.resultSchema = plan.resultSchema
  leftWidth_eq : spec.leftSchema.width = plan.leftWidth
  rightWidth_eq : spec.rightSchema.width = plan.rightWidth
  options_eq : options = plan.options
  order_eq : order = plan.bucketOrder

variable {plan : JoinPlan} {spec : JoinSpec} {options : JoinOptions}
  {order : BucketOrder}

/-- A plan that was accepted describes its parts. -/
theorem describes_of_ofParts
    {kind : JoinKind}
    {leftKeys rightKeys : KeyColumns}
    (kindKnown : JoinKind.ofType spec.joinType = .ok kind)
    (leftSelected : spec.leftKeys = some leftKeys)
    (rightSelected : spec.rightKeys = some rightKeys)
    (accepted : ofParts kind leftKeys rightKeys spec options order = .ok plan) :
    plan.Describes spec options order := by
  unfold ofParts at accepted
  simp only at accepted
  split at accepted
  · split at accepted
    · split at accepted
      · split at accepted
        · cases accepted
        · split at accepted
          · cases accepted
          · cases accepted
            exact
              ⟨kindKnown, leftSelected, rightSelected, rfl, rfl, rfl, rfl, rfl, rfl⟩
      · cases accepted
    · cases accepted
  · cases accepted

/-- What a plan describes is accepted as that plan. -/
theorem ofParts_of_describes
    (describes : plan.Describes spec options order) :
    ofParts plan.kind plan.leftKeys plan.rightKeys spec options order =
      .ok plan := by
  obtain ⟨_, _, _, residuals_eq, resultSchema_eq, leftWidth_eq, rightWidth_eq, rfl,
    rfl⟩ := describes
  have leftNonempty := plan.leftWidth_pos
  have widthsAgree := plan.width_resultSchema
  have leftPresent : plan.leftKeys.check .left plan.leftWidth = .ok () :=
    KeyColumns.check_eq_ok_iff.mpr plan.leftKeys_present
  have rightPresent : plan.rightKeys.check .right plan.rightWidth = .ok () :=
    KeyColumns.check_eq_ok_iff.mpr plan.rightKeys_present
  rw [← leftWidth_eq] at leftNonempty leftPresent
  rw [← rightWidth_eq] at rightPresent
  rw [← leftWidth_eq, ← rightWidth_eq, ← resultSchema_eq] at widthsAgree
  unfold ofParts
  simp only [leftNonempty, widthsAgree, plan.arity_eq, dite_true]
  split
  · simp_all
  · split
    · simp_all
    · simp only [residuals_eq, resultSchema_eq, leftWidth_eq, rightWidth_eq]

/-- A description is accepted as a plan exactly if the plan has its contents. -/
theorem ofSpec_eq_ok_iff :
    ofSpec spec options order = .ok plan ↔ plan.Describes spec options order := by
  constructor
  · intro accepted
    unfold ofSpec at accepted
    cases kindKnown : JoinKind.ofType spec.joinType with
    | error fault => simp [kindKnown] at accepted
    | ok kind =>
        cases leftSelected : spec.leftKeys with
        | none => simp [kindKnown, leftSelected] at accepted
        | some leftKeys =>
            cases rightSelected : spec.rightKeys with
            | none => simp [kindKnown, leftSelected, rightSelected] at accepted
            | some rightKeys =>
                simp only [kindKnown, leftSelected, rightSelected] at accepted
                exact
                  describes_of_ofParts kindKnown leftSelected rightSelected accepted
  · intro describes
    simp only [ofSpec, describes.kind_eq, describes.leftKeys_eq,
      describes.rightKeys_eq]
    exact ofParts_of_describes describes

end JoinPlan

end StreamJoin
