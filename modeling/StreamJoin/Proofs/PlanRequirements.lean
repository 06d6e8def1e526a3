import StreamJoin.Proofs.PlanChecks

namespace StreamJoin

/-!
# The first violated requirement

A description has to meet eight requirements.  They are checked in a fixed order,
and the first one that is violated gives the fault; if none is violated the
description is accepted.  Each requirement is stated here by itself, so that only
their order connects them.
-/

/-- What is required of a description, in the order in which it is checked. -/
inductive Requirement where
  | supportedType
  | leftSelector
  | rightSelector
  | leftColumns
  | resultWidth
  | keyCounts
  | leftBounds
  | rightBounds
  deriving Repr, DecidableEq

/-- All requirements, in the order in which they are checked. -/
def Requirement.all : List Requirement :=
  [.supportedType, .leftSelector, .rightSelector, .leftColumns, .resultWidth,
    .keyCounts, .leftBounds, .rightBounds]

/--
The fault of the first selected column that rows of a given width do not have.
-/
def KeyColumns.boundsFault? (selected : KeyColumns) (side : Side) (width : Nat) :
    Option Fault :=
  (selected.columns.find? fun column => width ≤ column).map fun column =>
    .keyColumnMissing side column width

/-- Key columns are refused with the fault of the first one that is missing. -/
theorem KeyColumns.boundsFault?_eq
    {selected : KeyColumns}
    {side : Side}
    {width : Nat} :
    selected.boundsFault? side width =
      match selected.check side width with
      | .error fault => some fault
      | .ok () => none := by
  have same :
      selected.boundsFault? side width =
        (selected.firstMissing? width).map (.keyColumnMissing side · width) := rfl
  rw [same, check]
  cases selected.firstMissing? width <;> rfl

namespace JoinSpec

variable {spec : JoinSpec}

/-- How a description violates a requirement, if it does. -/
def violation? (spec : JoinSpec) : Requirement → Option Fault
  | .supportedType =>
      if spec.joinType ∈ [.inner, .left, .right, .full, .semi, .anti] then
        none
      else
        some (.unsupportedJoin spec.joinType.label)
  | .leftSelector =>
      if spec.leftKeys.isSome then none else some (.missingKeys .left)
  | .rightSelector =>
      if spec.rightKeys.isSome then none else some (.missingKeys .right)
  | .leftColumns => if 0 < spec.leftSchema.width then none else some .noLeftColumns
  | .resultWidth =>
      if
        spec.resultSchema.width = spec.leftSchema.width + spec.rightSchema.width
      then
        none
      else
        some
          (.resultWidthMismatch spec.leftSchema.width spec.rightSchema.width
            spec.resultSchema.width)
  | .keyCounts =>
      match spec.leftKeys, spec.rightKeys with
      | some leftKeys, some rightKeys =>
          if leftKeys.arity = rightKeys.arity then
            none
          else
            some (.keyCountMismatch leftKeys.arity rightKeys.arity)
      | _, _ => none
  | .leftBounds =>
      spec.leftKeys.bind fun leftKeys =>
        leftKeys.boundsFault? .left spec.leftSchema.width
  | .rightBounds =>
      spec.rightKeys.bind fun rightKeys =>
        rightKeys.boundsFault? .right spec.rightSchema.width

/-- The fault of the first requirement that a description violates. -/
def firstViolation? (spec : JoinSpec) : Option Fault :=
  Requirement.all.findSome? spec.violation?

/-- A description that meets all requirements. -/
structure Acceptable (spec : JoinSpec) : Prop where
  supportedType : spec.joinType ∈ [.inner, .left, .right, .full, .semi, .anti]
  leftColumns : 0 < spec.leftSchema.width
  resultWidth :
    spec.resultSchema.width = spec.leftSchema.width + spec.rightSchema.width
  selectors :
    ∃ leftKeys rightKeys,
      spec.leftKeys = some leftKeys ∧ spec.rightKeys = some rightKeys ∧
        leftKeys.arity = rightKeys.arity ∧
        (∀ column ∈ leftKeys.columns, column < spec.leftSchema.width) ∧
        ∀ column ∈ rightKeys.columns, column < spec.rightSchema.width

/-- No requirement is violated exactly if all are met. -/
theorem firstViolation?_eq_none_iff :
    spec.firstViolation? = none ↔ spec.Acceptable := by
  simp only [firstViolation?, Requirement.all, List.findSome?_eq_none_iff,
    List.forall_mem_cons, List.not_mem_nil, false_implies, implies_true, and_true]
  constructor
  · rintro ⟨supported, leftSelected, rightSelected, nonempty, widths, counts,
      leftBounds, rightBounds⟩
    obtain ⟨leftKeys, leftKeys_eq⟩ : ∃ leftKeys, spec.leftKeys = some leftKeys := by
      simpa [violation?, Option.isSome_iff_exists] using leftSelected
    obtain ⟨rightKeys, rightKeys_eq⟩ :
        ∃ rightKeys, spec.rightKeys = some rightKeys := by
      simpa [violation?, Option.isSome_iff_exists] using rightSelected
    simp only [violation?, leftKeys_eq, rightKeys_eq, Option.bind_some,
      KeyColumns.boundsFault?, Option.map_eq_none_iff, List.find?_eq_none,
      decide_eq_true_eq, Nat.not_le, ite_eq_left_iff, reduceCtorEq, imp_false,
      Decidable.not_not]
        at supported nonempty widths counts leftBounds rightBounds
    exact
      ⟨supported, nonempty, widths, leftKeys, rightKeys, leftKeys_eq, rightKeys_eq,
        counts, leftBounds, rightBounds⟩
  · rintro ⟨supported, nonempty, widths, leftKeys, rightKeys, leftKeys_eq,
      rightKeys_eq, counts, leftBounds, rightBounds⟩
    simp only [violation?, supported, leftKeys_eq, rightKeys_eq, nonempty, widths,
      counts, Option.isSome_some, if_true, Option.bind_some,
      KeyColumns.boundsFault?, Option.map_eq_none_iff, List.find?_eq_none,
      decide_eq_true_eq, Nat.not_le, true_and]
    exact ⟨leftBounds, rightBounds⟩

end JoinSpec

namespace JoinPlan

variable {spec : JoinSpec} {options : JoinOptions} {order : BucketOrder}
  {fault : Fault}

/-- An accepted description meets all requirements. -/
theorem acceptable_of_ok
    {plan : JoinPlan}
    (accepted : ofSpec spec options order = .ok plan) :
    spec.Acceptable := by
  have describes := ofSpec_eq_ok_iff.mp accepted
  have kindKnown := describes.kind_eq
  exact {
    supportedType := by
      cases joinType : spec.joinType <;> simp_all [JoinKind.ofType]
    leftColumns := describes.leftWidth_eq ▸ plan.leftWidth_pos
    resultWidth := by
      rw [describes.resultSchema_eq, describes.leftWidth_eq,
        describes.rightWidth_eq]
      exact plan.width_resultSchema
    selectors := by
      refine
        ⟨plan.leftKeys, plan.rightKeys, describes.leftKeys_eq,
          describes.rightKeys_eq, plan.arity_eq, ?_, ?_⟩
      · rw [describes.leftWidth_eq]
        exact
          (plan.leftKeys.firstMissing?_eq_none_iff plan.leftWidth).mp
            plan.leftKeys_present
      · rw [describes.rightWidth_eq]
        exact
          (plan.rightKeys.firstMissing?_eq_none_iff plan.rightWidth).mp
            plan.rightKeys_present
  }

/--
A refused description whose type and selectors are known violates a later
requirement.
-/
theorem firstViolation?_of_ofParts
    {kind : JoinKind}
    {leftKeys rightKeys : KeyColumns}
    (supported : spec.joinType ∈ [.inner, .left, .right, .full, .semi, .anti])
    (leftKeys_eq : spec.leftKeys = some leftKeys)
    (rightKeys_eq : spec.rightKeys = some rightKeys)
    (refused : ofParts kind leftKeys rightKeys spec options order = .error fault) :
    spec.firstViolation? = some fault := by
  simp only [JoinSpec.firstViolation?, Requirement.all, List.findSome?_cons,
    supported, JoinSpec.violation?, leftKeys_eq, rightKeys_eq, Option.isSome_some,
    if_true, Option.bind_some, KeyColumns.boundsFault?_eq]
  unfold ofParts at refused
  simp only at refused
  split at refused
  · next nonempty =>
      simp only [nonempty, if_true]
      split at refused
      · next widths =>
          simp only [widths, if_true]
          split at refused
          · next counts =>
              simp only [counts, if_true]
              split at refused
              · next leftRefused =>
                  cases refused
                  simp only [leftRefused]
              · next leftAccepted =>
                  split at refused
                  · next rightRefused =>
                      cases refused
                      simp only [leftAccepted, rightRefused]
                  · cases refused
          · next counts =>
              cases refused
              simp only [counts, if_false]
      · next widths =>
          cases refused
          simp only [widths, if_false]
  · next empty =>
      cases refused
      simp only [empty, if_false]

/--
A refused description violates a requirement, and the first such one gives the
fault.
-/
theorem firstViolation?_of_error
    (refused : ofSpec spec options order = .error fault) :
    spec.firstViolation? = some fault := by
  unfold ofSpec at refused
  cases kindKnown : JoinKind.ofType spec.joinType with
  | error unsupported =>
      rw [kindKnown] at refused
      cases refused
      cases joinType : spec.joinType <;>
        simp_all [JoinKind.ofType, JoinSpec.firstViolation?, Requirement.all,
          JoinSpec.violation?]
  | ok kind =>
      have supported :
          spec.joinType ∈ [.inner, .left, .right, .full, .semi, .anti] := by
        cases joinType : spec.joinType <;> simp_all [JoinKind.ofType]
      cases leftKeys_eq : spec.leftKeys with
      | none =>
          simp only [kindKnown, leftKeys_eq] at refused
          cases refused
          simp only [JoinSpec.firstViolation?, Requirement.all, List.findSome?_cons,
            supported, JoinSpec.violation?, leftKeys_eq]
          rfl
      | some leftKeys =>
          cases rightKeys_eq : spec.rightKeys with
          | none =>
              simp only [kindKnown, leftKeys_eq, rightKeys_eq] at refused
              cases refused
              simp only [JoinSpec.firstViolation?, Requirement.all,
                List.findSome?_cons, supported, JoinSpec.violation?, leftKeys_eq,
                rightKeys_eq]
              rfl
          | some rightKeys =>
              simp only [kindKnown, leftKeys_eq, rightKeys_eq] at refused
              exact
                firstViolation?_of_ofParts supported leftKeys_eq rightKeys_eq
                  refused

/-- A description is accepted exactly if it meets all requirements. -/
theorem exists_plan_iff :
    (∃ plan, ofSpec spec options order = .ok plan) ↔ spec.Acceptable := by
  constructor
  · rintro ⟨plan, accepted⟩
    exact acceptable_of_ok accepted
  · intro acceptable
    cases checked : ofSpec spec options order with
    | ok plan => exact ⟨plan, rfl⟩
    | error fault =>
        have violated := firstViolation?_of_error checked
        rw [JoinSpec.firstViolation?_eq_none_iff.mpr acceptable] at violated
        cases violated

/--
The fault of a refused description is that of the first requirement it violates.
-/
theorem ofSpec_eq_error_iff :
    ofSpec spec options order = .error fault ↔
      spec.firstViolation? = some fault := by
  constructor
  · exact firstViolation?_of_error
  · intro violated
    cases checked : ofSpec spec options order with
    | ok plan =>
        rw [JoinSpec.firstViolation?_eq_none_iff.mpr
          (acceptable_of_ok checked)] at violated
        cases violated
    | error other =>
        have otherViolated := firstViolation?_of_error checked
        rw [Option.some.inj (otherViolated.symm.trans violated)]

end JoinPlan

end StreamJoin
