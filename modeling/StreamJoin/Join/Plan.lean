import StreamJoin.Join.Kind
import StreamJoin.Key.Columns
import StreamJoin.Join.Options
import StreamJoin.Join.Table
import StreamJoin.Residual.Basic
import StreamJoin.Schema.Basic

namespace StreamJoin

/-!
# Join plans

A planner describes a join by a `JoinSpec`.  A `JoinPlan` is a description that
passed all checks, and carries what they established.  The checks are made in a
fixed order, and the first one that fails gives the fault.

A plan also fixes the order in which the final sweep visits the buckets.  No caller
asks for an order, so plans that differ in it only describe the same join.
-/

/-- What a planner asks for. -/
structure JoinSpec where
  joinType : JoinType
  leftSchema : Schema
  rightSchema : Schema
  resultSchema : Schema
  leftKeys : Option KeyColumns
  rightKeys : Option KeyColumns
  residuals : Residuals

/--
The equi-join of two inputs over given key columns, with all columns of both
inputs and no residual predicates.
-/
def JoinSpec.equiJoin
    (joinType : JoinType)
    (leftSchema rightSchema : Schema)
    (leftKeys rightKeys : KeyColumns) :
    JoinSpec where
  joinType := joinType
  leftSchema := leftSchema
  rightSchema := rightSchema
  resultSchema := leftSchema.join rightSchema
  leftKeys := some leftKeys
  rightKeys := some rightKeys
  residuals := .none

/-- A join that can be executed. -/
structure JoinPlan where
  kind : JoinKind
  leftKeys : KeyColumns
  rightKeys : KeyColumns
  residuals : Residuals
  resultSchema : Schema
  leftWidth : Nat
  rightWidth : Nat
  options : JoinOptions
  bucketOrder : BucketOrder
  leftWidth_pos : 0 < leftWidth
  width_resultSchema : resultSchema.width = leftWidth + rightWidth
  arity_eq : leftKeys.arity = rightKeys.arity
  leftKeys_present : leftKeys.firstMissing? leftWidth = none
  rightKeys_present : rightKeys.firstMissing? rightWidth = none

namespace JoinPlan

/--
Check the widths and the key columns of a join whose kind and selectors are known.
-/
def ofParts
    (kind : JoinKind)
    (leftKeys rightKeys : KeyColumns)
    (spec : JoinSpec)
    (options : JoinOptions)
    (bucketOrder : BucketOrder) :
    Except Fault JoinPlan :=
  let leftWidth := spec.leftSchema.width
  let rightWidth := spec.rightSchema.width
  if leftNonempty : 0 < leftWidth then
    if widthsAgree : spec.resultSchema.width = leftWidth + rightWidth then
      if aritiesAgree : leftKeys.arity = rightKeys.arity then
        match leftPresent : leftKeys.check .left leftWidth with
        | .error fault => .error fault
        | .ok () =>
            match rightPresent : rightKeys.check .right rightWidth with
            | .error fault => .error fault
            | .ok () =>
                .ok {
                  kind := kind
                  leftKeys := leftKeys
                  rightKeys := rightKeys
                  residuals := spec.residuals
                  resultSchema := spec.resultSchema
                  leftWidth := leftWidth
                  rightWidth := rightWidth
                  options := options
                  bucketOrder := bucketOrder
                  leftWidth_pos := leftNonempty
                  width_resultSchema := widthsAgree
                  arity_eq := aritiesAgree
                  leftKeys_present := KeyColumns.check_eq_ok_iff.mp leftPresent
                  rightKeys_present := KeyColumns.check_eq_ok_iff.mp rightPresent
                }
      else
        .error (.keyCountMismatch leftKeys.arity rightKeys.arity)
    else
      .error (.resultWidthMismatch leftWidth rightWidth spec.resultSchema.width)
  else
    .error .noLeftColumns

/-- Check a description. -/
def ofSpec
    (spec : JoinSpec)
    (options : JoinOptions)
    (bucketOrder : BucketOrder := .byKey) :
    Except Fault JoinPlan :=
  match JoinKind.ofType spec.joinType with
  | .error fault => .error fault
  | .ok kind =>
      match spec.leftKeys, spec.rightKeys with
      | none, _ => .error (.missingKeys .left)
      | some _, none => .error (.missingKeys .right)
      | some leftKeys, some rightKeys =>
          ofParts kind leftKeys rightKeys spec options bucketOrder

/-- A left row and a right row side by side. -/
def pair (left right : Row) : Row := left ++ right

/-- A left row with nulls in place of a right row. -/
def padRight (plan : JoinPlan) (left : Row) : Row := left ++ nulls plan.rightWidth

/-- A right row with nulls in place of a left row. -/
def padLeft (plan : JoinPlan) (right : Row) : Row := nulls plan.leftWidth ++ right

end JoinPlan

end StreamJoin
