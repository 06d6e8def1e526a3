import StreamJoin.Join.Plan
import StreamJoin.Residual.Comparison

namespace StreamJoin

/-!
# Equality of keys as a comparison

A join may find its pairs by key, or it may pair every left row with every right row
and let residual predicates compare the key columns.  Structural equality and the
comparison that a query asks for are different in general: a null is equal to a null
but unordered, numbers of different types may compare as equal, and so may different
floating-point words.  Between two values of one type that is not floating point
they are the same.

So for rows whose key columns hold such values a conjunction of comparisons decides
the equality of the keys.  It never fails, and behind an unequal column nothing is
evaluated.
-/

/-- Whether two values of the type compare as equal only if they are the same. -/
def ColumnType.isExact : ColumnType → Bool
  | .float => false
  | .double => false
  | _ => true

namespace Value

/--
Two values of one exact type have an order, which is that of equals only for one
value.
-/
theorem exists_sqlOrder?_of_exact
    {left right : Value}
    {type : ColumnType}
    (exact : type.isExact = true)
    (leftType : left.type? = some type)
    (rightType : right.type? = some type) :
    ∃ order, left.sqlOrder? right = some order ∧ (order = .eq ↔ left = right) := by
  cases left <;> cases right <;>
    simp only [type?, Option.some.injEq, reduceCtorEq] at leftType rightType <;>
    subst leftType <;> simp only [reduceCtorEq] at rightType
  case boolean.boolean truth other =>
    refine ⟨_, rfl, ?_⟩
    cases truth <;> cases other <;> decide
  case int.int number other =>
    refine ⟨_, rfl, ?_⟩
    simp only [Std.LawfulEqOrd.compare_eq_iff_eq, Int32.toInt_inj, Value.int.injEq]
  case long.long number other =>
    refine ⟨_, rfl, ?_⟩
    simp only [Std.LawfulEqOrd.compare_eq_iff_eq, Int64.toInt_inj, Value.long.injEq]
  case float.float => cases exact
  case double.double => cases exact
  case string.string text other =>
    refine ⟨_, rfl, ?_⟩
    simp only [Std.LawfulEqOrd.compare_eq_iff_eq, Value.string.injEq]
    exact ⟨codePoints_injective, congrArg codePoints⟩
  case bytes.bytes content other =>
    refine ⟨_, rfl, ?_⟩
    have toNat_injective :
        ∀ byte byte' : UInt8, byte.toNat = byte'.toNat → byte = byte' :=
      fun _ _ => UInt8.toNat_inj.mp
    simp only [Std.LawfulEqOrd.compare_eq_iff_eq, Value.bytes.injEq,
      List.map_inj_right toNat_injective]

end Value

namespace Comparison

/--
Comparing two values of one exact type for equality decides whether they are the
same.
-/
theorem compareValues_equal
    {left right : Value}
    {type : ColumnType}
    (exact : type.isExact = true)
    (leftType : left.type? = some type)
    (rightType : right.type? = some type) :
    compareValues .equal left right = .ok (.boolean (decide (left = right))) := by
  have leftPresent : left.isNull = false := by
    cases left <;> simp_all [Value.type?, Value.isNull]
  have rightPresent : right.isNull = false := by
    cases right <;> simp_all [Value.type?, Value.isNull]
  obtain ⟨order, ordered, equal_iff⟩ :=
    Value.exists_sqlOrder?_of_exact exact leftType rightType
  have verdict : OrderTest.equal.holds order = decide (left = right) := by
    by_cases same : left = right
    · simp only [OrderTest.holds, equal_iff.mpr same, same, decide_true,
        beq_self_eq_true]
    · have unequal := mt equal_iff.mp same
      simp only [OrderTest.holds, same, decide_false, beq_eq_false_iff_ne, ne_eq,
        unequal, not_false_eq_true]
  simp only [compareValues, leftPresent, rightPresent, Bool.or_self,
    Bool.false_eq_true, if_false, ordered, verdict]

end Comparison

/-- A column that reads as a value with a type is a column of the row. -/
theorem getElem?_of_type
    {row : Row}
    {column : Nat}
    {type : ColumnType}
    (typed : (row[column]?.getD .null).type? = some type) :
    row[column]? = some (row[column]?.getD .null) := by
  cases found : row[column]? with
  | none => simp [found, Value.type?] at typed
  | some value => rfl

section Columns

variable {left right : Row} {leftColumn rightColumn : Nat} {type : ColumnType}

/-- The comparison of a left and a right column of a candidate row. -/
theorem toPredicate_columns_equal
    (exact : type.isExact = true)
    (leftType : (left[leftColumn]?.getD .null).type? = some type)
    (rightType : (right[rightColumn]?.getD .null).type? = some type) :
    (Comparison.columns leftColumn .equal (left.length + rightColumn)).toPredicate
        (left ++ right) =
      .ok (.boolean
        (decide (left[leftColumn]?.getD .null =
          right[rightColumn]?.getD .null))) := by
  have leftFound := getElem?_of_type leftType
  have rightFound := getElem?_of_type rightType
  have leftBound : leftColumn < left.length :=
    (List.getElem?_eq_some_iff.mp leftFound).1
  have leftRead :
      (left ++ right)[leftColumn]? = some (left[leftColumn]?.getD .null) :=
    (List.getElem?_append_left leftBound).trans leftFound
  have rightRead :
      (left ++ right)[left.length + rightColumn]? =
        some (right[rightColumn]?.getD .null) := by
    rw [List.getElem?_append_right (Nat.le_add_right _ _), Nat.add_sub_cancel_left]
    exact rightFound
  simp only [Comparison.toPredicate, Comparison.columns, Operand.valueIn, leftRead,
    rightRead, Comparison.compareValues_equal exact leftType rightType]

end Columns

/--
The comparisons of the left key columns with the right ones behind a left row.
-/
def keyComparisons (leftWidth : Nat) (leftKeys rightKeys : KeyColumns) :
    List Predicate :=
  List.zipWith
    (fun leftColumn rightColumn =>
      (Comparison.columns leftColumn .equal (leftWidth + rightColumn)).toPredicate)
    leftKeys.columns rightKeys.columns

/-- A row with values of given types in its key columns. -/
def KeyColumns.Typed (selected : KeyColumns) (types : List ColumnType) (row : Row) :
    Prop :=
  (selected.key row).values.map Value.type? = types.map some

instance (selected : KeyColumns) (types : List ColumnType) (row : Row) :
    Decidable (selected.Typed types row) :=
  inferInstanceAs (Decidable (_ = _))

namespace Residuals

/-- The comparisons of two typed keys decide first whether the keys are the same. -/
theorem allHold_keyComparisons
    {left right : Row}
    {leftKeys rightKeys : KeyColumns}
    {types : List ColumnType}
    (exact : ∀ type ∈ types, type.isExact = true)
    (leftTyped : leftKeys.Typed types left)
    (rightTyped : rightKeys.Typed types right)
    (predicates : List Predicate) :
    allHold (left ++ right)
        (keyComparisons left.length leftKeys rightKeys ++ predicates) =
      if leftKeys.key left = rightKeys.key right then
        allHold (left ++ right) predicates
      else
        .ok false := by
  obtain ⟨leftColumns⟩ := leftKeys
  obtain ⟨rightColumns⟩ := rightKeys
  simp only [KeyColumns.Typed, KeyColumns.key, keyComparisons, Key.mk.injEq]
    at leftTyped rightTyped ⊢
  -- Both selectors have one column for each type, so the three lists shrink
  -- together.
  induction types generalizing leftColumns rightColumns with
  | nil =>
      simp only [List.map_nil, List.map_eq_nil_iff] at leftTyped rightTyped
      simp only [leftTyped, rightTyped, List.zipWith_nil_left, List.nil_append,
        List.map_nil, if_true]
  | cons type rest inductionHypothesis =>
      rcases leftColumns with _ | ⟨leftColumn, leftRest⟩
      · simp at leftTyped
      rcases rightColumns with _ | ⟨rightColumn, rightRest⟩
      · simp at rightTyped
      simp only [List.map_cons, List.cons.injEq] at leftTyped rightTyped
      obtain ⟨leftHead, leftTail⟩ := leftTyped
      obtain ⟨rightHead, rightTail⟩ := rightTyped
      have evaluated :=
        toPredicate_columns_equal (exact type List.mem_cons_self) leftHead rightHead
      have later :=
        inductionHypothesis
          (fun other member => exact other (List.mem_cons_of_mem type member))
          leftRest leftTail rightRest rightTail
      simp only [List.zipWith_cons_cons, List.cons_append, allHold, evaluated,
        Value.truth, later, List.map_cons, List.cons.injEq]
      by_cases sameHead : left[leftColumn]?.getD .null =
        right[rightColumn]?.getD .null
      · simp only [sameHead, decide_true, true_and]
      · simp only [sameHead, decide_false, false_and, if_false]

end Residuals

end StreamJoin
