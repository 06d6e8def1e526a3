import Mathlib.Data.Multiset.Bind
import StreamJoin.Proofs.NestedLoop

namespace StreamJoin

/-!
# The relational meaning of a join

As a relation, a join takes two bags of rows to a bag of rows.  The order of the
rows and their batches play no part in it, so the order in which a final sweep hands
out its rows cannot show in what is built on top of it.  The nested loop and the
sweep together give the rows of the relational join, in some order.
-/

/-- No row of a bag is matched. -/
def Unmatched (matched : Row → Bool) (rows : Multiset Row) : Prop :=
  ∀ row ∈ rows, matched row = false

instance (matched : Row → Bool) (rows : Multiset Row) :
    Decidable (Unmatched matched rows) :=
  inferInstanceAs (Decidable (∀ row ∈ rows, matched row = false))

namespace JoinPlan

section Definition

variable (plan : JoinPlan)

/-- Every left row beside every right row that it forms a pair with. -/
def bagPairs (lefts rights : Multiset Row) : Multiset Row :=
  lefts.bind fun left =>
    (rights.filter fun right => plan.pairs left right).map (pair left)

/-- The left rows without a pair, padded. -/
def bagPaddedLefts (lefts rights : Multiset Row) : Multiset Row :=
  (lefts.filter fun left => Unmatched (plan.pairs left) rights).map plan.padRight

/-- The right rows without a pair, padded. -/
def bagPaddedRights (lefts rights : Multiset Row) : Multiset Row :=
  (rights.filter fun right =>
    Unmatched (fun left => plan.pairs left right) lefts).map plan.padLeft

/-- The relational join of two bags of rows. -/
def bagJoin (lefts rights : Multiset Row) : Multiset Row :=
  match plan.kind with
  | .inner => plan.bagPairs lefts rights
  | .left => plan.bagPairs lefts rights + plan.bagPaddedLefts lefts rights
  | .right => plan.bagPairs lefts rights + plan.bagPaddedRights lefts rights
  | .full =>
      plan.bagPairs lefts rights + plan.bagPaddedLefts lefts rights +
        plan.bagPaddedRights lefts rights
  | .semi =>
      (lefts.filter fun left => ¬ Unmatched (plan.sameKey left) rights).map
        plan.padRight
  | .anti =>
      (lefts.filter fun left => Unmatched (plan.sameKey left) rights).map
        plan.padRight

end Definition

variable {plan : JoinPlan} {lefts rights : List Row}

/-- A row without a match in a list is one without a match in its bag. -/
theorem unmatched_coe (matched : Row → Bool) (rows : List Row) :
    Unmatched matched ↑rows ↔ rows.any matched = false := by
  rw [List.any_eq_false]
  constructor
  · intro unmatched row member
    rw [unmatched row member]
    exact Bool.false_ne_true
  · intro noneMatched row member
    exact Bool.eq_false_of_not_eq_true (noneMatched row member)

/-- Rows that are kept one by one, under a condition, form a filtered bag. -/
theorem bind_ite_singleton
    (bag : Multiset Row)
    (kept : Row → Prop)
    [DecidablePred kept]
    (change : Row → Row) :
    (bag.bind fun row => if kept row then {change row} else 0) =
      (bag.filter kept).map change := by
  rw [Multiset.filter_eq_bind, Multiset.map_bind]
  apply Multiset.bind_congr
  intro row _
  by_cases isKept : kept row
  · rw [if_pos isKept, if_pos isKept, Multiset.map_singleton]
  · rw [if_neg isKept, if_neg isKept, Multiset.map_zero]

/--
As a bag, the nested loop is what it hands out for each left row, put together.
-/
theorem coe_nestedRows (rights lefts : List Row) :
    (↑(plan.nestedRows rights lefts) : Multiset Row) =
      (↑lefts : Multiset Row).bind fun left => ↑(plan.nestedRow rights left) :=
  (Multiset.coe_bind lefts (plan.nestedRow rights)).symm

/-- The pairs of all left rows, as a bag, are the joined pairs of the two bags. -/
theorem bind_pairsOf (rights lefts : List Row) :
    ((↑lefts : Multiset Row).bind fun left => ↑(plan.pairsOf rights left)) =
      plan.bagPairs ↑lefts ↑rights := by
  simp only [bagPairs, pairsOf, Multiset.filter_coe, Multiset.map_coe,
    Bool.decide_eq_true]

/-- A left row has no pair exactly if no right row of the bag goes with it. -/
theorem isEmpty_pairsOf (rights : List Row) (left : Row) :
    (plan.pairsOf rights left).isEmpty = true ↔
      Unmatched (plan.pairs left) ↑rights := by
  rw [unmatched_coe, pairsOf, List.isEmpty_map, List.isEmpty_iff,
    List.filter_eq_nil_iff, List.any_eq_false]

/-- A left row that is padded when it has no pair. -/
theorem coe_padded (rights : List Row) (left : Row) :
    (↑(if (plan.pairsOf rights left).isEmpty then
          [plan.padRight left]
        else
          plan.pairsOf rights left) : Multiset Row) =
      ↑(plan.pairsOf rights left) +
        if Unmatched (plan.pairs left) ↑rights then {plan.padRight left}
        else 0 := by
  by_cases unmatched : Unmatched (plan.pairs left) ↑rights
  · have noPairs := (isEmpty_pairsOf rights left).mpr unmatched
    rw [if_pos noPairs, if_pos unmatched, List.isEmpty_iff.mp noPairs]
    rfl
  · have somePairs : ¬ (plan.pairsOf rights left).isEmpty = true :=
      fun noPairs => unmatched ((isEmpty_pairsOf rights left).mp noPairs)
    rw [if_neg somePairs, if_neg unmatched, add_zero]

/--
As a bag, the rows of the sweep are the unmatched right rows, padded on the left.
-/
theorem coe_sweptRows (rights lefts : List Row) :
    (↑(plan.sweptRows rights lefts) : Multiset Row) =
      plan.bagPaddedRights ↑lefts ↑rights := by
  rw [sweptRows, unpairedRights, bagPaddedRights, ← Multiset.map_coe,
    Multiset.filter_coe]
  congr 2
  apply List.filter_congr
  intro right _
  rw [Bool.eq_iff_iff, decide_eq_true_iff, unmatched_coe, Bool.not_eq_true']

/--
Pairs, and a padded row where there is none, are the joined and the padded rows.
-/
theorem bind_padded (rights lefts : List Row) :
    ((↑lefts : Multiset Row).bind fun left =>
        (↑(if (plan.pairsOf rights left).isEmpty then
              [plan.padRight left]
            else
              plan.pairsOf rights left) : Multiset Row)) =
      plan.bagPairs ↑lefts ↑rights + plan.bagPaddedLefts ↑lefts ↑rights := by
  simp only [coe_padded, Multiset.bind_add, bind_pairsOf, bind_ite_singleton,
    bagPaddedLefts]

/-- The left rows whose key is present, padded, are a filter of the left bag. -/
theorem bind_present (rights lefts : List Row) :
    ((↑lefts : Multiset Row).bind fun left =>
        (↑(if rights.any (plan.sameKey left) then [plan.padRight left] else []) :
          Multiset Row)) =
      ((↑lefts : Multiset Row).filter fun left =>
        ¬ Unmatched (plan.sameKey left) ↑rights).map plan.padRight := by
  rw [← bind_ite_singleton]
  apply Multiset.bind_congr
  intro left _
  by_cases unmatched : Unmatched (plan.sameKey left) ↑rights
  · have absent := (unmatched_coe (plan.sameKey left) rights).mp unmatched
    rw [absent, if_neg (not_not_intro unmatched)]
    rfl
  · have present := mt (unmatched_coe (plan.sameKey left) rights).mpr unmatched
    rw [Bool.eq_true_of_not_eq_false present, if_pos unmatched]
    rfl

/-- The left rows whose key is absent, padded, are the rest of the left bag. -/
theorem bind_absent (rights lefts : List Row) :
    ((↑lefts : Multiset Row).bind fun left =>
        (↑(if rights.any (plan.sameKey left) then [] else [plan.padRight left]) :
          Multiset Row)) =
      ((↑lefts : Multiset Row).filter fun left =>
        Unmatched (plan.sameKey left) ↑rights).map plan.padRight := by
  rw [← bind_ite_singleton]
  apply Multiset.bind_congr
  intro left _
  by_cases unmatched : Unmatched (plan.sameKey left) ↑rights
  · have absent := (unmatched_coe (plan.sameKey left) rights).mp unmatched
    rw [absent, if_pos unmatched]
    rfl
  · have present := mt (unmatched_coe (plan.sameKey left) rights).mpr unmatched
    rw [Bool.eq_true_of_not_eq_false present, if_neg unmatched]
    rfl

/-- The nested loop and the sweep give the rows of the relational join. -/
theorem coe_nestedRows_add_sweptRows (rights lefts : List Row) :
    (↑(plan.nestedRows rights lefts) +
        if plan.kind.sweepsRight then ↑(plan.sweptRows rights lefts) else 0 :
          Multiset Row) =
      plan.bagJoin ↑lefts ↑rights := by
  rw [coe_nestedRows, coe_sweptRows]
  cases kind : plan.kind with
  | inner =>
      simp only [nestedRow, bagJoin, kind, bind_pairsOf]
      exact add_zero _
  | left =>
      simp only [nestedRow, bagJoin, kind, bind_padded]
      exact add_zero _
  | right =>
      simp only [nestedRow, bagJoin, kind, bind_pairsOf]
      rfl
  | full =>
      simp only [nestedRow, bagJoin, kind, bind_padded]
      rfl
  | semi =>
      simp only [nestedRow, bagJoin, kind, bind_present]
      exact add_zero _
  | anti =>
      simp only [nestedRow, bagJoin, kind, bind_absent]
      exact add_zero _

end JoinPlan

end StreamJoin
