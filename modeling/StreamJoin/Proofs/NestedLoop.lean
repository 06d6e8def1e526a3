import StreamJoin.Join.Probe
import StreamJoin.Proofs.TableContents

namespace StreamJoin

/-!
# The nested-loop definition of a join

A join is defined here by a loop over its left rows with a loop over all right rows
inside, without a table.  For each kind the definition says which rows one left row
leads to, which right rows stay unpaired, and which evaluation of a residual
predicate is the first to fail.

Probing a table that holds the right rows agrees with it: the same rows in the same
order, the same first failure, and marks on exactly the right rows that were paired.
-/

namespace JoinPlan

section Definition

variable (plan : JoinPlan)

/-- Whether a left row and a right row agree in their keys. -/
def sameKey (left right : Row) : Bool :=
  plan.rightKeys.key right = plan.leftKeys.key left

/-- Whether every residual predicate is strictly true of a candidate. -/
def survives (candidate : Row) : Bool :=
  match plan.residuals.accepts candidate with
  | .ok verdict => verdict
  | .error _ => false

/-- The failure of the residual predicates on a candidate. -/
def residualFault? (candidate : Row) : Option Fault :=
  match plan.residuals.accepts candidate with
  | .ok _ => none
  | .error fault => some fault

/-- Whether a left row and a right row form a pair. -/
def pairs (left right : Row) : Bool :=
  plan.sameKey left right && plan.survives (pair left right)

/-- The pairs of a left row, in the order of the right rows. -/
def pairsOf (rights : List Row) (left : Row) : List Row :=
  (rights.filter (plan.pairs left)).map (pair left)

/-- The rows that one left row leads to. -/
def nestedRow (rights : List Row) (left : Row) : List Row :=
  match plan.kind with
  | .inner
  | .right => plan.pairsOf rights left
  | .left
  | .full =>
      if (plan.pairsOf rights left).isEmpty then
        [plan.padRight left]
      else
        plan.pairsOf rights left
  | .semi => if rights.any (plan.sameKey left) then [plan.padRight left] else []
  | .anti => if rights.any (plan.sameKey left) then [] else [plan.padRight left]

/-- The rows that left rows lead to, one left row after another. -/
def nestedRows (rights lefts : List Row) : List Row :=
  lefts.flatMap (plan.nestedRow rights)

/-- The right rows that form a pair with none of the left rows. -/
def unpairedRights (lefts rights : List Row) : List Row :=
  rights.filter fun right => !lefts.any fun left => plan.pairs left right

/-- The right rows that the final sweep hands out, padded, up to their order. -/
def sweptRows (rights lefts : List Row) : List Row :=
  (plan.unpairedRights lefts rights).map plan.padLeft

/--
The first failure of a residual predicate when a left row goes through the right
rows with its key.  Kinds that ask for the presence of the key evaluate nothing.
-/
def rowFault? (rights : List Row) (left : Row) : Option Fault :=
  match plan.kind with
  | .semi
  | .anti => none
  | _ =>
      (rights.filter (plan.sameKey left)).findSome? fun right =>
        plan.residualFault? (pair left right)

/-- The first failure of a residual predicate over left rows, one after another. -/
def pairFault? (rights lefts : List Row) : Option Fault :=
  lefts.findSome? (plan.rowFault? rights)

end Definition

variable {plan : JoinPlan}

/-- The table that holds the right rows of a join. -/
def tableOf (plan : JoinPlan) (rights : List Row) : Table :=
  .ofRows plan.rightKeys.key rights

/-- The bucket of the key of a left row holds the right rows with the same key. -/
theorem bucket_tableOf (rights : List Row) (left : Row) :
    (plan.tableOf rights).bucket (plan.leftKeys.key left) =
      rights.filter (plan.sameKey left) :=
  Table.bucket_ofRows rights (plan.leftKeys.key left)

/-- The table has the key of a left row exactly if a right row has it. -/
theorem contains_tableOf (rights : List Row) (left : Row) :
    (plan.tableOf rights).contains (plan.leftKeys.key left) =
      rights.any (plan.sameKey left) :=
  Table.contains_ofRows rights (plan.leftKeys.key left)

section Bucket

variable {left right : Row} {key : Key} {position : Nat} {bucket rest : List Row}

/-- A predicate that fails ends the pairing of a left row. -/
theorem pairWith_of_error
    {fault : Fault}
    (evaluated : plan.residuals.accepts (pair left right) = .error fault) :
    plan.pairWith left key position (right :: rest) = .failed fault := by
  simp [pairWith, evaluated]

/-- A right row that the predicates reject is passed over. -/
theorem pairWith_of_rejected
    (evaluated : plan.residuals.accepts (pair left right) = .ok false) :
    plan.pairWith left key position (right :: rest) =
      plan.pairWith left key (position + 1) rest := by
  simp [pairWith, evaluated]

/-- A right row that the predicates accept is paired and hit. -/
theorem pairWith_of_accepted
    (evaluated : plan.residuals.accepts (pair left right) = .ok true) :
    plan.pairWith left key position (right :: rest) =
      ⟨pair left right :: (plan.pairWith left key (position + 1) rest).rows,
        (key, position) :: (plan.pairWith left key (position + 1) rest).hits,
        (plan.pairWith left key (position + 1) rest).fault?⟩ := by
  simp [pairWith, evaluated]

/--
A left row fails at the first right row of its bucket where a predicate fails.
-/
theorem fault?_pairWith :
    (plan.pairWith left key position bucket).fault? =
      bucket.findSome? fun right => plan.residualFault? (pair left right) := by
  induction bucket generalizing position with
  | nil =>
      rfl
  | cons right rest inductionHypothesis =>
      rw [List.findSome?_cons]
      rcases evaluated : plan.residuals.accepts (pair left right) with fault | _ | _
      · rw [pairWith_of_error evaluated]
        simp [residualFault?, evaluated, Probe.failed]
      · rw [pairWith_of_rejected evaluated, inductionHypothesis]
        simp [residualFault?, evaluated]
      · rw [pairWith_of_accepted evaluated, inductionHypothesis]
        simp [residualFault?, evaluated]

/-- Of a bucket without failing candidates the surviving ones come out, in order. -/
theorem rows_pairWith
    (noFault : (plan.pairWith left key position bucket).fault? = none) :
    (plan.pairWith left key position bucket).rows =
      (bucket.filter fun right => plan.survives (pair left right)).map
        (pair left) := by
  induction bucket generalizing position with
  | nil =>
      rfl
  | cons right rest inductionHypothesis =>
      rcases evaluated : plan.residuals.accepts (pair left right) with fault | _ | _
      · rw [pairWith_of_error evaluated] at noFault
        cases noFault
      · rw [pairWith_of_rejected evaluated] at noFault ⊢
        simpa [survives, evaluated] using inductionHypothesis noFault
      · rw [pairWith_of_accepted evaluated] at noFault ⊢
        simpa [survives, evaluated] using inductionHypothesis noFault

/--
A row stands one place further in its bucket when one more row is put in front.
-/
private theorem exists_getElem?_cons_iff
    {place : Nat}
    {property : Row → Prop} :
    (∃ index row, place = position + index ∧ (right :: rest)[index]? = some row ∧
        property row) ↔
      (place = position ∧ property right) ∨
        ∃ index row, place = position + 1 + index ∧ rest[index]? = some row ∧
          property row := by
  constructor
  · rintro ⟨index, row, atPlace, stored, holds⟩
    cases index with
    | zero =>
        have isHead : right = row := Option.some.inj stored
        exact .inl ⟨atPlace, isHead ▸ holds⟩
    | succ index =>
        exact .inr ⟨index, row, by omega, stored, holds⟩
  · rintro (⟨atPlace, holds⟩ | ⟨index, row, atPlace, stored, holds⟩)
    · exact ⟨0, right, atPlace, rfl, holds⟩
    · exact ⟨index + 1, row, by omega, stored, holds⟩

/-- A position is hit exactly when its row survives. -/
theorem mem_hits_pairWith
    (noFault : (plan.pairWith left key position bucket).fault? = none)
    {hit : Key × Nat} :
    hit ∈ (plan.pairWith left key position bucket).hits ↔
      hit.1 = key ∧
        ∃ index row, hit.2 = position + index ∧ bucket[index]? = some row ∧
          plan.survives (pair left row) = true := by
  induction bucket generalizing position with
  | nil =>
      simp [pairWith, Probe.empty]
  | cons right rest inductionHypothesis =>
      rw [exists_getElem?_cons_iff]
      rcases evaluated : plan.residuals.accepts (pair left right) with fault | _ | _
      · rw [pairWith_of_error evaluated] at noFault
        cases noFault
      · rw [pairWith_of_rejected evaluated] at noFault ⊢
        simpa [survives, evaluated] using inductionHypothesis noFault
      · rw [pairWith_of_accepted evaluated] at noFault ⊢
        have headSurvives : plan.survives (pair left right) = true := by
          simp [survives, evaluated]
        rw [List.mem_cons, inductionHypothesis noFault]
        constructor
        · rintro (rfl | ⟨sameKey, found⟩)
          · exact ⟨rfl, .inl ⟨rfl, headSurvives⟩⟩
          · exact ⟨sameKey, .inr found⟩
        · rintro ⟨sameKey, ⟨atHead, _⟩ | found⟩
          · exact .inl (Prod.ext sameKey atHead)
          · exact .inr ⟨sameKey, found⟩

/-- Every position that is hit puts out a row. -/
theorem length_hits_pairWith :
    (plan.pairWith left key position bucket).hits.length =
      (plan.pairWith left key position bucket).rows.length := by
  induction bucket generalizing position with
  | nil =>
      rfl
  | cons right rest inductionHypothesis =>
      rcases evaluated : plan.residuals.accepts (pair left right) with fault | _ | _
      · rw [pairWith_of_error evaluated]
        rfl
      · rw [pairWith_of_rejected evaluated]
        exact inductionHypothesis
      · rw [pairWith_of_accepted evaluated]
        exact congrArg Nat.succ inductionHypothesis

end Bucket

section LeftRow

variable {rights : List Row} {left : Row}

/-- Padding hides no failure. -/
theorem fault?_padUnpaired (paired : Probe) :
    (plan.padUnpaired left paired).fault? = paired.fault? := by
  unfold padUnpaired
  split
  · rfl
  · split
    · simp_all [Probe.ofRows]
    · rfl

/-- Padding hits nothing. -/
theorem hits_padUnpaired_pairWith
    {key : Key}
    {position : Nat}
    {bucket : List Row} :
    (plan.padUnpaired left (plan.pairWith left key position bucket)).hits =
      (plan.pairWith left key position bucket).hits := by
  unfold padUnpaired
  split
  · rfl
  · split
    · rename_i _ _ padded
      have noRows : (plan.pairWith left key position bucket).rows = [] := by
        simp_all
      have noHits : (plan.pairWith left key position bucket).hits = [] := by
        rw [← List.length_eq_zero_iff, length_hits_pairWith, noRows]
        rfl
      rw [noHits]
      rfl
    · rfl

/-- The bucket of a left row's key, walked from its first position. -/
theorem probeRow_of_pairing
    (pairing : plan.kind.presence? = none) :
    plan.probeRow (plan.tableOf rights) left =
      plan.padUnpaired left
        (plan.pairWith left (plan.leftKeys.key left) 0
          (rights.filter (plan.sameKey left))) := by
  simp only [probeRow, pairing, bucket_tableOf]

/-- Probing a left row meets the failure that the nested loop meets. -/
theorem fault?_probeRow :
    (plan.probeRow (plan.tableOf rights) left).fault? =
      plan.rowFault? rights left := by
  cases presence : plan.kind.presence? with
  | some keptWhenPresent =>
      cases kind : plan.kind <;>
        simp_all [probeRow, rowFault?, JoinKind.presence?, Probe.ofRows]
  | none =>
      rw [probeRow_of_pairing presence, fault?_padUnpaired, fault?_pairWith]
      cases kind : plan.kind <;>
        simp_all [rowFault?, JoinKind.presence?]

/-- Probing one left row gives what the nested loop gives. -/
theorem rows_probeRow
    (noFault : plan.rowFault? rights left = none) :
    (plan.probeRow (plan.tableOf rights) left).rows =
      plan.nestedRow rights left := by
  cases presence : plan.kind.presence? with
  | some keptWhenPresent =>
      simp only [probeRow, nestedRow, presence, contains_tableOf]
      generalize rights.any (plan.sameKey left) = present
      cases kind : plan.kind <;> cases present <;>
        simp_all [JoinKind.presence?, Probe.ofRows]
  | none =>
      rw [← fault?_probeRow, probeRow_of_pairing presence,
        fault?_padUnpaired] at noFault
      have pairsFound :
          (plan.pairWith left (plan.leftKeys.key left) 0
              (rights.filter (plan.sameKey left))).rows =
            plan.pairsOf rights left := by
        rw [rows_pairWith noFault, pairsOf, List.filter_filter]
        congr 1
        apply List.filter_congr
        intro right _
        exact Bool.and_comm ..
      rw [probeRow_of_pairing presence, padUnpaired, noFault]
      simp only [pairsFound]
      cases kind : plan.kind <;>
        simp_all [nestedRow, JoinKind.presence?, JoinKind.padsLeft]
      all_goals split <;> simp_all [Probe.ofRows]

/-- A position of the table is hit exactly when its row pairs with the left row. -/
theorem mem_hits_probeRow
    (pairing : plan.kind.presence? = none)
    (noFault : plan.rowFault? rights left = none)
    {key : Key}
    {position : Nat} :
    (key, position) ∈ (plan.probeRow (plan.tableOf rights) left).hits ↔
      ∃ right, ((plan.tableOf rights).bucket key)[position]? = some right ∧
        plan.pairs left right = true := by
  rw [← fault?_probeRow, probeRow_of_pairing pairing, fault?_padUnpaired] at noFault
  rw [probeRow_of_pairing pairing, hits_padUnpaired_pairWith,
    mem_hits_pairWith noFault]
  constructor
  · rintro ⟨rfl, index, right, rfl, stored, survives⟩
    have inBucket := List.mem_of_getElem? stored
    refine ⟨right, ?_, ?_⟩
    · rw [bucket_tableOf, Nat.zero_add]
      exact stored
    · simp [pairs, (List.mem_filter.mp inBucket).2, survives]
  · rintro ⟨right, stored, isPair⟩
    have agrees : plan.rightKeys.key right = key := by
      have inBucket := List.mem_of_getElem? stored
      rw [tableOf, Table.bucket_ofRows] at inBucket
      simpa using (List.mem_filter.mp inBucket).2
    simp only [pairs, sameKey, Bool.and_eq_true, decide_eq_true_eq] at isPair
    obtain ⟨sameKeys, survives⟩ := isPair
    have keyOfLeft : key = plan.leftKeys.key left := agrees.symm.trans sameKeys
    subst keyOfLeft
    rw [bucket_tableOf] at stored
    exact ⟨rfl, position, right, (Nat.zero_add _).symm, stored, survives⟩

end LeftRow

section LeftRows

variable {rights : List Row}

/-- Of two probes the failure of the first one counts. -/
theorem fault?_append (first later : Probe) :
    (first.append later).fault? = first.fault?.or later.fault? := by
  unfold Probe.append
  cases found : first.fault? <;> simp [found]

/-- Behind a probe without a failure, rows and hits come one after the other. -/
theorem append_of_noFault
    {first : Probe}
    (later : Probe)
    (noFault : first.fault? = none) :
    first.append later =
      ⟨first.rows ++ later.rows, first.hits ++ later.hits, later.fault?⟩ := by
  simp [Probe.append, noFault]

/-- Of some left rows the first one that fails counts. -/
theorem pairFault?_cons (left : Row) (rest : List Row) :
    plan.pairFault? rights (left :: rest) =
      (plan.rowFault? rights left).or (plan.pairFault? rights rest) := by
  rw [pairFault?, List.findSome?_cons]
  cases plan.rowFault? rights left <;> rfl

/-- Probing left rows meets the failure that the nested loop meets. -/
theorem fault?_probeRows (lefts : List Row) :
    (plan.probeRows (plan.tableOf rights) lefts).fault? =
      plan.pairFault? rights lefts := by
  induction lefts with
  | nil =>
      rfl
  | cons left rest inductionHypothesis =>
      rw [probeRows, fault?_append, fault?_probeRow, inductionHypothesis,
        pairFault?_cons]

/-- Left rows do not fail exactly if neither the first nor the others do. -/
theorem pairFault?_cons_eq_none
    {left : Row}
    {rest : List Row} :
    plan.pairFault? rights (left :: rest) = none ↔
      plan.rowFault? rights left = none ∧ plan.pairFault? rights rest = none := by
  rw [pairFault?_cons, Option.or_eq_none_iff]

/-- Probing left rows in order gives what the nested loop gives. -/
theorem rows_probeRows
    {lefts : List Row}
    (noFault : plan.pairFault? rights lefts = none) :
    (plan.probeRows (plan.tableOf rights) lefts).rows =
      plan.nestedRows rights lefts := by
  induction lefts with
  | nil =>
      rfl
  | cons left rest inductionHypothesis =>
      obtain ⟨headSound, restSound⟩ := pairFault?_cons_eq_none.mp noFault
      have headProbe := fault?_probeRow.trans headSound
      rw [probeRows, append_of_noFault _ headProbe]
      simp only [rows_probeRow headSound, inductionHypothesis restSound, nestedRows,
        List.flatMap_cons]

/-- The hits of several left rows are the hits of each of them. -/
theorem mem_hits_probeRows
    {lefts : List Row}
    (noFault : plan.pairFault? rights lefts = none)
    {hit : Key × Nat} :
    hit ∈ (plan.probeRows (plan.tableOf rights) lefts).hits ↔
      ∃ left ∈ lefts, hit ∈ (plan.probeRow (plan.tableOf rights) left).hits := by
  induction lefts with
  | nil =>
      simp [probeRows, Probe.empty]
  | cons left rest inductionHypothesis =>
      obtain ⟨headSound, restSound⟩ := pairFault?_cons_eq_none.mp noFault
      have headProbe := fault?_probeRow.trans headSound
      rw [probeRows, append_of_noFault _ headProbe]
      rw [List.mem_append, inductionHypothesis restSound]
      simp only [List.mem_cons, or_and_right, exists_or, exists_eq_left]

/-- Left rows may be probed in several parts. -/
theorem hits_probeRows_append
    {first later : List Row}
    (noFault : plan.pairFault? rights first = none) :
    (plan.probeRows (plan.tableOf rights) (first ++ later)).hits =
      (plan.probeRows (plan.tableOf rights) first).hits ++
        (plan.probeRows (plan.tableOf rights) later).hits := by
  induction first with
  | nil =>
      simp [probeRows, Probe.empty]
  | cons left rest inductionHypothesis =>
      obtain ⟨headSound, restSound⟩ := pairFault?_cons_eq_none.mp noFault
      have headProbe := fault?_probeRow.trans headSound
      rw [List.cons_append, probeRows, probeRows, append_of_noFault _ headProbe,
        append_of_noFault _ headProbe]
      simp only [inductionHypothesis restSound, List.append_assoc]

end LeftRows

/-- After marking, a position is marked if it was hit or was marked before. -/
theorem contains_marked_markAll
    (marks : Marks)
    (hits : List (Key × Nat))
    (key : Key)
    (position : Nat) :
    ((marks.markAll hits).marked key).contains position = true ↔
      (key, position) ∈ hits ∨ (marks.marked key).contains position = true := by
  induction hits generalizing marks with
  | nil =>
      simp [Marks.markAll]
  | cons hit rest inductionHypothesis =>
      have oneByOne :
          marks.markAll (hit :: rest) = (marks.mark hit.1 hit.2).markAll rest := rfl
      rw [oneByOne, inductionHypothesis, Marks.contains_marked_mark, List.mem_cons]
      rw [Prod.ext_iff]
      simp only [Bool.or_eq_true, Bool.and_eq_true, beq_iff_eq]
      constructor
      · rintro (inRest | ⟨sameKey, samePosition⟩ | before)
        · exact .inl (.inr inRest)
        · exact .inl (.inl ⟨sameKey.symm, samePosition.symm⟩)
        · exact .inr before
      · rintro ((⟨sameKey, samePosition⟩ | inRest) | before)
        · exact .inr (.inl ⟨sameKey.symm, samePosition.symm⟩)
        · exact .inl inRest
        · exact .inr (.inr before)

/-- The marks left by the left rows that were probed. -/
def marksOf (plan : JoinPlan) (rights lefts : List Row) : Marks :=
  Marks.empty.markAll (plan.probeRows (plan.tableOf rights) lefts).hits

/-- The marks stand on exactly the right rows that were paired. -/
theorem record_marksOf
    {rights lefts : List Row}
    (pairing : plan.kind.presence? = none)
    (noFault : plan.pairFault? rights lefts = none) :
    (plan.marksOf rights lefts).Record (plan.tableOf rights) fun right =>
      lefts.any fun left => plan.pairs left right := by
  intro key position
  rw [marksOf, contains_marked_markAll, mem_hits_probeRows noFault]
  have noneBefore := Marks.contains_marked_empty key position
  have soundRow : ∀ left ∈ lefts, plan.rowFault? rights left = none := by
    rw [pairFault?, List.findSome?_eq_none_iff] at noFault
    exact noFault
  simp only [noneBefore, Bool.false_eq_true, or_false, List.any_eq_true]
  constructor
  · rintro ⟨left, member, isHit⟩
    obtain ⟨right, stored, isPair⟩ :=
      (mem_hits_probeRow pairing (soundRow left member)).mp isHit
    exact ⟨right, stored, left, member, isPair⟩
  · rintro ⟨right, stored, left, member, isPair⟩
    exact ⟨left, member,
      (mem_hits_probeRow pairing (soundRow left member)).mpr
        ⟨right, stored, isPair⟩⟩

/-- The sweep of the table hands out the unpaired right rows. -/
theorem unmarked_tableOf_perm
    {rights lefts : List Row}
    (order : BucketOrder)
    (pairing : plan.kind.presence? = none)
    (noFault : plan.pairFault? rights lefts = none) :
    ((plan.tableOf rights).unmarked order (plan.marksOf rights lefts)).Perm
      (plan.unpairedRights lefts rights) :=
  Table.unmarked_ofRows_perm order (record_marksOf pairing noFault)

end JoinPlan

end StreamJoin
