import StreamJoin.Residual.Basic

namespace StreamJoin

/-!
# The conjunction of residual predicates

Residual predicates are tried in order, and the first one that is not true decides:
with its failure, or with the failure of a value that has no truth, or by rejecting
the row.  What stands behind it does not matter.

So a failure depends on the order of the predicates, but survival does not: a row
survives exactly if each predicate is true of it, however the predicates are
arranged or repeated.
-/

namespace Predicate

/-- A predicate fails on a row, or its value has no truth. -/
inductive FailsWith (predicate : Predicate) (row : Row) (fault : Fault) : Prop where
  | evaluation (fails : predicate row = .error fault)
  | coercion
      {value : Value}
      (evaluates : predicate row = .ok value)
      (noTruth : value.truth = .error fault)

/-- A predicate has a value on a row, with a given truth. -/
inductive Decides (predicate : Predicate) (row : Row) (truth : Bool) : Prop where
  | value
      {value : Value}
      (evaluates : predicate row = .ok value)
      (hasTruth : value.truth = .ok truth)

/-- What a predicate says of a row on its own. -/
def verdict (predicate : Predicate) (row : Row) : Except Fault Bool :=
  match predicate row with
  | .error fault => .error fault
  | .ok value => value.truth

variable {predicate : Predicate} {row : Row}

/-- The verdict is a fault exactly if the predicate fails with it. -/
theorem verdict_eq_error_iff {fault : Fault} :
    predicate.verdict row = .error fault ↔ predicate.FailsWith row fault := by
  unfold verdict
  constructor
  · intro failing
    split at failing
    · next fails =>
        cases failing
        exact .evaluation fails
    · next evaluates => exact .coercion evaluates failing
  · rintro (fails | ⟨evaluates, noTruth⟩)
    · rw [fails]
    · rw [evaluates]
      exact noTruth

/-- The verdict is a truth value exactly if the predicate decides so. -/
theorem verdict_eq_ok_iff {truth : Bool} :
    predicate.verdict row = .ok truth ↔ predicate.Decides row truth := by
  unfold verdict
  constructor
  · intro deciding
    split at deciding
    · cases deciding
    · next evaluates => exact ⟨evaluates, deciding⟩
  · rintro ⟨evaluates, hasTruth⟩
    rw [evaluates]
    exact hasTruth

end Predicate

namespace Residuals

/--
One of the predicates has a property and all before it are true of a row, so that it
is the last one to be tried if it is not true itself.
-/
def ReachedBy (residuals : Residuals) (row : Row) (property : Predicate → Prop) :
    Prop :=
  ∃ before predicate after,
    residuals.predicates = before ++ predicate :: after ∧
      (∀ earlier ∈ before, earlier.Decides row true) ∧ property predicate

/-- The same predicates, in any order and with any repetitions. -/
def SamePredicates (residuals others : Residuals) : Prop :=
  ∀ predicate, predicate ∈ others.predicates ↔ predicate ∈ residuals.predicates

section Lists

variable {row : Row} {predicate : Predicate} {predicates rest : List Predicate}

/-- A predicate that is true leaves the decision to the others. -/
theorem allHold_cons_of_true (isTrue : predicate.verdict row = .ok true) :
    allHold row (predicate :: rest) = allHold row rest := by
  obtain ⟨evaluates, hasTruth⟩ := Predicate.verdict_eq_ok_iff.mp isTrue
  simp only [allHold, evaluates, hasTruth]

/-- A predicate that is not true decides, whatever stands behind it. -/
theorem allHold_cons_of_notTrue (notTrue : predicate.verdict row ≠ .ok true) :
    allHold row (predicate :: rest) = predicate.verdict row := by
  rcases said : predicate.verdict row with fault | _ | _
  · rcases Predicate.verdict_eq_error_iff.mp said with fails | ⟨evaluates, noTruth⟩
    · simp only [allHold, fails]
    · simp only [allHold, evaluates, noTruth]
  · obtain ⟨evaluates, hasTruth⟩ := Predicate.verdict_eq_ok_iff.mp said
    simp only [allHold, evaluates, hasTruth]
  · exact absurd said notTrue

/-- All predicates hold exactly if each one is true. -/
theorem allHold_eq_true_iff :
    allHold row predicates = .ok true ↔
      ∀ predicate ∈ predicates, predicate.verdict row = .ok true := by
  induction predicates with
  | nil => exact ⟨fun _ _ member => (List.not_mem_nil member).elim, fun _ => rfl⟩
  | cons predicate rest inductionHypothesis =>
      rw [List.forall_mem_cons, ← inductionHypothesis]
      by_cases isTrue : predicate.verdict row = .ok true
      · rw [allHold_cons_of_true isTrue, and_iff_right isTrue]
      · rw [allHold_cons_of_notTrue isTrue, iff_false_intro isTrue, false_and]

/--
The conjunction is anything but true exactly if the first predicate that is not true
is.
-/
theorem allHold_eq_iff_of_notTrue
    {decision : Except Fault Bool}
    (notTrue : decision ≠ .ok true) :
    allHold row predicates = decision ↔
      ∃ before predicate after,
        predicates = before ++ predicate :: after ∧
          (∀ earlier ∈ before, earlier.verdict row = .ok true) ∧
          predicate.verdict row = decision := by
  constructor
  · intro decided
    induction predicates with
    | nil => exact absurd decided.symm notTrue
    | cons predicate rest inductionHypothesis =>
        by_cases isTrue : predicate.verdict row = .ok true
        · rw [allHold_cons_of_true isTrue] at decided
          obtain ⟨before, decisive, after, split, allTrue, said⟩ :=
            inductionHypothesis decided
          refine ⟨predicate :: before, decisive, after, congrArg _ split, ?_, said⟩
          exact List.forall_mem_cons.mpr ⟨isTrue, allTrue⟩
        · rw [allHold_cons_of_notTrue isTrue] at decided
          exact ⟨[], predicate, rest, rfl, nofun, decided⟩
  · rintro ⟨before, decisive, after, rfl, allTrue, said⟩
    induction before with
    | nil =>
        rw [List.nil_append, allHold_cons_of_notTrue (said ▸ notTrue), said]
    | cons earlier rest inductionHypothesis =>
        obtain ⟨isTrue, restTrue⟩ := List.forall_mem_cons.mp allTrue
        rw [List.cons_append, allHold_cons_of_true isTrue]
        exact inductionHypothesis restTrue

end Lists

variable {residuals others : Residuals} {row : Row}

/-- A row fails exactly if the first predicate that is not true fails. -/
theorem accepts_eq_error_iff {fault : Fault} :
    residuals.accepts row = .error fault ↔
      residuals.ReachedBy row fun predicate => predicate.FailsWith row fault := by
  have notTrue : (Except.error fault : Except Fault Bool) ≠ .ok true := nofun
  simp only [accepts, ReachedBy, allHold_eq_iff_of_notTrue notTrue,
    Predicate.verdict_eq_error_iff, Predicate.verdict_eq_ok_iff]

/-- A row is rejected exactly if the first predicate that is not true is false. -/
theorem accepts_eq_false_iff :
    residuals.accepts row = .ok false ↔
      residuals.ReachedBy row fun predicate => predicate.Decides row false := by
  have notTrue : (Except.ok false : Except Fault Bool) ≠ .ok true := nofun
  simp only [accepts, ReachedBy, allHold_eq_iff_of_notTrue notTrue,
    Predicate.verdict_eq_ok_iff]

/-- A row is accepted exactly if every predicate is true of it. -/
theorem accepts_eq_true_iff :
    residuals.accepts row = .ok true ↔
      ∀ predicate ∈ residuals.predicates, predicate.Decides row true := by
  simp only [accepts, allHold_eq_true_iff, Predicate.verdict_eq_ok_iff]

/--
What a conjunction says of a row is what its first predicate says that is not true.
-/
structure DecidesByFirst (residuals : Residuals) (row : Row) : Prop where
  fails_iff :
    ∀ fault,
      residuals.accepts row = .error fault ↔
        residuals.ReachedBy row fun predicate => predicate.FailsWith row fault
  rejects_iff :
    residuals.accepts row = .ok false ↔
      residuals.ReachedBy row fun predicate => predicate.Decides row false
  survives_iff :
    residuals.accepts row = .ok true ↔
      ∀ predicate ∈ residuals.predicates, predicate.Decides row true

/-- The first predicate that is not true decides. -/
theorem decidesByFirst (residuals : Residuals) (row : Row) :
    residuals.DecidesByFirst row where
  fails_iff _ := accepts_eq_error_iff
  rejects_iff := accepts_eq_false_iff
  survives_iff := accepts_eq_true_iff

/-- Survival does not depend on the order or on repetitions. -/
theorem accepts_true_of_samePredicates
    (same : residuals.SamePredicates others)
    (row : Row) :
    others.accepts row = .ok true ↔ residuals.accepts row = .ok true := by
  rw [accepts_eq_true_iff, accepts_eq_true_iff]
  exact forall_congr' fun predicate => imp_congr_left (same predicate)

end Residuals

end StreamJoin
