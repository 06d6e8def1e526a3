import StreamJoin.Stream.Block
import StreamJoin.Join.Plan
import StreamJoin.Join.Table

namespace StreamJoin

/-!
# Probing the broadcast table

Left rows are classified one after another against a table that does not change
meanwhile.  A probe lists the rows that come out and the positions of the table
that were paired.  It stops at the first residual predicate that fails; what was
found before the failure stands.
-/

/--
What comes of probing left rows: output rows, paired positions, and a failure.
-/
structure Probe where
  rows : List Row
  hits : List (Key × Nat)
  fault? : Option Fault
  deriving Repr, DecidableEq

namespace Probe

/-- A probe that found nothing. -/
def empty : Probe := ⟨[], [], none⟩

/-- A probe that put out some rows without pairing any. -/
def ofRows (rows : List Row) : Probe := ⟨rows, [], none⟩

/-- A probe that a predicate stopped at once. -/
def failed (fault : Fault) : Probe := ⟨[], [], some fault⟩

/-- One probe after another; nothing follows a failure. -/
def append (first later : Probe) : Probe :=
  match first.fault? with
  | some _ => first
  | none => ⟨first.rows ++ later.rows, first.hits ++ later.hits, later.fault?⟩

end Probe

namespace JoinPlan

variable (plan : JoinPlan)

/--
Pair a left row with the rows of its bucket, in order.  `position` is the place of
the first of them in the bucket.
-/
def pairWith (left : Row) (key : Key) (position : Nat) : List Row → Probe
  | [] => .empty
  | right :: rest =>
      let candidate := pair left right
      match plan.residuals.accepts candidate with
      | .error fault => .failed fault
      | .ok false => pairWith left key (position + 1) rest
      | .ok true =>
          let later := pairWith left key (position + 1) rest
          ⟨candidate :: later.rows, (key, position) :: later.hits, later.fault?⟩

/--
A left row that was paired with nothing is padded, if the kind keeps such rows.
-/
def padUnpaired (left : Row) (paired : Probe) : Probe :=
  match paired.fault? with
  | some _ => paired
  | none =>
      if paired.rows.isEmpty && plan.kind.padsLeft then
        .ofRows [plan.padRight left]
      else
        paired

/-- Classify one left row. -/
def probeRow (table : Table) (left : Row) : Probe :=
  let key := plan.leftKeys.key left
  match plan.kind.presence? with
  | some keptWhenPresent =>
      .ofRows
        (if table.contains key = keptWhenPresent then [plan.padRight left] else [])
  | none =>
      plan.padUnpaired left (plan.pairWith left key 0 (table.bucket key))

/-- Classify left rows in order. -/
def probeRows (table : Table) : List Row → Probe
  | [] => .empty
  | left :: rest => (plan.probeRow table left).append (probeRows table rest)

end JoinPlan

/-- The width of the first row that has another one than expected. -/
def firstWrongWidth? (expected : Nat) (rows : List Row) : Option Nat :=
  (rows.find? fun row => row.length ≠ expected).map List.length

/-- Refuse rows that are wider or narrower than their schema declares. -/
def checkWidths
    (side : Side)
    (expected : Nat)
    (rows : List Row) :
    Except Fault Unit :=
  match firstWrongWidth? expected rows with
  | some actual => .error (.wrongRowWidth side expected actual)
  | none => .ok ()

end StreamJoin
