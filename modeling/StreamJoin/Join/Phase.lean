import StreamJoin.Fault

namespace StreamJoin

/-!
# Phases of a join

A join first drains its right input into the broadcast table and then streams its
left input against it.  A failure ends it for good and is remembered.
-/

/--
Where a join stands in its life.  A failed join carries its cause, so there is no
failure without a cause and no cause without a failure.
-/
inductive Phase where
  | fresh
  | building
  | probing
  | sweeping
  | done
  | failed (cause : Fault)
  deriving Repr, DecidableEq

namespace Phase

/-- The name of a phase. -/
def label : Phase → String
  | .fresh => "Init"
  | .building => "Building"
  | .probing => "Probing"
  | .sweeping => "EmittingUnmatchedRight"
  | .done => "Done"
  | .failed _ => "Error"

/-- The failure that a failed join remembers. -/
def cause? : Phase → Option Fault
  | .failed cause => some cause
  | _ => none

/-- Whether the right input is still to be drained. -/
def isBeforeProbing : Phase → Bool
  | .fresh => true
  | .building => true
  | _ => false

end Phase

end StreamJoin
