import Std.Data.HashMap
import StreamJoin.Key.Digest

namespace StreamJoin

/-!
# Grouping equal keys

Every key of a list is assigned to the first key of the list that equals it.  The
first occurrences are found through a hash table.
-/

/-- The group of every key, and how many groups there are. -/
structure KeyGroups where
  representatives : List Nat
  distinct : Nat
  deriving Repr, DecidableEq

/--
Group the keys from position `index` on, given the first positions of the keys
before it.
-/
def groupFrom
    (firstPositions : Std.HashMap Key Nat)
    (index : Nat) :
    List Key → KeyGroups
  | [] => ⟨[], firstPositions.size⟩
  | key :: rest =>
      match firstPositions[key]? with
      | some first =>
          let later := groupFrom firstPositions (index + 1) rest
          ⟨first :: later.representatives, later.distinct⟩
      | none =>
          let later := groupFrom (firstPositions.insert key index) (index + 1) rest
          ⟨index :: later.representatives, later.distinct⟩

/-- Group the keys of a list; a group is named by the position of its first key. -/
def groupKeys (keys : List Key) : KeyGroups := groupFrom ∅ 0 keys

end StreamJoin
