import LockFit.Manifest.Basic
import LockFit.Satisfaction.PrefixIndex

/-
  Constraints that anything reaches.
  A constraint is effectual when some required import has the root of the constraint as its
  longest declared root. A constraint that is not effectual is not held against a lock.
-/

namespace LockFit

/-- The roots of the constraints that some import falls under. -/
def Rules.effectual (constraints : Rules) (imports : List Text) : TextSet :=
  let index := PrefixIndex.ofList constraints.roots
  .ofList (imports.filterMap index.longestPrefix)

/-- The effectual roots of a manifest; without a manifest there are none. -/
def Manifest.effectual (manifest : Option Manifest) (imports : List Text) : TextSet :=
  match manifest with
  | none => .empty
  | some m => m.constraints.effectual imports

end LockFit
