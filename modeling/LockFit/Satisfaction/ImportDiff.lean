import LockFit.TextMap
import LockFit.TextSet

/-
  How the imports that are required differ from those that a lock was made for.
  An import that is required and was not recorded is missing from the lock; one that was recorded
  and is no longer required is in addition to what the lock is needed for.
-/

namespace LockFit

inductive ImportStatus where
  | missing
  | excess
  deriving DecidableEq

def ImportStatus.text : ImportStatus → Text
  | .missing => "missing"
  | .excess => "excess"

structure ImportDiff where
  missing : TextSet
  excess : TextSet
  deriving DecidableEq

namespace ImportDiff

def between (required recorded : TextSet) : ImportDiff :=
  ⟨required.diff recorded, recorded.diff required⟩

/-- Every import that is in one of the two sets alone, with the set that lacks it. -/
def toMap (d : ImportDiff) : TextMap ImportStatus :=
  .ofList (d.missing.toList.map (·, .missing) ++ d.excess.toList.map (·, .excess))

end ImportDiff

end LockFit
