import LockFit.Version.Semver

/-
  One comparison of a range, such as `>=1.2`, `^0.3` or `~2`.
  A comparison is an operator and a release number of which the minor and the patch number may be
  left out; what is left out counts as zero. Tags after the number are read and play no part.
-/

namespace LockFit

/-- How a release is compared with the target of a comparison. -/
inductive Operator where
  | equal
  | unequal
  | atLeast
  | atMost
  | above
  | below
  | caret
  | tilde
  deriving DecidableEq

/-- A comparison with its numbers read; `minorGiven` tells `~1.0` from `~1`. -/
structure Comparator where
  op : Operator
  target : ReleaseNumber
  minorGiven : Bool
  deriving DecidableEq

namespace Comparator

open Text Semver

/-- The operator at the start of a text, the longer spelling first, and what follows it. -/
def takeOperator : List Code → Option (Operator × List Code)
  | .scalar '=' :: .scalar '=' :: cs => some (.equal, cs)
  | .scalar '!' :: .scalar '=' :: cs => some (.unequal, cs)
  | .scalar '>' :: .scalar '=' :: cs => some (.atLeast, cs)
  | .scalar '<' :: .scalar '=' :: cs => some (.atMost, cs)
  | .scalar '>' :: cs => some (.above, cs)
  | .scalar '<' :: cs => some (.below, cs)
  | .scalar '^' :: cs => some (.caret, cs)
  | .scalar '~' :: cs => some (.tilde, cs)
  | _ => none

/-- A further number after a dot; a text that does not go on with a dot has none. -/
def takeFurther : List Code → Option (Option (List Code) × List Code)
  | .scalar '.' :: cs => (takeNumber cs).map fun (number, rest) => (some number, rest)
  | cs => some (none, cs)

/-- A comparison taken apart, its numbers still written. -/
structure Reading where
  op : Operator
  major : List Code
  minor : Option (List Code)
  patch : Option (List Code)
  preRelease : Option (List Code)
  build : Option (List Code)
  deriving DecidableEq

/-- The parts of a text that is a comparison and nothing else. -/
def readChars (cs : List Code) : Option Reading := do
  let (op, cs) ← takeOperator cs
  let (major, cs) ← takeNumber (dropMark (cs.dropWhile isBlank))
  let (minor, cs) ← takeFurther cs
  let (patch, cs) ← if minor.isSome then takeFurther cs else some (none, cs)
  let (preRelease, build) ← takeTags cs
  return ⟨op, major, minor, patch, preRelease, build⟩

/-- The comparison that the parts stand for, with zeros for what was left out. -/
def Reading.comparator (r : Reading) : Except NumeralTooLong Comparator := do
  let major ← readNumeral r.major
  let minor ← readNumeral (r.minor.getD ['0'])
  let patch ← readNumeral (r.patch.getD ['0'])
  return ⟨r.op, ⟨major, minor, patch⟩, r.minor.isSome⟩

/-- The release passes the comparison. -/
def allows (c : Comparator) (n : ReleaseNumber) : Bool :=
  match c.op with
  | .equal => n = c.target
  | .unequal => n ≠ c.target
  | .atLeast => c.target.atMost n
  | .atMost => n.atMost c.target
  | .above => c.target.before n
  | .below => n.before c.target
  | .caret =>
    n.major = c.target.major && c.target.atMost n &&
      (!(c.target.major = 0 && c.minorGiven) || n.minor = c.target.minor)
  | .tilde =>
    n.major = c.target.major &&
      (!c.minorGiven || (n.minor = c.target.minor && c.target.atMost n))

end Comparator

end LockFit
