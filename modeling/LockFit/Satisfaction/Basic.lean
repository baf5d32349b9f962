import LockFit.Json.Value
import LockFit.Package.Reach
import LockFit.Satisfaction.Check
import LockFit.Satisfaction.Effectual
import LockFit.Satisfaction.ImportDiff

/-
  Whether a lock still fits its project.
  The required imports are those that the packages reach and those that the manifest asks for. A
  lock fits when it was made for exactly these and no version in it breaks a rule that counts. The
  result keeps the four sorts of disagreement apart; without a lock there is nothing to compare.
-/

namespace LockFit

/-- The result of a check. -/
structure Satisfaction where
  noLock : Bool
  missing : TextSet
  excess : TextSet
  overrides : TextMap Mismatch
  constraints : TextMap Mismatch
  deriving DecidableEq

namespace Satisfaction

/-- The result where there is no lock. -/
def withoutLock : Satisfaction := ⟨true, .empty, .empty, .empty, .empty⟩

/-- There is a lock and nothing disagrees with it. -/
def passed (s : Satisfaction) : Bool :=
  !s.noLock && s.missing.isEmpty && s.excess.isEmpty && s.overrides.isEmpty &&
    s.constraints.isEmpty

def mismatchesToJson (m : TextMap Mismatch) : Json :=
  .object (m.entries.map fun (root, mismatch) =>
    (root, .object [("constraint", .text mismatch.rule.text),
      ("version", .text mismatch.version.text),
      ("version_type", .text mismatch.version.kind.text)]))

def textsToJson (s : TextSet) : Json := .list (s.toList.map .text)

/-- The summary of a result. -/
def toJson (s : Satisfaction) : Json :=
  .object [("passed", .bool s.passed), ("no_lock", .bool s.noLock),
    ("missing_imports", textsToJson s.missing), ("excess_imports", textsToJson s.excess),
    ("unmatched_overrides", mismatchesToJson s.overrides),
    ("unmatched_constraints", mismatchesToJson s.constraints)]

end Satisfaction

namespace Manifest

/-- What the packages are asked: commands and tests count, ignored paths do not. -/
def reachQuery (manifest : Option Manifest) : ReachQuery := ⟨true, true, manifest.map ignored⟩

/-- The required imports, given those that the packages reach. -/
def requiredImports (manifest : Option Manifest) (reached : List Text) : TextSet :=
  (TextSet.ofList reached).union ((manifest.map required).getD .empty)

end Manifest

/-- The check of a lock against a manifest and what the packages answer to the query. -/
def Lock.satisfies (lock : Option Lock) (manifest : Option Manifest)
    (reach : ReachQuery → List Text) : Noted Text.NumeralTooLong Satisfaction :=
  match lock with
  | none => do
    Noted.note .noLock
    return .withoutLock
  | some lock => do
    let required := Manifest.requiredImports manifest (reach (Manifest.reachQuery manifest))
    let diff := ImportDiff.between required (.ofList lock.inputImports)
    let effectual := Manifest.effectual manifest required.toList
    let mismatches ← Noted.lift (Mismatches.ofLock lock manifest effectual)
    Noted.note (.checked lock.projects.length required.size diff.missing.size diff.excess.size
      effectual.size)
    return ⟨false, diff.missing, diff.excess, mismatches.overrides, mismatches.constraints⟩

/-- The check against a package tree, with the notices of the tree. -/
def Lock.satisfiesTree (lock : Option Lock) (manifest : Option Manifest) (tree : PackageTree) :
    Noted Text.NumeralTooLong Satisfaction := do
  if lock.isSome then
    (tree.reachNotices (Manifest.reachQuery manifest)).forM Noted.note
  Lock.satisfies lock manifest fun q => (tree.flattenReach q).toList

end LockFit
