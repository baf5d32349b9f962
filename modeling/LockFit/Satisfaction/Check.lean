import LockFit.Lock.Basic
import LockFit.Manifest.Basic
import LockFit.TextMap

/-
  Holding the rules of a manifest against the versions of a lock.
  An override on a locked root is the only rule that counts there. Without one a constraint on the
  root counts if it is effectual. A locked version that its rule does not allow is a mismatch.
-/

namespace LockFit

/-- A locked version and the rule that does not allow it. -/
structure Mismatch where
  rule : Constraint
  version : Version
  deriving DecidableEq

/-- What the rules say of one locked project. -/
inductive Verdict where
  | fits
  | breaksOverride (mismatch : Mismatch)
  | breaksConstraint (mismatch : Mismatch)
  deriving DecidableEq

namespace Verdict

def override? : Verdict → Option Mismatch
  | breaksOverride m => some m
  | _ => none

def constraint? : Verdict → Option Mismatch
  | breaksConstraint m => some m
  | _ => none

theorem override?_eq_some {v : Verdict} {m : Mismatch} :
    v.override? = some m ↔ v = .breaksOverride m := by
  cases v <;> simp [override?]

theorem constraint?_eq_some {v : Verdict} {m : Mismatch} :
    v.constraint? = some m ↔ v = .breaksConstraint m := by
  cases v <;> simp [constraint?]

end Verdict

/-- The rule against the version: no mismatch if the rule allows it. -/
def Constraint.against (rule : Constraint) (version : Version) (broken : Mismatch → Verdict) :
    Except Text.NumeralTooLong Verdict := do
  let allowed ← rule.allows version
  return if allowed then .fits else broken ⟨rule, version⟩

/-- The verdict on a locked project, given the roots whose constraints are effectual. -/
def Manifest.verdict (m : Manifest) (effectual : TextSet) (p : LockedProject) :
    Except Text.NumeralTooLong Verdict :=
  match m.overrides.get? p.root with
  | some rule => rule.against p.version .breaksOverride
  | none => match m.constraints.get? p.root with
    | some rule =>
      if effectual.contains p.root then rule.against p.version .breaksConstraint else .ok .fits
    | none => .ok .fits

/-- The mismatches of a lock by their roots. -/
structure Mismatches where
  overrides : TextMap Mismatch
  constraints : TextMap Mismatch
  deriving DecidableEq

namespace Mismatches

def empty : Mismatches := ⟨.empty, .empty⟩

/-- The mismatches among verdicts on roots. -/
def ofVerdicts (verdicts : List (Text × Verdict)) : Mismatches :=
  ⟨.ofList (verdicts.filterMap fun (root, v) => v.override?.map fun m => (root, m)),
    .ofList (verdicts.filterMap fun (root, v) => v.constraint?.map fun m => (root, m))⟩

/-- The mismatches of a lock with the rules of a manifest; without a manifest there are none. -/
def ofLock (lock : Lock) (manifest : Option Manifest) (effectual : TextSet) :
    Except Text.NumeralTooLong Mismatches :=
  match manifest with
  | none => .ok empty
  | some m => do
    let verdicts ← lock.projects.mapM fun p => (m.verdict effectual p).map fun v => (p.root, v)
    return ofVerdicts verdicts

end Mismatches

end LockFit
