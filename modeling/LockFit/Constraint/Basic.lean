import LockFit.Constraint.Range
import LockFit.Version.Basic

/-
  Rules on versions.
  A rule names one version, a range of releases, a branch, every version or none. Asking whether a
  rule allows a version reads the numbers of the version, which fails when one is too long.
-/

namespace LockFit

open Text

/-- A rule that a pinned version passes or not. -/
inductive Constraint where
  | exact (version : Version)
  | range (interval : Range)
  | branch (name : Text)
  | any
  | none
  deriving DecidableEq

namespace Constraint

/-- The text of a rule. -/
def text : Constraint → Text
  | .exact version => version.text
  | .range interval => interval.raw
  | .branch name => "branch:" ++ name
  | .any => "*"
  | .none => "!"

/-- Two tags are compared as releases, other versions by kind and text. -/
def sameVersion (wanted found : Version) : Except NumeralTooLong Bool :=
  match found.identity?, wanted.identity? with
  | some f, some w => do
    let f ← f
    let w ← w
    return f = w
  | _, _ => .ok (found = wanted)

/-- The rule allows the version. -/
def allows (c : Constraint) (v : Version) : Except NumeralTooLong Bool :=
  match c with
  | .exact wanted => sameVersion wanted v
  | .range interval => match v.number? with
    | Option.none => .ok false
    | some number => do
      let n ← number
      return interval.allows n
  | .branch name => .ok (v.kind = .branch && v.text = name)
  | .any => .ok true
  | .none => .ok false

/-- The rule that a text of a manifest stands for. -/
def ofText (text : Text) : Except ConstraintError Constraint :=
  let rule := trim text
  if rule = "" || rule = "*" then .ok .any
  else if rule = "!" then .ok .none
  else match afterStart? "branch:" rule with
    | some rest =>
      let name := trim rest
      if name = "" then .error (.emptyBranch text) else .ok (.branch name)
    | Option.none => match afterStart? "rev:" rule with
      | some rest =>
        let id := trim rest
        if id = "" then .error (.emptyRevision text) else .ok (.exact (Version.revision id))
      | Option.none =>
        if h : Semver.accepts rule = true then .ok (.exact ⟨rule, .semver, fun _ => h⟩)
        else (Range.ofText rule).map .range

end Constraint

end LockFit
