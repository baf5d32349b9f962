import LockFit.Constraint.Comparator
import LockFit.Text.Quoted

/-
  Ranges of releases: comparisons with commas between them, all of which have to hold.
  A range keeps its text as written beside the comparisons that the text stands for. The text `*`
  stands for no comparison, so every release is in it; any other text has one comparison at least.
-/

namespace LockFit

open Text

/-- Why a text is no rule. A numeral that is too long is a failure of its own kind: the text is
    well formed, but its numbers are not read. -/
inductive ConstraintError where
  | emptyRange (raw : Text)
  | malformed (comparison : Text)
  | emptyBranch (text : Text)
  | emptyRevision (text : Text)
  | numeral (cause : NumeralTooLong)
  deriving DecidableEq

def ConstraintError.message : ConstraintError → Text
  | .emptyRange raw => "Empty range constraint: " ++ quoted raw
  | .malformed comparison => "Invalid constraint atom: " ++ quoted comparison
  | .emptyBranch text => "Empty branch name in constraint " ++ quoted text
  | .emptyRevision text => "Empty revision in constraint " ++ quoted text
  | .numeral cause => cause.message

namespace Range

/-- The pieces between the commas, trimmed, without the blank ones. -/
def pieces (raw : Text) : List (List Code) :=
  ((splitChars ',' raw.toList).map trimChars).filter fun piece => !piece.isEmpty

/-- The comparison that a piece stands for. -/
def readPiece (piece : List Code) : Except ConstraintError Comparator :=
  match Comparator.readChars piece with
  | none => .error (.malformed (Text.ofList piece))
  | some r => match r.comparator with
    | .ok c => .ok c
    | .error e => .error (.numeral e)

/-- The comparisons of a range; the first piece that is none is the one that fails. -/
def readComparators (raw : Text) : Except ConstraintError (List Comparator) :=
  if trimChars raw.toList = [Code.scalar '*'] then .ok []
  else if pieces raw = [] then .error (.emptyRange raw)
  else (pieces raw).mapM readPiece

end Range

/-- A range of releases, as written and as read. -/
structure Range where
  raw : Text
  comparators : List Comparator
  reads : Range.readComparators raw = .ok comparators
  deriving DecidableEq

namespace Range

def ofText (raw : Text) : Except ConstraintError Range :=
  match h : readComparators raw with
  | .ok cs => .ok ⟨raw, cs, h⟩
  | .error e => .error e

/-- The release passes every comparison. -/
def allows (r : Range) (n : ReleaseNumber) : Bool := r.comparators.all fun c => c.allows n

/-- Two ranges with the same text are the same range. -/
theorem eq_of_raw {r s : Range} (h : r.raw = s.raw) : r = s := by
  obtain ⟨raw, cs, hr⟩ := r
  obtain ⟨raw', ds, hs⟩ := s
  subst h
  have e : cs = ds := Except.ok.inj (hr.symm.trans hs)
  subst e
  rfl

end Range

end LockFit
