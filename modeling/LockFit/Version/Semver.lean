import LockFit.Text.Digit

/-
  The written form of a semantic version: an optional `v`, three numbers with dots between them,
  an optional pre-release tag after a hyphen and optional build metadata after a plus sign.
  A number is a lone `0` or starts with a digit `1` to `9` and goes on with decimal digits of any
  script. `read?` takes a text apart; each step of it has one way to go on, so a text has one
  reading at most.
-/

namespace LockFit

/-- The numbers of a release, in the order in which they count. -/
structure ReleaseNumber where
  major : Nat
  minor : Nat
  patch : Nat
  deriving DecidableEq

namespace ReleaseNumber

/-- Earlier in the order that compares major numbers first and patch numbers last. -/
def before (a b : ReleaseNumber) : Bool :=
  a.major < b.major || (a.major = b.major &&
    (a.minor < b.minor || (a.minor = b.minor && a.patch < b.patch)))

def atMost (a b : ReleaseNumber) : Bool := !b.before a

end ReleaseNumber

/-- What makes two tags the same release: the numbers and the pre-release tag. -/
structure ReleaseIdentity where
  number : ReleaseNumber
  preRelease : Text
  deriving DecidableEq

namespace Semver

open Text

/-- A character of a pre-release tag or of build metadata. -/
def isTagChar (c : Code) : Bool :=
  isAsciiLetter c || isAsciiDigit c || c = '-' || c = '.'

/-- The text without one leading `v`. -/
def dropMark : List Code → List Code
  | .scalar 'v' :: cs => cs
  | cs => cs

/-- A number at the start of a text, and what follows it. -/
def takeNumber : List Code → Option (List Code × List Code)
  | [] => none
  | c :: cs =>
    if c = '0' then some (['0'], cs)
    else if isAsciiNonzero c then some (c :: cs.takeWhile isDigit, cs.dropWhile isDigit)
    else none

/-- What follows a dot. -/
def afterDot : List Code → Option (List Code)
  | .scalar '.' :: cs => some cs
  | _ => none

/-- The build metadata, if the text is nothing else; an empty text has none. -/
def takeBuild : List Code → Option (Option (List Code))
  | [] => some none
  | .scalar '+' :: cs => if !cs.isEmpty && cs.all isTagChar then some (some cs) else none
  | _ => none

/-- The pre-release tag and the build metadata, if the text is nothing else. -/
def takeTags : List Code → Option (Option (List Code) × Option (List Code))
  | .scalar '-' :: cs =>
    let tag := cs.takeWhile isTagChar
    if tag.isEmpty then none
    else (takeBuild (cs.dropWhile isTagChar)).map fun build => (some tag, build)
  | cs => (takeBuild cs).map fun build => (none, build)

/-- A semantic version taken apart, its numbers still written. -/
structure Reading where
  major : List Code
  minor : List Code
  patch : List Code
  preRelease : Option (List Code)
  build : Option (List Code)
  deriving DecidableEq

/-- The parts of a text that is a semantic version and nothing else. -/
def readChars (cs : List Code) : Option Reading := do
  let (major, cs) ← takeNumber (dropMark cs)
  let (minor, cs) ← takeNumber (← afterDot cs)
  let (patch, cs) ← takeNumber (← afterDot cs)
  let (preRelease, build) ← takeTags cs
  return ⟨major, minor, patch, preRelease, build⟩

/-- The parts of a semantic version with or without blanks around it. -/
def read? (text : Text) : Option Reading := readChars (trimChars text.toList)

def accepts (text : Text) : Bool := (read? text).isSome

/-- The numbers as such; the first one that is too long is the one that fails. -/
def Reading.number (r : Reading) : Except NumeralTooLong ReleaseNumber := do
  let major ← readNumeral r.major
  let minor ← readNumeral r.minor
  let patch ← readNumeral r.patch
  return ⟨major, minor, patch⟩

def Reading.identity (r : Reading) : Except NumeralTooLong ReleaseIdentity := do
  let number ← r.number
  return ⟨number, Text.ofList (r.preRelease.getD [])⟩

example : readChars ['v', '1', '.', '0', '.', '2', '-', 'a', '+', 'b'] =
    some ⟨['1'], ['0'], ['2'], some ['a'], some ['b']⟩ := by decide +kernel

end Semver

end LockFit
