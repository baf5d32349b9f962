import LockFit.Text.Blank

/-
  Import paths: texts with slashes between their segments.
  One path covers another when it is the other or the other goes on from it with a slash. Slashes
  at the ends and doubled ones carry no meaning where paths are compared by segments.
-/

namespace LockFit.ImportPath

open Text

/-- A path whose first segment has no dot belongs to the standard library; hosted paths start with
    a domain. -/
def isStandard (path : Text) : Bool := !(path.toList.takeWhile (· != Code.scalar '/')).contains '.'

/-- The path without the slashes at its end. -/
def dropSlashes (path : Text) : Text := dropEnd '/' path

/-- The root, with slashes at its end or not, is the path or ends at one of its slashes. -/
def covers (root path : Text) : Bool :=
  let root := dropSlashes root
  path = root || startsWith (root ++ "/") path

/-- The segments between the slashes, without the empty ones. -/
def segments (path : Text) : List Text :=
  (split '/' path).filter fun segment => segment ≠ ""

example : segments "/a//b/" = (["a", "b"] : List Text) := by decide +kernel

end LockFit.ImportPath
