import LockFit.Text.Blank
import LockFit.Text.Sort
import LockFit.TextSet

/-
  Rules that exclude import paths.
  A pattern that ends in a star excludes every path that starts with what stands before the star,
  segment or not; any other pattern excludes the path that it is. Of the literals those that a
  starred pattern already excludes are dropped when patterns are read.
-/

namespace LockFit

open Text

/-- Literal paths, and the starts of paths, that are excluded. -/
structure IgnoreRules where
  literals : TextSet
  starts : List Text
  deriving DecidableEq

namespace IgnoreRules

def empty : IgnoreRules := ⟨.empty, []⟩

instance : Inhabited IgnoreRules := ⟨empty⟩

/-- What stands before the star at the end of a pattern. -/
def beforeStar? (pattern : Text) : Option Text :=
  match pattern.toList.reverse with
  | .scalar '*' :: cs => some (Text.ofList cs.reverse)
  | _ => none

/-- The rules that patterns write; blanks around a pattern do not count, nor do blank patterns. -/
def ofPatterns (patterns : List Text) : IgnoreRules :=
  let written := (patterns.map trim).filter (· ≠ ("" : Text))
  let starts := TextSet.ofList (written.filterMap beforeStar?)
  let literals := TextSet.ofList (written.filter fun p => (beforeStar? p).isNone)
  ⟨literals.filter fun l => !starts.toList.any fun s => startsWith s l, starts.toList⟩

/-- The path is excluded. -/
def ignores (rules : IgnoreRules) (path : Text) : Bool :=
  rules.literals.contains path || rules.starts.any fun s => startsWith s path

/-- The rules as patterns: the literals in order, then the starts with their stars in order. -/
def patterns (rules : IgnoreRules) : List Text :=
  rules.literals.toList ++ sort (rules.starts.map (· ++ "*"))

def size (rules : IgnoreRules) : Nat := rules.literals.size + rules.starts.length

end IgnoreRules

end LockFit
