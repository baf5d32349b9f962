import LockFit.Ignore
import LockFit.ImportPath
import LockFit.TextMap
import LockFit.Text.Quoted

/-
  The packages of the project under analysis and what they import.
  Every package lies under the import root of the tree: its path is the root or goes on from it
  with a slash, and the tree carries the proof. A package that is added replaces one with the same
  path; one from outside the root is refused and leaves the tree as it was.
-/

namespace LockFit

/-- A package, the import paths of its code and those of its tests alone. -/
structure Package where
  path : Text
  imports : List Text
  testImports : List Text
  isMain : Bool
  deriving DecidableEq

/-- A package outside the import root of the tree. -/
structure OutsideRoot where
  path : Text
  root : Text
  deriving DecidableEq

def OutsideRoot.message (e : OutsideRoot) : Text :=
  "Package " ++ Text.quoted e.path ++ " is not under import root " ++ Text.quoted e.root

/-- The packages of a project under one import root; `isStandard` tells the import paths that need
    no project to provide them. -/
structure PackageTree where
  root : Text
  packages : TextMap Package
  isStandard : Text → Bool
  placed : ∀ path package, packages.get? path = some package →
    package.path = path ∧ ImportPath.covers root path = true

namespace PackageTree

open ImportPath

/-- The tree without packages; slashes at the end of the root do not count. -/
def ofRoot (root : Text) (isStandard : Text → Bool) : PackageTree :=
  ⟨dropSlashes root, .empty, isStandard, nofun⟩

/-- The path lies under the import root. -/
def isInternal (tree : PackageTree) (path : Text) : Bool := covers tree.root path

def add (tree : PackageTree) (package : Package) : Except OutsideRoot PackageTree :=
  if h : tree.isInternal package.path = true then
    .ok { tree with
      packages := tree.packages.insert package.path package
      placed := by
        intro path p hp
        rw [TextMap.get?_insert] at hp
        split at hp
        · rename_i hpath
          subst hpath
          rw [← Option.some.inj hp]
          exact ⟨rfl, h⟩
        · exact tree.placed path p hp }
  else .error ⟨package.path, tree.root⟩

/-- The tree of the packages, added one after the other. -/
def ofPackages (root : Text) (isStandard : Text → Bool) (packages : List Package) :
    Except OutsideRoot PackageTree :=
  packages.foldlM add (ofRoot root isStandard)

def get? (tree : PackageTree) (path : Text) : Option Package := tree.packages.get? path

/-- The paths of the packages, in ascending order. -/
def paths (tree : PackageTree) : List Text := tree.packages.keys

end PackageTree

end LockFit
