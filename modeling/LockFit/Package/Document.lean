import LockFit.Json.Value
import LockFit.Package.Reach

/-
  The document of a package tree.
  An object names the import root and the packages; a package is an object with its imports, those
  of its tests, and whether it is a command. What is missing or null counts as empty, and names
  that mean nothing are remarked on.
-/

namespace LockFit

/-- Why a document is no package tree. -/
inductive TreeError where
  | notObject
  | noRoot
  | packagesNotObject
  | packageNotObject (path : Text)
  | notTexts (path field : Text)
  | outside (cause : OutsideRoot)
  deriving DecidableEq

def TreeError.message : TreeError → Text
  | .notObject => "Package tree document must be a mapping"
  | .noRoot => "Package tree document needs a non-empty 'import_root'"
  | .packagesNotObject => "'packages' must be a mapping of import path to package"
  | .packageNotObject path => "Package " ++ Text.quoted path ++ " must be a mapping"
  | .notTexts path field => path ++ "." ++ field ++ " must be a list of strings"
  | .outside cause => cause.message

namespace PackageTree

open Json

/-- The names with a meaning in the object of a package. -/
def packageNames : List Text := ["imports", "test_imports", "main"]

/-- A list of texts under a name; what is missing or null counts as empty. -/
def textsOrNone? (name : Text) (members : List (Text × Json)) : Option (List Text) :=
  match find? name members with
  | none | some .null => some []
  | some v => v.texts?

/-- The members of the object of a package; null counts as an empty one. -/
def packageMembers? : Json → Option (List (Text × Json))
  | .null => some []
  | .object members => some members
  | _ => none

/-- The package that an entry describes. -/
def packageOfJson (path : Text) (v : Json) : Noted TreeError Package :=
  match packageMembers? v with
  | none => Noted.fail (.packageNotObject path)
  | some members => do
    let unknown := (members.map Prod.fst).filter fun name => !packageNames.contains name
    if unknown ≠ [] then Noted.note (.unknownPackageKeys path unknown)
    match textsOrNone? "imports" members with
    | none => Noted.fail (.notTexts path "imports")
    | some imports => match textsOrNone? "test_imports" members with
      | none => Noted.fail (.notTexts path "test_imports")
      | some testImports =>
        let isMain := ((find? "main" members).map Json.isTruthy).getD false
        return ⟨path, imports, testImports, isMain⟩

/-- The tree with the packages that entries describe added to it. -/
def addEntries (tree : PackageTree) : List (Text × Json) → Noted TreeError PackageTree
  | [] => return tree
  | (path, v) :: rest => do
    let package ← packageOfJson path v
    let tree ← Noted.lift ((tree.add package).mapError .outside)
    tree.addEntries rest

/-- The tree that a document describes. -/
def ofJson (v : Json) : Noted TreeError PackageTree :=
  match v with
  | .object members =>
    match find? "import_root" members with
    | some (.text root) =>
      if root = "" then Noted.fail .noRoot
      else match (find? "packages" members).getD (.object []) with
        | .object entries => (ofRoot root ImportPath.isStandard).addEntries entries
        | _ => Noted.fail .packagesNotObject
    | _ => Noted.fail .noRoot
  | _ => Noted.fail .notObject

end PackageTree

end LockFit
