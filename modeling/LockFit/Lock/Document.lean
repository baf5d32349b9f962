import LockFit.Json.Printer
import LockFit.Lock.Basic
import LockFit.Notice

/-
  The document of a lock.
  An object names the import paths and the projects; a project is an object with its root, its
  version, the kind of the version and its packages. Names that mean nothing are remarked on. A
  version without a kind is a tag if it can be one and a revision otherwise. Writing puts
  everything in ascending order, so that one lock has one document.
-/

namespace LockFit

/-- Why a document is no lock. -/
inductive LockError where
  | notObject
  | importsNotTexts
  | projectsNotList
  | projectNotObject
  | noRoot
  | noVersion (root : Text)
  | badVersion (root : Text) (cause : VersionError)
  | packagesNotTexts (root : Text)
  | lockedTwice (cause : LockedTwice)
  deriving DecidableEq

open Text in
def LockError.message : LockError → Text
  | .notObject => "Lock document must be a mapping"
  | .importsNotTexts => "'input_imports' must be a list of strings"
  | .projectsNotList => "'projects' must be a list"
  | .projectNotObject => "Each locked project must be a mapping"
  | .noRoot => "Locked project is missing 'root'"
  | .noVersion root => "Locked project " ++ quoted root ++ " is missing 'version'"
  | .badVersion root cause => "Locked project " ++ quoted root ++ ": " ++ cause.message
  | .packagesNotTexts root =>
    "Locked project " ++ quoted root ++ ": 'packages' must be a list of strings"
  | .lockedTwice cause => cause.message

namespace Lock

open Json

/-- A list of texts under a name; a missing name means none. -/
def textsAt? (name : Text) (members : List (Text × Json)) : Option (List Text) :=
  match find? name members with
  | none => some []
  | some v => v.texts?

/-- A text under a name that is not empty. -/
def textAt? (name : Text) (members : List (Text × Json)) : Option Text :=
  match find? name members with
  | some (.text s) => if s = "" then none else some s
  | _ => none

/-- The kind that a value of a document names. -/
def kindOf (v : Json) : Except VersionError VersionKind :=
  match v with
  | .text s => match VersionKind.ofText? s with
    | some kind => .ok kind
    | none => .error (.unknownKind v.shown)
  | v => .error (.unknownKind v.shown)

/-- The version of a text and of the kind that is given for it, if one is. -/
def versionOf (pinned : Text) (kind : Option Json) : Except VersionError Version :=
  match kind with
  | none | some .null => .ok (Version.ofText pinned)
  | some v => do
    let kind ← kindOf v
    Version.ofKind pinned kind

/-- The names with a meaning in the object of a project. -/
def projectNames : List Text := ["root", "version", "version_type", "packages"]

def unknownNames (known : List Text) (members : List (Text × Json)) : List Text :=
  (members.map Prod.fst).filter fun name => !known.contains name

/-- The project that a member of the list of projects describes. -/
def projectOfJson (v : Json) : Noted LockError LockedProject :=
  match v with
  | .object members =>
    match textAt? "root" members with
    | none => Noted.fail .noRoot
    | some root => match textAt? "version" members with
      | none => Noted.fail (.noVersion root)
      | some pinned => do
        let unknown := unknownNames projectNames members
        if unknown ≠ [] then Noted.note (.unknownProjectKeys root unknown)
        let version ← Noted.lift
          ((versionOf pinned (find? "version_type" members)).mapError (.badVersion root))
        match textsAt? "packages" members with
        | none => Noted.fail (.packagesNotTexts root)
        | some packages => return ⟨root, version, packages⟩
  | _ => Noted.fail .projectNotObject

/-- The projects that a list describes, in its order. -/
def projectsOfJson : List Json → Noted LockError (List LockedProject)
  | [] => return []
  | v :: vs => do
    let p ← projectOfJson v
    let ps ← projectsOfJson vs
    return p :: ps

/-- The lock that a document describes. -/
def ofJson (v : Json) : Noted LockError Lock :=
  match v with
  | .object members =>
    match textsAt? "input_imports" members with
    | none => Noted.fail .importsNotTexts
    | some imports =>
      let projects : Option (List Json) := match find? "projects" members with
        | none => some []
        | some (.list items) => some items
        | some _ => none
      match projects with
      | none => Noted.fail .projectsNotList
      | some items => do
        let projects ← projectsOfJson items
        Noted.lift ((ofProjects projects imports).mapError .lockedTwice)
  | _ => Noted.fail .notObject

/-! ## Writing -/

/-- The texts as a list, in ascending order. -/
def sortedTexts (texts : List Text) : Json := .list ((Text.sort texts).map .text)

def projectToJson (p : LockedProject) : Json :=
  .object [("packages", sortedTexts p.packages), ("root", .text p.root),
    ("version", .text p.version.text), ("version_type", .text p.version.kind.text)]

/-- The document of a lock, with the projects in the order of their roots. -/
def toJson (lock : Lock) : Json :=
  .object [("input_imports", sortedTexts lock.inputImports),
    ("projects", .list ((Text.sortOn LockedProject.root lock.projects).map projectToJson))]

/-- The text of a lock. -/
def print (layout : Layout) (lock : Lock) : Text := Json.print layout lock.toJson

end Lock

end LockFit
