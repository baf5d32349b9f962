import LockFit.Json.Reader
import LockFit.Lock.Document
import LockFit.Manifest.Document
import LockFit.Package.Document
import LockFit.Text.Encoding
import LockFit.Yaml.Fault

/-
  Loading locks, manifests and package trees from texts and from files.
  A failure names its cause. The causes that concern a document or a file are reported; the others
  (a numeral that is too long, values nested too deep, keys without an order, a failure of the
  reader of YAML) end the program. The reader of YAML is an argument.
-/

namespace LockFit

/-- What stands under a path. A path that leads through a file as if that were a directory is not
    the same as one that leads nowhere, and one with the null character is no path at all. -/
inductive FileState where
  | absent
  | notDirectory
  | directory
  | nameTooLong
  | unnameable
  | file (bytes : List UInt8)

/-- Why something could not be loaded. -/
inductive Failure where
  | lock (cause : LockError)
  | lockText (complaint : Json.Misplaced)
  | lockBytes (path : Text) (cause : Text.EncodingError)
  | manifest (cause : ManifestError)
  | manifestText (complaint : Text)
  | manifestBytes (path : Text) (cause : Text.EncodingError)
  | tree (cause : TreeError)
  | treeText (path : Text) (complaint : Json.Misplaced)
  | treeBytes (path : Text) (cause : Text.EncodingError)
  | noFile (path : Text)
  | notDirectory (path : Text)
  | isDirectory (path : Text)
  | nameTooLong (path : Text)
  | unnameable
  | numeral (cause : Text.NumeralTooLong)
  | yaml (cause : Yaml.Fault)
  | unordered
  | unshown (cause : Text.NumberTooLong)
  | tooDeep
  deriving DecidableEq

namespace Failure

/-- The failure concerns a document or a file, and is reported as such. -/
def isReported : Failure → Bool
  | unnameable | numeral _ | yaml _ | unordered | unshown _ | tooDeep => false
  | _ => true

def message : Failure → Text
  | lock cause => cause.message
  | lockText complaint => "Invalid lock JSON: " ++ complaint.message
  | lockBytes path cause => cause.inFile path
  | manifest cause => cause.message
  | manifestText complaint => "Invalid manifest YAML: " ++ complaint
  | manifestBytes path cause => cause.inFile path
  | tree cause => cause.message
  | treeText path complaint => path ++ ": invalid JSON: " ++ complaint.message
  | treeBytes path cause => cause.inFile path
  | noFile path => "[Errno 2] No such file or directory: " ++ Text.quoted path
  | notDirectory path => "[Errno 20] Not a directory: " ++ Text.quoted path
  | isDirectory path => "[Errno 21] Is a directory: " ++ Text.quoted path
  | nameTooLong path => "[Errno 36] File name too long: " ++ Text.quoted path
  | unnameable => "embedded null byte"
  | numeral cause => cause.message
  | yaml cause => cause.message
  | unshown cause => cause.message
  | unordered | tooDeep => ""

end Failure

/-! ## From texts -/

/-- The JSON value of a text, with a complaint about the text turned into a failure. -/
def readJson (complain : Json.Misplaced → Failure) (text : Text) : Noted Failure Json :=
  match Json.read text with
  | .ok v => return v
  | .error (.malformed complaint) => Noted.fail (complain complaint)
  | .error (.numeral cause) => Noted.fail (.numeral cause)
  | .error .tooDeep => Noted.fail .tooDeep

def Lock.ofText (text : Text) : Noted Failure Lock := do
  let v ← readJson .lockText text
  (Lock.ofJson v).mapError .lock

/-- The tree of a text that stands in the file with the path. -/
def PackageTree.ofText (path text : Text) : Noted Failure PackageTree := do
  let v ← readJson (.treeText path) text
  (PackageTree.ofJson v).mapError .tree

def ManifestFailure.failure : ManifestFailure → Failure
  | .rejected cause => .manifest cause
  | .numeral cause => .numeral cause
  | .unordered => .unordered
  | .unshown cause => .unshown cause

def Manifest.load (v : Yaml) : Noted Failure Manifest :=
  (Manifest.ofYaml v).mapError ManifestFailure.failure

def Manifest.ofText (readYaml : Text → Except Yaml.Refusal Yaml) (text : Text) :
    Noted Failure Manifest :=
  match readYaml text with
  | .ok v => Manifest.load v
  | .error (.malformed complaint) => Noted.fail (.manifestText complaint)
  | .error (.failed cause) => Noted.fail (.yaml cause)

/-! ## From files -/

/-- A path without what does not matter in it: doubled slashes, segments that are a dot, and a
    slash at the end. An empty path is the directory that paths start from. -/
def cleanPath (path : Text) : Text :=
  let segments := (Text.split '/' path).filter fun s : Text => s ≠ "" && s ≠ "."
  let body := Text.intercalate "/" segments
  if Text.startsWith "/" path then
    let start : Text :=
      if Text.startsWith "//" path && !Text.startsWith "///" path then "//" else "/"
    start ++ body
  else if body = "" then "." else body

/-- The text of a file, with a fault in its bytes turned into a failure. -/
def readFile (undecodable : Text.EncodingError → Failure) (path : Text) (state : FileState) :
    Noted Failure Text :=
  match state with
  | .absent => Noted.fail (.noFile path)
  | .notDirectory => Noted.fail (.notDirectory path)
  | .directory => Noted.fail (.isDirectory path)
  | .nameTooLong => Noted.fail (.nameTooLong path)
  | .unnameable => Noted.fail .unnameable
  | .file bytes => match Text.ofStored bytes with
    | .ok text => return text
    | .error e => Noted.fail (undecodable e)

/-- The lock in a file. -/
def Lock.ofFile (path : Text) (state : FileState) : Noted Failure Lock := do
  Lock.ofText (← readFile (.lockBytes path) path state)

/-- The manifest in a file. -/
def Manifest.ofFile (readYaml : Text → Except Yaml.Refusal Yaml) (path : Text)
    (state : FileState) : Noted Failure Manifest := do
  Manifest.ofText readYaml (← readFile (.manifestBytes path) path state)

/-- The package tree in a file. -/
def PackageTree.ofFile (path : Text) (state : FileState) : Noted Failure PackageTree := do
  PackageTree.ofText path (← readFile (.treeBytes path) path state)

end LockFit
