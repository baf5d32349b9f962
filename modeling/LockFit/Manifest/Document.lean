import LockFit.Manifest.Basic
import LockFit.Notice
import LockFit.Yaml.Value

/-
  The document of a manifest.
  A mapping may have two sections of rules, each a mapping of roots to the texts of rules, and two
  lists of import paths. A section that is empty, null, false or zero counts as absent, and a rule
  without a text allows every version. Other keys are remarked on, in order.
-/

namespace LockFit

/-- Why a document is no manifest. -/
inductive ManifestError where
  | notMapping
  | rulesNotMapping (part : RuleSection)
  | badRoot (part : RuleSection) (shown : Text)
  | ruleNotText (part : RuleSection) (root : Text)
  | badRule (part : RuleSection) (root : Text) (cause : ConstraintError)
  | pathsNotTexts (name : Text)
  | badRules (cause : RuleError)
  deriving DecidableEq

def ManifestError.message : ManifestError → Text
  | .notMapping => "Manifest document must be a mapping"
  | .rulesNotMapping part => "'" ++ part.name ++ "' must be a mapping of project root to constraint"
  | .badRoot part shown => "'" ++ part.name ++ "' has an invalid project root: " ++ shown
  | .ruleNotText part root => part.name ++ "." ++ root ++ ": constraint must be a string"
  | .badRule part root cause => part.name ++ "." ++ root ++ ": " ++ cause.message
  | .pathsNotTexts name => "'" ++ name ++ "' must be a list of import paths"
  | .badRules cause => cause.message

/-- How reading a manifest can fail: the document is no manifest, the number of a rule is too long
    to be read, the keys without a meaning cannot be put in order, or a key that is no root cannot
    be shown. -/
inductive ManifestFailure where
  | rejected (cause : ManifestError)
  | numeral (cause : Text.NumeralTooLong)
  | unordered
  | unshown (cause : Text.NumberTooLong)
  deriving DecidableEq

namespace Manifest

open Yaml

/-- The keys with a meaning in a manifest. -/
def names : List Text := ["constraints", "overrides", "ignored", "required"]

def isName : Atom → Bool
  | .text s => names.contains s
  | _ => false

/-- The value of a section; one that counts as false is absent. -/
def section? (name : Text) (entries : List (Atom × Yaml)) : Option Yaml :=
  (find? name entries).filter Yaml.isTruthy

/-- The rule that a value writes. -/
def ruleOf (part : RuleSection) (root : Text) (v : Yaml) : Except ManifestFailure Constraint :=
  let rule : Except ManifestFailure Text := match v with
    | .atom .null => .ok "*"
    | .atom (.text s) => .ok s
    | _ => .error (.rejected (.ruleNotText part root))
  match rule with
  | .error e => .error e
  | .ok written => match Constraint.ofText written with
    | .ok c => .ok c
    | .error (.numeral e) => .error (.numeral e)
    | .error e => .error (.rejected (.badRule part root e))

/-- The failure of a key that is no root. -/
def badRoot (part : RuleSection) (key : Atom) : ManifestFailure :=
  match key.shown with
  | .ok shown => .rejected (.badRoot part shown)
  | .error e => .unshown e

/-- A root and the rule on it. -/
def entryOf (part : RuleSection) (e : Atom × Yaml) :
    Except ManifestFailure (Text × Constraint) :=
  match e.1 with
  | .text root =>
    if root = "" then .error (badRoot part e.1)
    else (ruleOf part root e.2).map fun c => (root, c)
  | key => .error (badRoot part key)

/-- The rules of a section, in the order of the document. -/
def rulesOf (part : RuleSection) (entries : List (Atom × Yaml)) :
    Except ManifestFailure (List (Text × Constraint)) :=
  match section? part.name entries with
  | none => .ok []
  | some (.map es) => es.mapM (entryOf part)
  | some _ => .error (.rejected (.rulesNotMapping part))

/-- The texts of a list of texts. -/
def texts? : Yaml → Option (List Text)
  | .list items => items.mapM fun
    | .atom (.text s) => some s
    | _ => none
  | _ => none

/-- The import paths of a section. -/
def pathsOf (name : Text) (entries : List (Atom × Yaml)) :
    Except ManifestFailure (List Text) :=
  match section? name entries with
  | none => .ok []
  | some v => match texts? v with
    | some paths => .ok paths
    | none => .error (.rejected (.pathsNotTexts name))

/-- A notice for the keys without a meaning, if there are any. -/
def remark (entries : List (Atom × Yaml)) : Noted ManifestFailure Unit :=
  let unknown := (entries.map Prod.fst).filter fun k => !isName k
  if unknown.isEmpty then return ()
  else match Atom.sort? unknown with
    | none => Noted.fail .unordered
    | some keys => Noted.note (.unknownManifestKeys (keys.mapM Atom.shown))

/-- The manifest of the entries of a document. -/
def ofEntries (entries : List (Atom × Yaml)) : Except ManifestFailure Manifest := do
  let overrides ← rulesOf .overrides entries
  let constraints ← rulesOf .constraints entries
  let ignored ← pathsOf "ignored" entries
  let required ← pathsOf "required" entries
  (ofRules overrides constraints (.ofPatterns ignored) required).mapError
    fun e => .rejected (.badRules e)

/-- How many collections deep a document counts: the document and its sections. -/
def documentDepth : Nat := 2

/-- The manifest that a document describes; an empty document describes the empty manifest. -/
def ofYaml (v : Yaml) : Noted ManifestFailure Manifest :=
  match v with
  | .atom .null => return empty
  | .map entries => do
    remark entries
    Noted.lift (ofEntries entries)
  | _ => Noted.fail (.rejected .notMapping)

end Manifest

end LockFit
