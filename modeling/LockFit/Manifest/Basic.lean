import LockFit.Constraint.Basic
import LockFit.Ignore
import LockFit.ImportPath

/-
  Manifests: what a project declares about its dependencies.
  Constraints and overrides are rules on project roots, ignore rules exclude import paths, and
  some import paths are required whether anything imports them or not. Slashes at the end of a
  root do not count: they are dropped, and then no root may be empty or come twice.
-/

namespace LockFit

/-- The two sections of a manifest that hold rules. -/
inductive RuleSection where
  | overrides
  | constraints
  deriving DecidableEq

def RuleSection.name : RuleSection → Text
  | .overrides => "overrides"
  | .constraints => "constraints"

/-- Why roots and rules make no section. -/
inductive RuleError where
  | emptyRoot (part : RuleSection) (root : Text)
  | repeatedRoot (part : RuleSection) (root : Text)
  deriving DecidableEq

def RuleError.message : RuleError → Text
  | .emptyRoot part root => part.name ++ " has an empty project root: " ++ Text.quoted root
  | .repeatedRoot part root => part.name ++ " declares " ++ Text.quoted root ++ " more than once"

/-- A root as rules are kept under it: not empty and without a slash at its end. -/
def IsRuleRoot (root : Text) : Prop := root ≠ "" ∧ ImportPath.dropSlashes root = root

/-- Rules in the order in which they are declared, each under a root of its own. -/
structure Rules where
  entries : List (Text × Constraint)
  distinct : (entries.map Prod.fst).Nodup
  proper : ∀ e ∈ entries, IsRuleRoot e.1
  deriving DecidableEq

namespace Rules

def empty : Rules := ⟨[], List.nodup_nil, nofun⟩

instance : Inhabited Rules := ⟨empty⟩

/-- The roots, in the order in which they are declared. -/
def roots (rules : Rules) : List Text := rules.entries.map Prod.fst

/-- The rule under the first entry with the root. -/
def look (root : Text) : List (Text × Constraint) → Option Constraint
  | [] => none
  | e :: es => if e.1 = root then some e.2 else look root es

def get? (rules : Rules) (root : Text) : Option Constraint := look root rules.entries

theorem dropEndWhile_idem (p : Code → Bool) (cs : List Code) :
    Text.dropEndWhile p (Text.dropEndWhile p cs) = Text.dropEndWhile p cs := by
  have h : ∀ l : List Code, (l.dropWhile p).dropWhile p = l.dropWhile p := by
    intro l
    induction l with
    | nil => rfl
    | cons c l ih =>
      by_cases hc : p c = true
      · simp [hc, ih]
      · simp [hc]
  simp [Text.dropEndWhile, h]

theorem dropSlashes_idem (root : Text) :
    ImportPath.dropSlashes (ImportPath.dropSlashes root) = ImportPath.dropSlashes root := by
  apply Text.toList_inj.1
  simp [ImportPath.dropSlashes, dropEndWhile_idem]

/-- The rules with one more behind them, under its root without slashes at the end. -/
def add (part : RuleSection) (rules : Rules) (e : Text × Constraint) :
    Except RuleError Rules :=
  let root := ImportPath.dropSlashes e.1
  if hne : root = "" then .error (.emptyRoot part e.1)
  else if hin : root ∈ rules.roots then .error (.repeatedRoot part root)
  else .ok {
    entries := rules.entries ++ [(root, e.2)]
    distinct := by
      rw [List.map_append, List.nodup_append]
      refine ⟨rules.distinct, by simp, ?_⟩
      intro a ha b hb hab
      simp only [List.map_cons, List.map_nil, List.mem_singleton] at hb
      exact hin (hb ▸ hab ▸ ha)
    proper := by
      intro f hf
      rcases List.mem_append.1 hf with hf | hf
      · exact rules.proper f hf
      · rw [List.mem_singleton.1 hf]
        exact ⟨hne, dropSlashes_idem e.1⟩ }

/-- The rules of a section, in the order given. -/
def ofEntries (part : RuleSection) (entries : List (Text × Constraint)) :
    Except RuleError Rules :=
  entries.foldlM (add part) empty

end Rules

/-- What a project declares. -/
structure Manifest where
  overrides : Rules
  constraints : Rules
  ignored : IgnoreRules
  required : TextSet
  deriving DecidableEq

namespace Manifest

/-- The manifest that declares nothing, which is what an absent one means. -/
def empty : Manifest := ⟨.empty, .empty, .empty, .empty⟩

instance : Inhabited Manifest := ⟨empty⟩

/-- The manifest of the given rules; the overrides are looked at first. -/
def ofRules (overrides constraints : List (Text × Constraint)) (ignored : IgnoreRules)
    (required : List Text) : Except RuleError Manifest := do
  let overrides ← Rules.ofEntries .overrides overrides
  let constraints ← Rules.ofEntries .constraints constraints
  return ⟨overrides, constraints, ignored, .ofList required⟩

end Manifest

end LockFit
