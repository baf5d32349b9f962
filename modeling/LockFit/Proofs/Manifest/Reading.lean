import LockFit.Proofs.Manifest.Answers

/-
  What the document of a manifest describes.
  Each reader of a part succeeds with what the part describes and with nothing else
  (`rulesOf_eq_ok`, `pathsOf_eq_ok`). A section that counts as false is off (`IsOff`): it describes
  no rules and no paths, whatever it is. A document is read if its other keys have an order and its
  entries make a manifest (`ofYaml_eq_ok`).
-/

namespace LockFit.Manifest

open Yaml

variable {part : RuleSection} {name : Text} {entries es : List (Atom × Yaml)} {v : Yaml}

/-! ## Sections -/

/-- Nothing stands under the name, or a value that counts as false. -/
def IsOff (name : Text) (entries : List (Atom × Yaml)) : Prop :=
  ∀ v, find? name entries = some v → v.isTruthy = false

/-- The section of rules has the entries; one that is off has none. -/
def HasRules (name : Text) (entries es : List (Atom × Yaml)) : Prop :=
  find? name entries = some (.map es) ∨ IsOff name entries ∧ es = []

/-- The value is a list of the texts. -/
def IsTexts (v : Yaml) (texts : List Text) : Prop :=
  v = .list (texts.map fun s => .atom (.text s))

/-- The section of import paths lists the paths; one that is off lists none. -/
def HasPaths (name : Text) (entries : List (Atom × Yaml)) (paths : List Text) : Prop :=
  (∃ v, find? name entries = some v ∧ IsTexts v paths) ∨ IsOff name entries ∧ paths = []

/-- A section is off, or its value counts as true and is the one that is read. -/
theorem off_or_on (name : Text) (entries : List (Atom × Yaml)) :
    (section? name entries = none ∧ IsOff name entries) ∨
    ∃ v, section? name entries = some v ∧ find? name entries = some v ∧ v.isTruthy = true := by
  cases hsection : section? name entries with
  | none => exact Or.inl ⟨rfl, by simpa [IsOff] using Option.filter_eq_none_iff.1 hsection⟩
  | some v => exact Or.inr ⟨v, rfl, Option.filter_eq_some_iff.1 hsection⟩

theorem not_isOff (hv : find? name entries = some v) (htrue : v.isTruthy = true) :
    ¬ IsOff name entries :=
  fun hoff => Bool.false_ne_true ((hoff v hv).symm.trans htrue)

theorem hasRules_of_off (hoff : IsOff name entries) : HasRules name entries es ↔ es = [] := by
  refine ⟨?_, fun hes => Or.inr ⟨hoff, hes⟩⟩
  rintro (hes | ⟨-, hes⟩)
  · simpa [isTruthy] using hoff _ hes
  · exact hes

theorem hasRules_of_on (hv : find? name entries = some v) (htrue : v.isTruthy = true) :
    HasRules name entries es ↔ v = .map es := by
  rw [HasRules, hv, Option.some.injEq]
  exact or_iff_left fun h => not_isOff hv htrue h.1

variable {paths : List Text}

theorem hasPaths_of_off (hoff : IsOff name entries) :
    HasPaths name entries paths ↔ paths = [] := by
  refine ⟨?_, fun hpaths => Or.inr ⟨hoff, hpaths⟩⟩
  rintro (⟨v, hv, rfl⟩ | ⟨-, hpaths⟩)
  · simpa [isTruthy] using hoff _ hv
  · exact hpaths

theorem hasPaths_of_on (hv : find? name entries = some v) (htrue : v.isTruthy = true) :
    HasPaths name entries paths ↔ IsTexts v paths := by
  rw [HasPaths, hv]
  simp only [Option.some.injEq, exists_eq_left']
  exact or_iff_left fun h => not_isOff hv htrue h.1

/-! ## Rules -/

/-- The value is the text of a rule; null is the text of the rule that allows every version. -/
def IsRuleText (v : Yaml) (s : Text) : Prop :=
  v = .atom (.text s) ∨ v = .atom .null ∧ s = "*"

/-- The entry writes a rule on a root. -/
structure Writes (e : Atom × Yaml) (rule : Text × Constraint) : Prop where
  key : e.1 = .text rule.1
  key_ne : rule.1 ≠ ""
  value : ∃ s, IsRuleText e.2 s ∧ Constraint.ofText s = .ok rule.2

/-- The section has entries that write, one by one, the rules. -/
def WritesRules (name : Text) (entries : List (Atom × Yaml))
    (given : List (Text × Constraint)) : Prop :=
  ∃ es, HasRules name entries es ∧ List.Forall₂ Writes es given

theorem ruleOf_eq_ok {root : Text} {rule : Constraint} :
    ruleOf part root v = .ok rule ↔ ∃ s, IsRuleText v s ∧ Constraint.ofText s = .ok rule := by
  have hread (s : Text) : ruleOf part root (.atom (.text s)) = .ok rule ↔
      Constraint.ofText s = .ok rule := by
    rw [ruleOf]
    cases Constraint.ofText s with
    | ok c => simp
    | error e => cases e <;> simp
  cases v with
  | atom a =>
    cases a with
    | text s => simp [IsRuleText, hread]
    | null =>
      have hstar : ruleOf part root (.atom .null) = ruleOf part root (.atom (.text "*")) := rfl
      rw [hstar, hread]
      simp [IsRuleText]
    | bool | int | float | notANumber | moment | bytes => simp [ruleOf, IsRuleText]
  | list | pairs | set | map | folded => simp [ruleOf, IsRuleText]

theorem entryOf_eq_ok {e : Atom × Yaml} {rule : Text × Constraint} :
    entryOf part e = .ok rule ↔ Writes e rule := by
  obtain ⟨key, w⟩ := e
  obtain ⟨root, c⟩ := rule
  by_cases hkey : key = .text root ∧ root ≠ ""
  · obtain ⟨rfl, hroot⟩ := hkey
    rw [entryOf]
    dsimp only
    rw [if_neg hroot, map_eq_ok]
    simp only [Prod.mk.injEq, true_and, exists_eq_right, ruleOf_eq_ok]
    exact ⟨fun h => ⟨rfl, hroot, h⟩, fun h => h.value⟩
  · -- a key that is no root is refused before the value is looked at
    refine iff_of_false (fun h => hkey ?_) fun h => hkey ⟨h.key, h.key_ne⟩
    rw [entryOf] at h
    split at h
    · rename_i s hs
      split at h
      · cases h
      · rename_i hne
        obtain ⟨c', -, hrule⟩ := map_eq_ok.1 h
        cases hrule
        exact ⟨hs, hne⟩
    · cases h

theorem rulesOf_eq_ok {given : List (Text × Constraint)} :
    rulesOf part entries = .ok given ↔ WritesRules part.name entries given := by
  rw [rulesOf, WritesRules]
  rcases off_or_on part.name entries with ⟨hnone, hoff⟩ | ⟨w, hsome, hw, htrue⟩
  · rw [hnone]
    simp [hasRules_of_off hoff, eq_comm]
  · rw [hsome]
    simp only [hasRules_of_on hw htrue]
    cases w with
    | map es =>
      simp only [mapM_eq_ok, entryOf_eq_ok, map.injEq, exists_eq_left']
    | atom | list | pairs | set | folded => simp

/-! ## Import paths -/

theorem texts?_eq_some : texts? v = some paths ↔ IsTexts v paths := by
  rw [IsTexts]
  cases v with
  | list items =>
    rw [texts?, list.injEq]
    refine mapM_eq_some_map fun item s => ?_
    cases item with
    | atom a => cases a <;> simp
    | list | pairs | set | map | folded => simp
  | atom | pairs | set | map | folded => simp [texts?]

theorem pathsOf_eq_ok : pathsOf name entries = .ok paths ↔ HasPaths name entries paths := by
  rw [pathsOf]
  rcases off_or_on name entries with ⟨hnone, hoff⟩ | ⟨w, hsome, hw, htrue⟩
  · rw [hnone]
    simp [hasPaths_of_off hoff, eq_comm]
  · rw [hsome, hasPaths_of_on hw htrue, ← texts?_eq_some]
    dsimp only
    cases texts? w <;> simp

/-! ## The document -/

/-- The document has the entries; null has none. -/
def HasEntries (v : Yaml) (entries : List (Atom × Yaml)) : Prop :=
  v = .map entries ∨ v = .atom .null ∧ entries = []

variable {m : Manifest}

theorem ofEntries_eq_ok : ofEntries entries = .ok m ↔
    ∃ overrides constraints ignored required,
      WritesRules "overrides" entries overrides ∧ WritesRules "constraints" entries constraints ∧
      HasPaths "ignored" entries ignored ∧ HasPaths "required" entries required ∧
      ofRules overrides constraints (.ofPatterns ignored) required = .ok m := by
  simp only [ofEntries, bind_eq_ok, mapError_eq_ok, rulesOf_eq_ok, pathsOf_eq_ok, exists_and_left,
    RuleSection.name]

theorem ofYaml_map_eq_ok : (ofYaml (.map entries)).outcome = .ok m ↔
    ¬ Unordered (unknownKeys entries) ∧ ofEntries entries = .ok m := by
  have houtcome : (ofYaml (.map entries)).outcome =
      (remark entries).outcome >>= fun _ => ofEntries entries := by
    rw [ofYaml, Noted.outcome_bind, Noted.outcome_lift]
  rw [houtcome]
  rcases remark_cases entries with ⟨hkeys, cause, hcause, -⟩ | ⟨hkeys, hok⟩
  · simp [hcause, bind, Except.bind, hkeys]
  · simp [hok, bind, Except.bind, hkeys]

/-- A document that is null is read as one without entries. -/
theorem ofYaml_null_eq_ok : (ofYaml (.atom .null)).outcome = .ok m ↔
    (ofYaml (.map [])).outcome = .ok m := Iff.rfl

theorem ofYaml_eq_ok : (ofYaml v).outcome = .ok m ↔
    ∃ entries, HasEntries v entries ∧ ¬ Unordered (unknownKeys entries) ∧
      ofEntries entries = .ok m := by
  simp only [← ofYaml_map_eq_ok]
  constructor
  · intro h
    unfold ofYaml at h
    split at h
    · exact ⟨[], Or.inr ⟨rfl, rfl⟩, ofYaml_null_eq_ok.1 h⟩
    · exact ⟨_, Or.inl rfl, h⟩
    · cases h
  · rintro ⟨entries, rfl | ⟨rfl, rfl⟩, h⟩
    · exact h
    · exact ofYaml_null_eq_ok.2 h

end LockFit.Manifest
