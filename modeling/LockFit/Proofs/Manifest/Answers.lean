import LockFit.Manifest.Document
import LockFit.Proofs.Constraint.Numerals

/-
  How reading a manifest can end.
  A document makes a manifest or is rejected with a manifest error, but for three things that no
  check looks at: keys without a meaning that have no common order, a whole number with too many
  digits for a root, and a rule with such a number. `Confounding` says where in a document they
  have to stand to decide how reading ends; `ofYaml_answers` is that nothing else does. The parts
  of a document are read in order, so an earlier fault hides a later one.
-/

namespace LockFit

open Text Yaml

/-! ## Keys -/

namespace Yaml.Atom

/-- A whole number with more digits than are written out. -/
def IsUnwritable (a : Atom) : Prop := ∃ n, a = .int n ∧ Nat.pow 10 digitLimit ≤ n.natAbs

theorem shown_isOk {a : Atom} : (∃ s, a.shown = .ok s) ↔ ¬ a.IsUnwritable := by
  cases a with
  | int n =>
    simp only [shown, writeNumber, IsUnwritable, int.injEq, exists_eq_left']
    split
    · rename_i h
      simpa using h
    · rename_i h
      simpa using h
  | null | bool | float | notANumber | text | moment | bytes => simp [shown, IsUnwritable]

/-- Atoms have an order exactly if they are of one family. -/
theorem sort?_eq_none {atoms : List Atom} :
    sort? atoms = none ↔ ∃ a ∈ atoms, ∃ b ∈ atoms, a.family ≠ b.family := by
  cases atoms with
  | nil => simp [sort?]
  | cons c as =>
    rw [sort?]
    constructor
    · intro h
      split at h
      · cases h
      · rename_i hall
        obtain ⟨b, hb, hne⟩ : ∃ b ∈ as, b.family ≠ c.family := by simpa using hall
        exact ⟨b, List.mem_cons_of_mem c hb, c, List.mem_cons_self, hne⟩
    · rintro ⟨a, ha, b, hb, hne⟩
      refine if_neg fun hall => hne ?_
      have hfamily : ∀ d ∈ c :: as, d.family = c.family :=
        List.forall_mem_cons.2 ⟨rfl, by simpa using hall⟩
      rw [hfamily a ha, hfamily b hb]

end Yaml.Atom

/-- The failure is no manifest error. -/
def ManifestFailure.Escapes (cause : ManifestFailure) : Prop := ∀ e, cause ≠ .rejected e

namespace Manifest

variable {part : RuleSection} {entries : List (Atom × Yaml)}

/-- The keys of a document that have no meaning in a manifest. -/
def unknownKeys (entries : List (Atom × Yaml)) : List Atom :=
  (entries.map Prod.fst).filter fun k => !isName k

/-- Two of the keys have no order. -/
def Unordered (keys : List Atom) : Prop := ∃ a ∈ keys, ∃ b ∈ keys, a.family ≠ b.family

/-- The remark on the keys without a meaning succeeds unless they have no order. That a key cannot
    be written out does not matter, since nothing is written yet. -/
theorem remark_cases (entries : List (Atom × Yaml)) :
    Unordered (unknownKeys entries) ∧
      FailsWith ManifestFailure.Escapes (remark entries).outcome ∨
    ¬ Unordered (unknownKeys entries) ∧ (remark entries).outcome = .ok () := by
  rw [remark, Unordered, ← unknownKeys, ← Atom.sort?_eq_none]
  generalize unknownKeys entries = unknown
  cases hsort : Atom.sort? unknown with
  | none =>
    have hne : unknown.isEmpty = false := by
      cases unknown with
      | nil => cases hsort
      | cons k ks => rfl
    left
    rw [hne]
    exact ⟨rfl, .unordered, rfl, by simp [ManifestFailure.Escapes]⟩
  | some keys =>
    right
    refine ⟨nofun, ?_⟩
    cases unknown.isEmpty with
    | true => rfl
    | false => rfl

/-! ## Rules -/

/-- The failure of a key that is no root escapes if the key cannot be written out. -/
theorem badRoot_escapes {key : Atom} : (badRoot part key).Escapes ↔ key.IsUnwritable := by
  rw [← not_iff_not, ← Atom.shown_isOk, badRoot]
  cases key.shown with
  | ok shown => simp [ManifestFailure.Escapes]
  | error e => simp [ManifestFailure.Escapes]

theorem ruleOf_failsWith_escapes {root : Text} {v : Yaml} :
    FailsWith ManifestFailure.Escapes (ruleOf part root v) ↔
      ∃ s, v = .atom (.text s) ∧ Range.Overlong (trim s) := by
  cases v with
  | atom a =>
    cases a with
    | text s =>
      simp only [atom.injEq, Atom.text.injEq, exists_eq_left',
        ← Constraint.ofText_failsWith_numeral]
      rw [ruleOf]
      cases Constraint.ofText s with
      | ok rule => simp
      | error e =>
        cases e with
        | numeral cause => simp [ManifestFailure.Escapes, ConstraintError.IsNumeral]
        | emptyRange | malformed | emptyBranch | emptyRevision =>
          simp [ManifestFailure.Escapes, ConstraintError.IsNumeral]
    | null =>
      have hany : ruleOf part root (.atom .null) = .ok .any := rfl
      simp [hany]
    | bool | int | float | notANumber | moment | bytes =>
      simp [ruleOf, ManifestFailure.Escapes]
  | list | pairs | set | map | folded => simp [ruleOf, ManifestFailure.Escapes]

/-- An entry of a section that names a root and a rule with a number of too many digits, or whose
    key is no root and cannot be written out. -/
inductive Overlong : Atom × Yaml → Prop
  | rule {root s : Text} (hroot : root ≠ "") (h : Range.Overlong (trim s)) :
    Overlong (.text root, .atom (.text s))
  | key {key : Atom} {v : Yaml} (h : key.IsUnwritable) : Overlong (key, v)

theorem entryOf_failsWith_escapes {e : Atom × Yaml} :
    FailsWith ManifestFailure.Escapes (entryOf part e) ↔ Overlong e := by
  obtain ⟨key, v⟩ := e
  by_cases hkey : ∃ root, key = .text root ∧ root ≠ ""
  · obtain ⟨root, rfl, hroot⟩ := hkey
    rw [entryOf]
    dsimp only
    rw [if_neg hroot, failsWith_map, ruleOf_failsWith_escapes]
    constructor
    · rintro ⟨s, rfl, hlong⟩
      exact .rule hroot hlong
    · rintro (⟨-, hlong⟩ | ⟨⟨n, hn, -⟩⟩)
      · exact ⟨_, rfl, hlong⟩
      · cases hn
  · have hbad : entryOf part (key, v) = .error (badRoot part key) := by
      rw [entryOf]
      split
      · rename_i root hroot
        exact if_pos (by_contra fun hne => hkey ⟨root, hroot, hne⟩)
      · rfl
    rw [hbad, failsWith_error, badRoot_escapes]
    constructor
    · exact .key
    · rintro (⟨hroot, -⟩ | h)
      · exact absurd ⟨_, rfl, hroot⟩ hkey
      · exact h

/-- The section is a mapping in which an entry is overlong and all before it are read. -/
def SectionOverlong (part : RuleSection) (entries : List (Atom × Yaml)) : Prop :=
  ∃ before e after, section? part.name entries = some (.map (before ++ e :: after)) ∧
    (∀ b ∈ before, ∃ rule, entryOf part b = .ok rule) ∧ Overlong e

theorem rulesOf_failsWith_escapes :
    FailsWith ManifestFailure.Escapes (rulesOf part entries) ↔ SectionOverlong part entries := by
  rw [rulesOf, SectionOverlong]
  cases section? part.name entries with
  | none => simp
  | some v =>
    cases v with
    | map es =>
      dsimp only
      simp only [failsWith_mapM, entryOf_failsWith_escapes, Option.some.injEq, map.injEq]
    | atom | list | pairs | set | folded => simp [ManifestFailure.Escapes]

/-! ## The document -/

theorem not_pathsOf_failsWith_escapes (name : Text) :
    ¬ FailsWith ManifestFailure.Escapes (pathsOf name entries) := by
  rw [pathsOf]
  split
  · exact not_failsWith_ok
  · split
    · exact not_failsWith_ok
    · simp [ManifestFailure.Escapes]

/-- A rejection never escapes, whatever its reason. -/
theorem not_mapError_failsWith_escapes {δ α : Type} (x : Except δ α) (wrap : δ → ManifestError) :
    ¬ FailsWith ManifestFailure.Escapes (x.mapError fun e => .rejected (wrap e)) := by
  rw [failsWith_mapError]
  rintro ⟨e, -, hescapes⟩
  exact hescapes (wrap e) rfl

theorem ofEntries_failsWith_escapes : FailsWith ManifestFailure.Escapes (ofEntries entries) ↔
    SectionOverlong .overrides entries ∨
    (∃ rules, rulesOf .overrides entries = .ok rules) ∧ SectionOverlong .constraints entries := by
  simp only [ofEntries, failsWith_bind, rulesOf_failsWith_escapes, not_pathsOf_failsWith_escapes,
    not_mapError_failsWith_escapes, and_false, exists_false, or_false, exists_and_right]

/-- What keeps a document from making a manifest and from being rejected: keys without a meaning
    that have no order, or an overlong entry of a section that is come to. -/
inductive Confounding : Yaml → Prop
  | keys {entries : List (Atom × Yaml)} (h : Unordered (unknownKeys entries)) :
    Confounding (.map entries)
  | overrides {entries : List (Atom × Yaml)} (h : SectionOverlong .overrides entries) :
    Confounding (.map entries)
  | constraints {entries : List (Atom × Yaml)}
    (hoverrides : ∃ rules, rulesOf .overrides entries = .ok rules)
    (h : SectionOverlong .constraints entries) : Confounding (.map entries)

theorem confounding_map : Confounding (.map entries) ↔
    Unordered (unknownKeys entries) ∨ SectionOverlong .overrides entries ∨
    (∃ rules, rulesOf .overrides entries = .ok rules) ∧ SectionOverlong .constraints entries := by
  constructor
  · rintro (h | h | ⟨hoverrides, h⟩)
    · exact Or.inl h
    · exact Or.inr (Or.inl h)
    · exact Or.inr (Or.inr ⟨hoverrides, h⟩)
  · rintro (h | h | ⟨hoverrides, h⟩)
    · exact .keys h
    · exact .overrides h
    · exact .constraints hoverrides h

theorem ofYaml_failsWith_escapes (v : Yaml) :
    FailsWith ManifestFailure.Escapes (ofYaml v).outcome ↔ Confounding v := by
  by_cases hmap : ∃ entries, v = .map entries
  · obtain ⟨entries, rfl⟩ := hmap
    rw [confounding_map, ← ofEntries_failsWith_escapes, ofYaml, Noted.outcome_bind,
      Noted.outcome_lift, failsWith_bind]
    rcases remark_cases entries with ⟨hkeys, hfails⟩ | ⟨hkeys, hok⟩
    · simp [hkeys, hfails]
    · simp [hkeys, hok]
  · have hnot : ¬ Confounding v := by
      rintro (h | h | h)
      · exact hmap ⟨_, rfl⟩
      · exact hmap ⟨_, rfl⟩
      · exact hmap ⟨_, rfl⟩
    refine iff_of_false ?_ hnot
    unfold ofYaml
    split
    · exact not_failsWith_ok
    · exact absurd ⟨_, rfl⟩ hmap
    · simp [ManifestFailure.Escapes]

theorem not_escapes_iff {α : Type} {x : Except ManifestFailure α} :
    ¬ FailsWith ManifestFailure.Escapes x ↔
      (∃ a, x = .ok a) ∨ ∃ e, x = .error (.rejected e) := by
  rw [not_failsWith_iff]
  refine or_congr_right ?_
  simp only [ManifestFailure.Escapes, not_forall, not_not]
  constructor
  · rintro ⟨_, he, e, rfl⟩
    exact ⟨e, he⟩
  · rintro ⟨e, he⟩
    exact ⟨_, he, e, rfl⟩

/-- **How reading a manifest ends.** A document makes a manifest or is rejected with a manifest
    error, unless it has keys without a meaning that have no order, or a rule or a key with too many
    digits in a section of rules, where all entries before it are read. -/
theorem ofYaml_answers (v : Yaml) :
    ((∃ m, (ofYaml v).outcome = .ok m) ∨ ∃ e, (ofYaml v).outcome = .error (.rejected e)) ↔
      ¬ Confounding v := by
  rw [← ofYaml_failsWith_escapes, not_escapes_iff]

/-- A document with a rule that has too many digits. -/
def overlongDocument : Yaml :=
  .map [(.text "constraints",
    .map [(.text "a", .atom (.text (Text.ofList Range.caretOnes)))])]

/-- Keys of which one is a number and one a text have no order, and a rule may have a number with
    too many digits: no manifest is made of such documents, and they are not rejected. -/
theorem ofYaml_escapes :
    (ofYaml (.map [(.int 1, .atom .null), (.text "x", .atom .null)])).outcome =
      .error .unordered ∧
    ¬ ((∃ m, (ofYaml overlongDocument).outcome = .ok m) ∨
      ∃ e, (ofYaml overlongDocument).outcome = .error (.rejected e)) := by
  refine ⟨rfl, ?_⟩
  have hentry : Overlong (.text "a", .atom (.text (Text.ofList Range.caretOnes))) :=
    .rule (by decide) Range.overlong_caretOnes
  rw [← not_escapes_iff, not_not, ofYaml_failsWith_escapes]
  exact .constraints ⟨[], rfl⟩ ⟨[], _, [], rfl, by simp, hentry⟩

end Manifest

end LockFit
