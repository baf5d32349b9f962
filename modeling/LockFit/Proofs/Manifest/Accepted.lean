import LockFit.Proofs.Manifest.Construction

/-
  Which documents are manifests.
  `IsReadable` says what the entries of a document need, part by part (`ofYaml_isOk`). A section is
  looked at only if it counts as true, so one that counts as false may be of any shape and declares
  nothing (`declaresOn_of_ofEntries`). `HasShapes` says of every section that it has its shape or is
  absent, in whatever sense: it holds of all documents that are read if values that count as false
  are absent, but not if only null is (`ofYaml_shapes`, `ofYaml_misshapen`).
-/

namespace LockFit.Manifest

open Yaml

variable {part : RuleSection} {name : Text} {entries : List (Atom × Yaml)} {v : Yaml}
  {m : Manifest}

/-! ## Acceptance -/

/-- The names of the sections that list import paths. -/
def pathSections : List Text := ["ignored", "required"]

/-- What makes a manifest of the entries of a document: the keys without a meaning have an order,
    the entries of each section of rules write rules that make a section, and import paths are
    listed. -/
structure IsReadable (entries : List (Atom × Yaml)) : Prop where
  keys : ¬ Unordered (unknownKeys entries)
  rules : ∀ part : RuleSection, ∃ given,
    WritesRules part.name entries given ∧ Rules.Acceptable given
  paths : ∀ name ∈ pathSections, ∃ paths, HasPaths name entries paths

theorem isReadable_iff : IsReadable entries ↔
    ¬ Unordered (unknownKeys entries) ∧ ∃ m, ofEntries entries = .ok m := by
  constructor
  · intro h
    obtain ⟨os, hos, ho⟩ := h.rules .overrides
    obtain ⟨cs, hcs, hc⟩ := h.rules .constraints
    obtain ⟨ignored, hignored⟩ := h.paths "ignored" (by decide)
    obtain ⟨required, hrequired⟩ := h.paths "required" (by decide)
    obtain ⟨m, hm⟩ := ofRules_isOk.2 ⟨ho, hc⟩
    exact ⟨h.keys, m,
      ofEntries_eq_ok.2 ⟨os, cs, ignored, required, hos, hcs, hignored, hrequired, hm⟩⟩
  · rintro ⟨hkeys, m, hm⟩
    obtain ⟨os, cs, ignored, required, hos, hcs, hignored, hrequired, hm⟩ := ofEntries_eq_ok.1 hm
    obtain ⟨ho, hc⟩ := ofRules_isOk.1 ⟨m, hm⟩
    refine ⟨hkeys, RuleSection.forall_iff.2 ⟨⟨os, hos, ho⟩, ⟨cs, hcs, hc⟩⟩, ?_⟩
    rw [pathSections, List.forall_mem_cons, List.forall_mem_singleton]
    exact ⟨⟨ignored, hignored⟩, ⟨required, hrequired⟩⟩

/-- The document is null or a mapping, with entries that make a manifest. -/
def IsDocument (v : Yaml) : Prop := ∃ entries, HasEntries v entries ∧ IsReadable entries

theorem ofYaml_isOk : (∃ m, (ofYaml v).outcome = .ok m) ↔ IsDocument v := by
  simp only [ofYaml_eq_ok, IsDocument, isReadable_iff]
  constructor
  · rintro ⟨m, entries, hentries, hkeys, hm⟩
    exact ⟨entries, hentries, hkeys, m, hm⟩
  · rintro ⟨entries, hentries, hkeys, m, hm⟩
    exact ⟨m, entries, hentries, hkeys, hm⟩

/-! ## Shapes -/

/-- The value is a mapping of roots to texts of rules. -/
def IsRules (v : Yaml) : Prop :=
  ∃ es, v = .map es ∧ ∀ e ∈ es, (∃ root, e.1 = .text root ∧ root ≠ "") ∧ ∃ s, IsRuleText e.2 s

/-- The value is a list of texts; a list of pairs is one if it is empty. -/
def IsPaths (v : Yaml) : Prop := (∃ paths, IsTexts v paths) ∨ v = .pairs []

/-- Every section is missing, has a value that means the same, or has its shape. -/
structure HasShapes (absent : Yaml → Prop) (entries : List (Atom × Yaml)) : Prop where
  rules : ∀ (part : RuleSection) (v : Yaml), find? part.name entries = some v →
    absent v ∨ IsRules v
  paths : ∀ name ∈ pathSections, ∀ v : Yaml, find? name entries = some v →
    absent v ∨ IsPaths v

/-- Every section that counts as false is null or an empty collection of its own sort. -/
structure OffAreEmpty (entries : List (Atom × Yaml)) : Prop where
  rules : ∀ (part : RuleSection) (v : Yaml), find? part.name entries = some v →
    v.isTruthy = false → v = .atom .null ∨ v = .map []
  paths : ∀ name ∈ pathSections, ∀ v : Yaml, find? name entries = some v →
    v.isTruthy = false → v = .atom .null ∨ v = .list [] ∨ v = .pairs []

theorem WritesRules.shape {given : List (Text × Constraint)}
    (h : WritesRules name entries given) (hv : find? name entries = some v) :
    v.isTruthy = false ∨ IsRules v := by
  obtain ⟨es, hes | ⟨hoff, -⟩, hwrites⟩ := h
  · have hwritten : ∀ e ∈ es, ∃ rule, entryOf .overrides e = .ok rule :=
      mapM_isOk.1 ⟨given, mapM_eq_ok.2 (hwrites.imp fun _ _ => entryOf_eq_ok.2)⟩
    refine Or.inr ⟨es, Option.some.inj (hv.symm.trans hes), fun e he => ?_⟩
    obtain ⟨rule, hrule⟩ := hwritten e he
    have hrule := entryOf_eq_ok.1 hrule
    exact ⟨⟨rule.1, hrule.key, hrule.key_ne⟩, hrule.value.imp fun _ hs => hs.1⟩
  · exact Or.inl (hoff v hv)

theorem HasPaths.shape {paths : List Text} (h : HasPaths name entries paths)
    (hv : find? name entries = some v) : v.isTruthy = false ∨ IsPaths v := by
  obtain ⟨w, hw, hpaths⟩ | ⟨hoff, -⟩ := h
  · cases hv.symm.trans hw
    exact Or.inr (Or.inl ⟨paths, hpaths⟩)
  · exact Or.inl (hoff v hv)

theorem IsReadable.hasShapes (h : IsReadable entries) :
    HasShapes (fun w => w.isTruthy = false) entries where
  rules part v hv := by
    obtain ⟨given, hgiven, -⟩ := h.rules part
    exact hgiven.shape hv
  paths name hname v hv := by
    obtain ⟨paths, hpaths⟩ := h.paths name hname
    exact hpaths.shape hv

theorem IsRules.eq_empty (h : IsRules v) (hfalse : v.isTruthy = false) : v = .map [] := by
  obtain ⟨es, rfl, -⟩ := h
  simpa [isTruthy] using hfalse

theorem IsPaths.eq_empty (h : IsPaths v) (hfalse : v.isTruthy = false) :
    v = .list [] ∨ v = .pairs [] := by
  rcases h with ⟨paths, rfl⟩ | rfl
  · exact Or.inl (by simpa [isTruthy] using hfalse)
  · exact Or.inr rfl

/-- If all sections have their shapes or count as false, then they have their shapes or are null
    exactly if those that count as false are empty. -/
theorem HasShapes.null_iff (h : HasShapes (fun w => w.isTruthy = false) entries) :
    HasShapes (fun w => w = .atom .null) entries ↔ OffAreEmpty entries := by
  constructor
  · intro hnull
    constructor
    · exact fun part v hv hfalse => (hnull.rules part v hv).imp_right fun h => h.eq_empty hfalse
    · exact fun name hname v hv hfalse =>
        (hnull.paths name hname v hv).imp_right fun h => h.eq_empty hfalse
  · intro hempty
    constructor
    · intro part v hv
      rcases h.rules part v hv with hfalse | hrules
      · exact (hempty.rules part v hv hfalse).imp_right fun hmap => ⟨[], hmap, by simp⟩
      · exact Or.inr hrules
    · intro name hname v hv
      rcases h.paths name hname v hv with hfalse | hpaths
      · exact (hempty.paths name hname v hv hfalse).imp_right fun hlist =>
          hlist.imp_left fun hlist => ⟨[], hlist⟩
      · exact Or.inr hpaths

/-! ## Sections that are off -/

/-- The manifest declares only what is on in the entries. -/
structure DeclaresOn (entries : List (Atom × Yaml)) (m : Manifest) : Prop where
  rules : ∀ part : RuleSection, IsOff part.name entries → m.rules part = .empty
  ignored : IsOff "ignored" entries → m.ignored = .empty
  required : IsOff "required" entries → m.required = .empty

theorem WritesRules.eq_nil_of_off {given : List (Text × Constraint)}
    (h : WritesRules name entries given) (hoff : IsOff name entries) : given = [] := by
  obtain ⟨es, hes, hwrites⟩ := h
  rw [(hasRules_of_off hoff).1 hes] at hwrites
  exact List.forall₂_nil_left_iff.1 hwrites

theorem declaresOn_of_ofEntries (h : ofEntries entries = .ok m) : DeclaresOn entries m := by
  obtain ⟨os, cs, ignored, required, hos, hcs, hignored, hrequired, hm⟩ := ofEntries_eq_ok.1 h
  obtain ⟨ho, hc, hi, hr⟩ := ofRules_eq_ok.1 hm
  constructor
  · refine RuleSection.forall_iff.2 ⟨fun hoff => ?_, fun hoff => ?_⟩
    · rw [hos.eq_nil_of_off hoff] at ho
      exact (Except.ok.inj ho).symm
    · rw [hcs.eq_nil_of_off hoff] at hc
      exact (Except.ok.inj hc).symm
  · intro hoff
    rw [hi, (hasPaths_of_off hoff).1 hignored]
    rfl
  · intro hoff
    rw [hr, (hasPaths_of_off hoff).1 hrequired]
    rfl

/-- **The shapes of the sections.** A document makes a manifest exactly if it is null or a mapping
    whose entries are readable. Then each of its sections has its shape or counts as false, and one
    that counts as false declares nothing, whatever it is. So a section may be of the wrong shape,
    but only if it is false, zero, or an empty text or collection. -/
theorem ofYaml_shapes (v : Yaml) :
    ((∃ m, (ofYaml v).outcome = .ok m) ↔ IsDocument v) ∧
    ∀ m, (ofYaml v).outcome = .ok m → ∃ entries, HasEntries v entries ∧ DeclaresOn entries m ∧
      HasShapes (fun w => w.isTruthy = false) entries ∧
      (HasShapes (fun w => w = .atom .null) entries ↔ OffAreEmpty entries) := by
  refine ⟨ofYaml_isOk, fun m hm => ?_⟩
  obtain ⟨entries, hentries, hkeys, hm⟩ := ofYaml_eq_ok.1 hm
  have hshapes := (isReadable_iff.2 ⟨hkeys, m, hm⟩).hasShapes
  exact ⟨entries, hentries, declaresOn_of_ofEntries hm, hshapes, hshapes.null_iff⟩

/-- Constraints that are an empty list, and ignored paths that are false. -/
def misshapenDocument : Yaml :=
  .map [(.text "constraints", .list []), (.text "ignored", .atom (.bool false))]

/-- Sections of the wrong shape are not rejected if they count as false: the document makes the
    manifest that declares nothing. -/
theorem ofYaml_misshapen : (ofYaml misshapenDocument).outcome = .ok .empty ∧
    ∀ entries, HasEntries misshapenDocument entries →
      ¬ HasShapes (fun w => w = .atom .null) entries := by
  refine ⟨rfl, ?_⟩
  rintro entries (hentries | ⟨hnull, -⟩) hshapes
  · cases hentries
    rcases hshapes.rules .constraints (.list []) rfl with hnull | ⟨es, hmap, -⟩
    · cases hnull
    · cases hmap
  · cases hnull

end LockFit.Manifest
