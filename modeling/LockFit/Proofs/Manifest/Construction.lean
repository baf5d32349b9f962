import LockFit.Proofs.Manifest.Reading
import LockFit.Proofs.Manifest.Rules

/-
  Which rules make a manifest.
  `Rules.Acceptable` says what the roots of a section need, `Rules.Refuses` which fault is found in
  them otherwise (`ofEntries_eq_error`): entries are added one after the other, so the first fault
  counts. A section keeps its entries under their roots without slashes at the end, and there are
  none to drop the second time, so a manifest is made of its own rules (`ofRules_entries`). The
  rules that a document writes are kept in the same way (`ofYaml_stores`).
-/

namespace LockFit

open ImportPath

/-! ## Sections -/

namespace Rules

variable {part : RuleSection} {es : List (Text × Constraint)} {rules : Rules} {cause : RuleError}

/-- The roots make a section: none is empty or made of slashes alone, and no two are equal without
    the slashes at their ends. -/
structure Acceptable (es : List (Text × Constraint)) : Prop where
  proper : ∀ e ∈ es, ∃ c ∈ e.1.toList, c ≠ '/'
  distinct : es.Pairwise fun e e' => dropSlashes e.1 ≠ dropSlashes e'.1

/-- The first entry that cannot be added to those before it, and why. -/
inductive Refuses (part : RuleSection) (es : List (Text × Constraint)) : RuleError → Prop
  | empty {before after : List (Text × Constraint)} {e : Text × Constraint}
    (hsplit : es = before ++ e :: after) (hbefore : Acceptable before)
    (hempty : ∀ c ∈ e.1.toList, c = '/') : Refuses part es (.emptyRoot part e.1)
  | repeated {before after : List (Text × Constraint)} {b e : Text × Constraint}
    (hsplit : es = before ++ e :: after) (hbefore : Acceptable before)
    (hb : b ∈ before) (hsame : dropSlashes b.1 = dropSlashes e.1) :
    Refuses part es (.repeatedRoot part (dropSlashes e.1))

theorem kept_ne_empty {e : Text × Constraint} :
    (kept e).1 ≠ "" ↔ ∃ c ∈ e.1.toList, c ≠ '/' := by
  rw [kept, ne_eq, dropSlashes_eq_empty]
  simp

theorem acceptable_iff : Acceptable es ↔
    (∀ e ∈ es, (kept e).1 ≠ "") ∧ ((es.map kept).map Prod.fst).Nodup := by
  simp only [kept_ne_empty]
  rw [List.map_map, List.Nodup, List.pairwise_map]
  exact ⟨fun h => ⟨h.proper, h.distinct⟩, fun h => ⟨h.1, h.2⟩⟩

theorem ofEntries_eq_ok_iff :
    ofEntries part es = .ok rules ↔ Acceptable es ∧ rules.entries = es.map kept := by
  rw [ofEntries_eq_ok, acceptable_iff, and_assoc]

/-- The section that the entries make. -/
def ofAcceptable (h : Acceptable es) : Rules where
  entries := es.map kept
  distinct := (acceptable_iff.1 h).2
  proper := by
    rw [List.forall_mem_map]
    exact fun e he => ⟨(acceptable_iff.1 h).1 e he, dropSlashes_idem e.1⟩

theorem ofEntries_isOk (part : RuleSection) :
    (∃ rules, ofEntries part es = .ok rules) ↔ Acceptable es := by
  simp only [ofEntries_eq_ok_iff, exists_and_left]
  exact and_iff_left_of_imp fun h => ⟨ofAcceptable h, rfl⟩

/-- The additions stop at the first entry that is refused. -/
theorem ofEntries_eq_error : ofEntries part es = .error cause ↔ Refuses part es cause := by
  rw [ofEntries, foldlM_eq_error]
  constructor
  · rintro ⟨before, e, after, rules, hsplit, hbefore, hadd⟩
    have hacceptable : Acceptable before := (ofEntries_eq_ok_iff.1 hbefore).1
    rcases add_eq_error.1 hadd with ⟨hempty, rfl⟩ | ⟨-, hin, rfl⟩
    · exact .empty hsplit hacceptable (dropSlashes_eq_empty.1 hempty)
    · -- what has been kept are the roots of the entries before
      rw [roots_of_ofEntries hbefore, List.mem_map] at hin
      obtain ⟨b, hb, hsame⟩ := hin
      exact .repeated hsplit hacceptable hb hsame
  · rintro (⟨hsplit, hbefore, hempty⟩ | ⟨hsplit, hbefore, hb, hsame⟩)
    · obtain ⟨rules, hrules⟩ := (ofEntries_isOk part).2 hbefore
      exact ⟨_, _, _, rules, hsplit, hrules,
        add_eq_error.2 (Or.inl ⟨dropSlashes_eq_empty.2 hempty, rfl⟩)⟩
    · obtain ⟨rules, hrules⟩ := (ofEntries_isOk part).2 hbefore
      refine ⟨_, _, _, rules, hsplit, hrules, add_eq_error.2 (Or.inr ⟨?_, ?_, rfl⟩)⟩
      · exact fun hempty => (acceptable_iff.1 hbefore).1 _ hb (hsame.trans hempty)
      · rw [roots_of_ofEntries hrules]
        exact List.mem_map.2 ⟨_, hb, hsame⟩

/-- A section is made of its own entries, which are kept as they are. -/
theorem ofEntries_entries (rules : Rules) : ofEntries part rules.entries = .ok rules := by
  have hkept : rules.entries.map kept = rules.entries := by
    refine (List.map_congr_left fun e he => ?_).trans (List.map_id _)
    exact Prod.ext (rules.proper e he).2 rfl
  rw [ofEntries_eq_ok, hkept]
  refine ⟨fun e he hempty => (rules.proper e he).1 ?_, rules.distinct, rfl⟩
  exact (rules.proper e he).2.symm.trans hempty

/-- A root that is kept has a segment and does not end in a slash. -/
theorem segment_of_mem_roots {root : Text} (h : root ∈ rules.roots) :
    (∃ s ∈ segments root, s ≠ "") ∧ ¬ [Code.scalar '/'] <:+ root.toList := by
  constructor
  · obtain ⟨s, hs⟩ := List.exists_mem_of_ne_nil _ (segments_ne_nil h)
    exact ⟨s, hs, by simpa using (List.mem_filter.1 hs).2⟩
  · rw [← dropSlashes_root h]
    exact not_suffix_dropSlashes root

end Rules

theorem TextSet.ofList_toList (s : TextSet) : ofList s.toList = s :=
  ext_mem fun _ => mem_ofList

/-! ## Manifests -/

theorem RuleSection.forall_iff {p : RuleSection → Prop} :
    (∀ part, p part) ↔ p .overrides ∧ p .constraints := by
  constructor
  · exact fun h => ⟨h .overrides, h .constraints⟩
  · rintro ⟨hoverrides, hconstraints⟩ (_ | _)
    · exact hoverrides
    · exact hconstraints

namespace Manifest

open Yaml

variable {overrides constraints : List (Text × Constraint)} {ignored : IgnoreRules}
  {required : List Text} {m : Manifest} {v : Yaml}

/-- The rules of a section. -/
def rules (m : Manifest) : RuleSection → Rules
  | .overrides => m.overrides
  | .constraints => m.constraints

theorem ofRules_isOk : (∃ m, ofRules overrides constraints ignored required = .ok m) ↔
    Rules.Acceptable overrides ∧ Rules.Acceptable constraints := by
  rw [← Rules.ofEntries_isOk .overrides, ← Rules.ofEntries_isOk .constraints]
  simp only [ofRules_eq_ok]
  constructor
  · rintro ⟨m, ho, hc, -, -⟩
    exact ⟨⟨_, ho⟩, ⟨_, hc⟩⟩
  · rintro ⟨⟨os, ho⟩, ⟨cs, hc⟩⟩
    exact ⟨⟨os, cs, ignored, .ofList required⟩, ho, hc, rfl, rfl⟩

/-- The overrides are looked at first. -/
theorem ofRules_eq_error {cause : RuleError} :
    ofRules overrides constraints ignored required = .error cause ↔
      Rules.Refuses .overrides overrides cause ∨
      Rules.Acceptable overrides ∧ Rules.Refuses .constraints constraints cause := by
  rw [ofRules, ← Rules.ofEntries_eq_error, ← Rules.ofEntries_eq_error,
    ← Rules.ofEntries_isOk .overrides]
  cases Rules.ofEntries .overrides overrides with
  | error e => simp [bind, Except.bind]
  | ok os =>
    cases Rules.ofEntries .constraints constraints with
    | error e => simp [bind, Except.bind]
    | ok cs => simp [bind, Except.bind, pure, Except.pure]

theorem ofRules_entries (m : Manifest) :
    ofRules m.overrides.entries m.constraints.entries m.ignored m.required.toList = .ok m :=
  ofRules_eq_ok.2 ⟨Rules.ofEntries_entries _, Rules.ofEntries_entries _, rfl,
    (TextSet.ofList_toList _).symm⟩

/-! ## Documents -/

/-- The entry is stored as the rule: under its root without slashes at the end, and the rule is the
    one that its text writes. -/
structure Stores (e : Atom × Yaml) (rule : Text × Constraint) : Prop where
  root : ∃ root, e.1 = .text root ∧ rule.1 = dropSlashes root
  rule : ∃ s, IsRuleText e.2 s ∧ Constraint.ofText s = .ok rule.2

/-- The sections of the document have entries that are stored, one by one, as the rules. -/
def StoresRules (v : Yaml) (m : Manifest) : Prop :=
  ∃ entries, HasEntries v entries ∧ ∀ part : RuleSection, ∃ es,
    HasRules part.name entries es ∧ List.Forall₂ Stores es (m.rules part).entries

theorem Writes.stores {e : Atom × Yaml} {rule : Text × Constraint} (h : Writes e rule) :
    Stores e (Rules.kept rule) := ⟨⟨_, h.key, rfl⟩, h.value⟩

theorem ofYaml_stores (h : (ofYaml v).outcome = .ok m) : StoresRules v m := by
  obtain ⟨entries, hentries, -, hm⟩ := ofYaml_eq_ok.1 h
  obtain ⟨os, cs, ignored, required, hos, hcs, -, -, hm⟩ := ofEntries_eq_ok.1 hm
  obtain ⟨hoverrides, hconstraints, -, -⟩ := ofRules_eq_ok.1 hm
  have hstores (part : RuleSection) {given : List (Text × Constraint)}
      (hread : WritesRules part.name entries given) {rules : Rules}
      (hmade : Rules.ofEntries part given = .ok rules) :
      ∃ es, HasRules part.name entries es ∧ List.Forall₂ Stores es rules.entries := by
    obtain ⟨es, hes, hwrites⟩ := hread
    refine ⟨es, hes, ?_⟩
    rw [(Rules.ofEntries_eq_ok_iff.1 hmade).2, List.forall₂_map_right_iff]
    exact hwrites.imp fun _ _ => Writes.stores
  exact ⟨entries, hentries, RuleSection.forall_iff.2
    ⟨hstores .overrides hos hoverrides, hstores .constraints hcs hconstraints⟩⟩

/-- **Construction normalizes the rules.** Roots and rules for the two sections make a manifest
    exactly if in neither a root is empty or made of slashes alone or two roots are the same but
    for slashes at the end; otherwise the first such fault is reported. The manifest has the same
    rules in the same order under the roots without these slashes. Such a root has a segment and
    does not end in a slash, so a manifest is made again of what it holds. A manifest that is read
    from a document has, for each entry of a section, the rule that its text writes. -/
theorem ofRules_normalizes (given : RuleSection → List (Text × Constraint))
    (ignored : IgnoreRules) (required : List Text) :
    ((∃ m, ofRules (given .overrides) (given .constraints) ignored required = .ok m) ↔
      ∀ part, Rules.Acceptable (given part)) ∧
    (∀ cause, ofRules (given .overrides) (given .constraints) ignored required = .error cause ↔
      Rules.Refuses .overrides (given .overrides) cause ∨
      Rules.Acceptable (given .overrides) ∧
        Rules.Refuses .constraints (given .constraints) cause) ∧
    (∀ m, ofRules (given .overrides) (given .constraints) ignored required = .ok m →
      ∀ part, (m.rules part).entries = (given part).map fun e => (dropSlashes e.1, e.2)) ∧
    (∀ m : Manifest, (∀ part, ∀ root ∈ (m.rules part).roots,
        (∃ s ∈ segments root, s ≠ "") ∧ ¬ [Code.scalar '/'] <:+ root.toList) ∧
      ofRules m.overrides.entries m.constraints.entries m.ignored m.required.toList = .ok m) ∧
    ∀ v m, (ofYaml v).outcome = .ok m → StoresRules v m := by
  refine ⟨?_, fun cause => ofRules_eq_error, fun m hm => ?_, fun m => ⟨fun part root hroot => ?_,
    ofRules_entries m⟩, fun v m => ofYaml_stores⟩
  · rw [ofRules_isOk, RuleSection.forall_iff]
  · obtain ⟨hoverrides, hconstraints, -, -⟩ := ofRules_eq_ok.1 hm
    exact RuleSection.forall_iff.2 ⟨(Rules.ofEntries_eq_ok_iff.1 hoverrides).2,
      (Rules.ofEntries_eq_ok_iff.1 hconstraints).2⟩
  · exact Rules.segment_of_mem_roots hroot

/-- Two spellings of one root do not make a section. -/
example : ofRules [] [("a/", .any), ("b", .none), ("a", .any)] .empty [] =
    .error (.repeatedRoot .constraints "a") := rfl

end Manifest

end LockFit
