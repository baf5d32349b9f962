import LockFit.Manifest.Basic
import LockFit.Proofs.ImportPath.Segments

/-
  The rules of a section.
  Look-up answers with the entries (`get?_eq_some`). Every root that a section keeps has a segment
  and no slash at its end (`segments_ne_nil`, `dropSlashes_root`). A list of entries makes a section
  exactly if the roots, once their slashes at the end are dropped, are not empty and all different,
  and then the section is the list with these roots (`ofEntries_eq_ok`). A manifest is accepted if
  its two sections are (`ofRules_eq_ok`).
-/

namespace LockFit.Rules

open ImportPath

/-! ## Look-up -/

theorem look_eq_some {es : List (Text × Constraint)} (h : (es.map Prod.fst).Nodup)
    {root : Text} {rule : Constraint} : look root es = some rule ↔ (root, rule) ∈ es := by
  induction es with
  | nil => simp [look]
  | cons e es ih =>
    rw [List.map_cons, List.nodup_cons] at h
    by_cases he : e.1 = root
    · subst he
      have hnot : (e.1, rule) ∉ es := fun hm => h.1 (List.mem_map.2 ⟨_, hm, rfl⟩)
      rw [look, if_pos rfl, Option.some.injEq, List.mem_cons, or_iff_left hnot, Prod.ext_iff]
      exact ⟨fun hrule => ⟨rfl, hrule.symm⟩, fun hrule => hrule.2.symm⟩
    · have hne : (root, rule) ≠ e := fun hm => he (congrArg Prod.fst hm).symm
      rw [look, if_neg he, ih h.2, List.mem_cons, or_iff_right hne]

variable {rules : Rules} {root : Text}

theorem get?_eq_some {rule : Constraint} :
    rules.get? root = some rule ↔ (root, rule) ∈ rules.entries :=
  look_eq_some rules.distinct

theorem mem_roots : root ∈ rules.roots ↔ ∃ rule, rules.get? root = some rule := by
  simp [roots, get?_eq_some]

theorem get?_eq_none : rules.get? root = none ↔ root ∉ rules.roots := by
  rw [mem_roots, Option.eq_none_iff_forall_ne_some, not_exists]

/-- The entries make the section. -/
theorem ext_entries {rules rules' : Rules} (h : rules.entries = rules'.entries) :
    rules = rules' := by
  cases rules
  cases rules'
  cases h
  rfl

/-! ## Roots -/

theorem isRuleRoot (h : root ∈ rules.roots) : IsRuleRoot root := by
  obtain ⟨e, he, rfl⟩ := List.mem_map.1 h
  exact rules.proper e he

theorem dropSlashes_root (h : root ∈ rules.roots) : dropSlashes root = root := (isRuleRoot h).2

theorem segments_ne_nil (h : root ∈ rules.roots) : segments root ≠ [] := by
  intro hnil
  obtain ⟨hne, hdrop⟩ := isRuleRoot h
  rw [← hdrop] at hne
  exact hne (dropSlashes_eq_empty.2 (segments_eq_nil.1 hnil))

/-! ## Sections made of entries -/

/-- An entry as a section keeps it. -/
def kept (e : Text × Constraint) : Text × Constraint := (dropSlashes e.1, e.2)

variable {part : RuleSection} {e : Text × Constraint} {rules' : Rules}

theorem add_eq_ok : add part rules e = .ok rules' ↔
    (kept e).1 ≠ "" ∧ (kept e).1 ∉ rules.roots ∧ rules'.entries = rules.entries ++ [kept e] := by
  unfold add kept
  dsimp only
  by_cases hne : dropSlashes e.1 = ""
  · simp [hne]
  · by_cases hin : dropSlashes e.1 ∈ rules.roots
    · simp [hne, hin]
    · rw [dif_neg hne, dif_neg hin, Except.ok.injEq]
      simp only [hne, hin, not_false_eq_true, true_and, ne_eq]
      constructor
      · rintro rfl
        rfl
      · exact fun h => ext_entries h.symm

/-- An entry is refused for an empty root, or else for one that the section keeps already. -/
theorem add_eq_error {cause : RuleError} : add part rules e = .error cause ↔
    (kept e).1 = "" ∧ cause = .emptyRoot part e.1 ∨
    (kept e).1 ≠ "" ∧ (kept e).1 ∈ rules.roots ∧ cause = .repeatedRoot part (kept e).1 := by
  unfold add kept
  dsimp only
  by_cases hne : dropSlashes e.1 = ""
  · simp [hne, eq_comm]
  · by_cases hin : dropSlashes e.1 ∈ rules.roots
    · simp [hne, hin, eq_comm]
    · simp [hne, hin]

/-- A run of additions. -/
theorem foldlM_add_eq_ok {es : List (Text × Constraint)} :
    es.foldlM (add part) rules = .ok rules' ↔ (∀ e ∈ es, (kept e).1 ≠ "") ∧
      (rules.roots ++ (es.map kept).map Prod.fst).Nodup ∧
      rules'.entries = rules.entries ++ es.map kept := by
  induction es generalizing rules with
  | nil =>
    have hnodup : rules.roots.Nodup := rules.distinct
    simp only [List.foldlM_nil, List.map_nil, List.append_nil, hnodup, List.not_mem_nil,
      false_implies, implies_true, true_and]
    exact ⟨fun h => (congrArg entries (Except.ok.inj h)).symm,
      fun h => congrArg Except.ok (ext_entries h.symm)⟩
  | cons e es ih =>
    rw [List.foldlM_cons, List.forall_mem_cons, List.map_cons, List.map_cons]
    cases hadd : add part rules e with
    | error cause =>
      refine iff_of_false (fun h => by cases h) ?_
      rintro ⟨⟨hne, -⟩, hnodup, -⟩
      rcases add_eq_error.1 hadd with ⟨hempty, -⟩ | ⟨-, hin, -⟩
      · exact hne hempty
      · exact (List.nodup_append.1 hnodup).2.2 _ hin _ List.mem_cons_self rfl
    | ok next =>
      obtain ⟨hne, -, hentries⟩ := add_eq_ok.1 hadd
      have hroots : next.roots = rules.roots ++ [(kept e).1] := by
        rw [roots, hentries, List.map_append]
        rfl
      change es.foldlM (add part) next = .ok rules' ↔ _
      rw [ih, hroots, hentries, List.append_assoc, List.append_assoc, List.singleton_append,
        List.singleton_append]
      simp only [hne, ne_eq, not_false_eq_true, true_and]

theorem ofEntries_eq_ok {es : List (Text × Constraint)} :
    ofEntries part es = .ok rules ↔ (∀ e ∈ es, (kept e).1 ≠ "") ∧
      ((es.map kept).map Prod.fst).Nodup ∧ rules.entries = es.map kept :=
  foldlM_add_eq_ok

theorem roots_of_ofEntries {es : List (Text × Constraint)} (h : ofEntries part es = .ok rules) :
    rules.roots = es.map fun e => dropSlashes e.1 := by
  rw [roots, (ofEntries_eq_ok.1 h).2.2, List.map_map]
  rfl

end LockFit.Rules

namespace LockFit.Manifest

theorem ofRules_eq_ok {overrides constraints : List (Text × Constraint)} {ignored : IgnoreRules}
    {required : List Text} {m : Manifest} :
    ofRules overrides constraints ignored required = .ok m ↔
      Rules.ofEntries .overrides overrides = .ok m.overrides ∧
      Rules.ofEntries .constraints constraints = .ok m.constraints ∧
      m.ignored = ignored ∧ m.required = .ofList required := by
  rw [ofRules]
  cases Rules.ofEntries .overrides overrides with
  | error cause => simp [bind, Except.bind]
  | ok os =>
    cases Rules.ofEntries .constraints constraints with
    | error cause => simp [bind, Except.bind]
    | ok cs =>
      obtain ⟨os', cs', ignored', required'⟩ := m
      simp only [bind, Except.bind, pure, Except.pure, Except.ok.injEq, mk.injEq]
      simp only [eq_comm]

end LockFit.Manifest
