import LockFit.Proofs.Manifest.Rules
import LockFit.Proofs.Satisfaction.Verdicts

/-
  Slashes at the end of a root.
  A manifest drops them, so its rules may be written either way: the manifest is the same
  (`ofRules_respelled`). A lock keeps them, and no rule is ever found under a root that ends in one
  (`not_governs_of_slash`). So the spelling of a locked root decides whether a rule applies to it,
  and `satisfies_respelled` says where that makes no difference: where no rule is in force that
  does not allow the version. `satisfies_slash_escapes` is a lock that passes in one spelling and
  not in the other.
-/

namespace LockFit

open ImportPath

/-! ## The same roots, spelled otherwise -/

/-- The same rules in the same order, under roots that differ at most in the slashes at the end. -/
def Rules.Respelled (es es' : List (Text × Constraint)) : Prop :=
  List.Forall₂ (fun e e' => dropSlashes e.1 = dropSlashes e'.1 ∧ e.2 = e'.2) es es'

/-- The same lock but for the slashes at the end of roots. -/
structure Lock.Respelled (lock lock' : Lock) : Prop where
  projects : List.Forall₂ (fun p p' => dropSlashes p.root = dropSlashes p'.root ∧
    p.version = p'.version ∧ p.packages = p'.packages) lock.projects lock'.projects
  imports : lock.inputImports = lock'.inputImports

/-! ## Manifests -/

namespace Rules

variable {es es' : List (Text × Constraint)}

theorem Respelled.map_kept (h : Respelled es es') : es.map kept = es'.map kept := by
  induction h with
  | nil => rfl
  | cons hfirst _ ih => rw [List.map_cons, List.map_cons, kept, kept, hfirst.1, hfirst.2, ih]

theorem ofEntries_respelled (h : Respelled es es') {part : RuleSection} {rules : Rules} :
    ofEntries part es = .ok rules ↔ ofEntries part es' = .ok rules := by
  have hroots (es : List (Text × Constraint)) :
      (∀ e ∈ es, (kept e).1 ≠ "") ↔ ∀ k ∈ es.map kept, k.1 ≠ "" := by
    rw [List.forall_mem_map]
  rw [ofEntries_eq_ok, ofEntries_eq_ok, hroots, hroots, h.map_kept]

end Rules

namespace Manifest

theorem ofRules_respelled
    {overrides overrides' constraints constraints' : List (Text × Constraint)}
    (ho : Rules.Respelled overrides overrides') (hc : Rules.Respelled constraints constraints')
    (ignored : IgnoreRules) (required : List Text) (m : Manifest) :
    ofRules overrides constraints ignored required = .ok m ↔
      ofRules overrides' constraints' ignored required = .ok m := by
  rw [ofRules_eq_ok, ofRules_eq_ok, Rules.ofEntries_respelled ho, Rules.ofEntries_respelled hc]

/-- No rule is kept under a root that ends in a slash. -/
theorem not_governs_of_slash {m : Manifest} {reached : List Text} {root : Text}
    (h : dropSlashes root ≠ root) (rule : Constraint) : ¬ m.Governs reached root rule := by
  rintro (hrule | ⟨-, -, hrule⟩)
  · exact h (Rules.dropSlashes_root (Rules.mem_roots.2 ⟨rule, hrule⟩))
  · exact h (Rules.dropSlashes_root (Rules.mem_roots.2 ⟨rule, hrule⟩))

end Manifest

/-! ## Locks -/

/-- For the two projects, which differ at most in their roots, the roots make no difference: they
    are the same, or each rule that counts for one of them allows the version. -/
def Manifest.Tolerates (m : Manifest) (reached : List Text) (p p' : LockedProject) : Prop :=
  p.root = p'.root ∨ ∀ rule, m.Governs reached p.root rule ∨ m.Governs reached p'.root rule →
    rule.allows p.version = .ok true

theorem Manifest.Tolerates.sameEffect {m : Manifest} {reached : List Text}
    {p p' : LockedProject} (h : m.Tolerates reached p p') (hversion : p.version = p'.version) :
    let verdict := m.verdict (effectual (some m) (requiredImports (some m) reached).toList)
    Mismatches.SameEffect verdict verdict p p' := by
  rcases h with hroot | hallows
  · exact ⟨verdict_congr hroot hversion, Or.inl hroot⟩
  · have hfits := verdict_eq_fits.2 fun rule hrule => hallows rule (Or.inl hrule)
    have hfits' := verdict_eq_fits.2 fun rule hrule => hversion ▸ hallows rule (Or.inr hrule)
    exact ⟨hfits.trans hfits'.symm, Or.inr hfits⟩

/-- A check goes the same way for a lock whose roots are spelled otherwise where no rule that is in
    force minds. -/
theorem Lock.Respelled.outcome_eq {lock lock' : Lock} (h : lock.Respelled lock') {m : Manifest}
    {reach : ReachQuery → List Text}
    (hrules : ∀ p p', (p, p') ∈ lock.projects.zip lock'.projects →
      m.Tolerates (reach ⟨true, true, some m.ignored⟩) p p') :
    (Lock.satisfies (some lock) (some m) reach).outcome =
      (Lock.satisfies (some lock') (some m) reach).outcome := by
  obtain ⟨hlength, hpairs⟩ := List.forall₂_iff_zip.1 h.projects
  let required := Manifest.requiredImports (some m) (reach (Manifest.reachQuery (some m)))
  let effectual := Manifest.effectual (some m) required.toList
  have hsame : Mismatches.ofLock lock (some m) effectual =
      Mismatches.ofLock lock' (some m) effectual :=
    Mismatches.ofLock_congr (List.forall₂_iff_zip.2 ⟨hlength, fun hmem =>
      (hrules _ _ hmem).sameEffect (hpairs hmem).2.1⟩)
  rw [Lock.outcome_satisfies, Lock.outcome_satisfies, h.imports]
  dsimp only
  rw [hsame]

/-- **Slashes at the end of a root.** Rules may be spelled either way: what is accepted is the same
    manifest. However the locked roots are spelled, a check that comes to an end finds the same
    missing and excess imports. But no rule counts for a locked root that ends in a slash, so the
    check is sure to go the same way only where each rule that counts for a root, in the one
    spelling or the other, allows the version, or the spelling is kept. -/
theorem satisfies_respelled
    {overrides overrides' constraints constraints' : List (Text × Constraint)}
    (ho : Rules.Respelled overrides overrides') (hc : Rules.Respelled constraints constraints')
    {lock lock' : Lock} (hlock : lock.Respelled lock') (ignored : IgnoreRules)
    (required : List Text) :
    (∀ m, Manifest.ofRules overrides constraints ignored required = .ok m ↔
      Manifest.ofRules overrides' constraints' ignored required = .ok m) ∧
    ∀ (m : Manifest) (reach : ReachQuery → List Text),
      (∀ s s', (Lock.satisfies (some lock) (some m) reach).outcome = .ok s →
        (Lock.satisfies (some lock') (some m) reach).outcome = .ok s' →
        s.missing = s'.missing ∧ s.excess = s'.excess) ∧
      (∀ root, dropSlashes root ≠ root → ∀ rule,
        ¬ m.Governs (reach ⟨true, true, some m.ignored⟩) root rule) ∧
      ((∀ p p', (p, p') ∈ lock.projects.zip lock'.projects →
          m.Tolerates (reach ⟨true, true, some m.ignored⟩) p p') →
        (Lock.satisfies (some lock) (some m) reach).outcome =
          (Lock.satisfies (some lock') (some m) reach).outcome) := by
  refine ⟨Manifest.ofRules_respelled ho hc ignored required, fun m reach => ⟨?_, ?_, ?_⟩⟩
  · intro s s' hs hs'
    obtain ⟨hmissing, hexcess⟩ := Lock.imports_of_satisfies hs
    obtain ⟨hmissing', hexcess'⟩ := Lock.imports_of_satisfies hs'
    rw [hmissing, hexcess, hmissing', hexcess', hlock.imports]
    exact ⟨rfl, rfl⟩
  · exact fun root h => Manifest.not_governs_of_slash h
  · exact fun hrules => hlock.outcome_eq hrules

/-- Every rule is spelled in both ways. The locked roots whose spelling changes are one under a rule
    that allows every version and one without a rule; on the third the rule is broken. -/
theorem satisfies_respelled_tolerated :
    let lock : Lock := ⟨[⟨"a/b", Version.ofText "v1.0.0", []⟩, ⟨"c/", .branch "main", []⟩,
      ⟨"d//", .revision "5e1f", []⟩], ["a/b/x", "c/y"], by decide⟩
    let lock' : Lock := ⟨[⟨"a/b", Version.ofText "v1.0.0", []⟩, ⟨"c", .branch "main", []⟩,
      ⟨"d", .revision "5e1f", []⟩], ["a/b/x", "c/y"], by decide⟩
    let reach : ReachQuery → List Text := fun _ => ["a/b/x", "c/y"]
    ∃ m s, Manifest.ofRules [("c/", .any)] [("a/b", .none)] .empty [] = .ok m ∧
      Manifest.ofRules [("c", .any)] [("a/b//", .none)] .empty [] = .ok m ∧
      (Lock.satisfies (some lock) (some m) reach).outcome = .ok s ∧
      (Lock.satisfies (some lock') (some m) reach).outcome = .ok s ∧
      s.constraints.keys = (["a/b"] : List Text) := by
  intro lock lock' reach
  have hlock : lock.Respelled lock' :=
    ⟨.cons (by decide +kernel) (.cons (by decide +kernel) (.cons (by decide +kernel) .nil)), rfl⟩
  have hoverrides : Rules.Respelled [("c/", .any)] [("c", .any)] :=
    .cons (by decide +kernel) .nil
  have hconstraints : Rules.Respelled [("a/b", .none)] [("a/b//", .none)] :=
    .cons (by decide +kernel) .nil
  obtain ⟨hmanifest, hcheck⟩ := satisfies_respelled hoverrides hconstraints hlock .empty []
  refine ⟨_, _, rfl, (hmanifest _).1 rfl, rfl, ?_, by decide +kernel⟩
  obtain ⟨-, hslash, hsame⟩ := hcheck _ reach
  refine (hsame ?_).symm.trans rfl
  intro p p' hmem
  obtain ⟨rfl, rfl⟩ | ⟨rfl, rfl⟩ | ⟨rfl, rfl⟩ : _ ∨ _ ∨ _ := by simpa [lock, lock'] using hmem
  · exact Or.inl rfl
  · refine Or.inr fun rule hrule => ?_
    rcases hrule with hrule | hoverride | ⟨hnone, -⟩
    · exact absurd hrule (hslash _ (by decide +kernel) _)
    · obtain rfl := Option.some.inj hoverride
      rfl
    · cases hnone
  · refine Or.inr fun rule hrule => ?_
    rcases hrule with hrule | hoverride | ⟨-, -, hconstraint⟩
    · exact absurd hrule (hslash _ (by decide +kernel) _)
    · cases hoverride
    · cases hconstraint

/-- A version that the constraint on `foo` does not allow is not noticed where the locked root is
    spelled `foo/`. -/
theorem satisfies_slash_escapes :
    let lock : Lock := ⟨[⟨"foo/", Version.ofText "v2.0.0", []⟩], ["foo/bar"], by decide⟩
    let lock' : Lock := ⟨[⟨"foo", Version.ofText "v2.0.0", []⟩], ["foo/bar"], by decide⟩
    lock.Respelled lock' ∧
    ∃ m s s', Manifest.ofRules [] [("foo", .exact (Version.ofText "v1.0.0"))] .empty [] = .ok m ∧
      (Lock.satisfies (some lock) (some m) fun _ => ["foo/bar"]).outcome = .ok s ∧
      (Lock.satisfies (some lock') (some m) fun _ => ["foo/bar"]).outcome = .ok s' ∧
      s.passed = true ∧ s'.passed = false ∧ s'.constraints.keys = (["foo"] : List Text) := by
  intro lock lock'
  have hlock : lock.Respelled lock' := ⟨.cons (by decide +kernel) .nil, rfl⟩
  exact ⟨hlock, _, _, _, rfl, rfl, rfl, by decide +kernel⟩

end LockFit
