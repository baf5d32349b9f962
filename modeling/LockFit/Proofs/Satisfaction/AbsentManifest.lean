import LockFit.Proofs.Manifest.Reading
import LockFit.Proofs.Satisfaction.Verdicts

/-
  A manifest that is not there.
  Wherever a check looks at the manifest, none is the same as one that declares nothing: nothing is
  ignored and nothing more is required (`PackageTree.graph_absent`), no import falls under a root
  (`Rules.effectual_empty`), and no locked version breaks a rule (`Mismatches.ofLock_empty`). So the
  two checks are the same, with their notices (`Lock.satisfiesTree_empty`). A document in which the
  sections are null or empty makes no other manifest (`Manifest.DeclaresNothing.ofYaml_eq_ok`).
-/

namespace LockFit

/-! ## Packages -/

namespace PackageTree

variable (tree : PackageTree)

theorem graph_absent : tree.graph (Manifest.reachQuery (some .empty)) =
    tree.graph (Manifest.reachQuery none) := rfl

theorem flattenReach_absent : tree.flattenReach (Manifest.reachQuery (some .empty)) =
    tree.flattenReach (Manifest.reachQuery none) := by
  rw [flattenReach, reach, graph_absent]
  rfl

theorem reachNotices_absent : tree.reachNotices (Manifest.reachQuery (some .empty)) =
    tree.reachNotices (Manifest.reachQuery none) := rfl

end PackageTree

/-! ## Rules -/

theorem PrefixIndex.longestPrefix_empty (path : Text) : empty.longestPrefix path = none := by
  rw [longestPrefix]
  cases ImportPath.segments path with
  | nil => rfl
  | cons s rest => rfl

theorem Rules.effectual_empty (imports : List Text) : Rules.empty.effectual imports = .empty := by
  have hnone : imports.filterMap PrefixIndex.empty.longestPrefix = [] :=
    List.filterMap_eq_nil_iff.2 fun path _ => PrefixIndex.longestPrefix_empty path
  change TextSet.ofList (imports.filterMap PrefixIndex.empty.longestPrefix) = .empty
  rw [hnone]
  rfl

theorem Mismatches.ofLock_empty (lock : Lock) (effectual : TextSet) :
    ofLock lock (some .empty) effectual = .ok empty := by
  have hverdicts : (lock.projects.mapM fun p =>
      (Manifest.empty.verdict effectual p).map fun v => (p.root, v)) =
      .ok (lock.projects.map fun p => (p.root, Verdict.fits)) :=
    List.mapM_pure
  have hcounted : counted (lock.projects.map fun p => (p.root, Verdict.fits)) = [] := by
    simp [counted]
  rw [ofLock, hverdicts]
  change Except.ok (ofVerdicts (lock.projects.map fun p => (p.root, Verdict.fits))) = _
  rw [← ofVerdicts_counted, hcounted]
  rfl

/-! ## The check -/

/-- The check without a manifest is that with one that declares nothing. -/
theorem Lock.satisfiesTree_empty (lock : Option Lock) (tree : PackageTree) :
    Lock.satisfiesTree lock (some .empty) tree = Lock.satisfiesTree lock none tree := by
  cases lock with
  | none => rfl
  | some lock =>
    have heffectual (imports : List Text) :
        Manifest.effectual (some .empty) imports = Manifest.effectual none imports :=
      Rules.effectual_empty imports
    have hfound (effectual : TextSet) :
        Mismatches.ofLock lock (some .empty) effectual = Mismatches.ofLock lock none effectual :=
      Mismatches.ofLock_empty lock effectual
    rw [satisfiesTree, satisfiesTree, satisfies, satisfies]
    dsimp only
    rw [tree.flattenReach_absent, tree.reachNotices_absent, heffectual, hfound]
    rfl

/-! ## Documents that declare nothing -/

theorem Yaml.mem_of_find? {α : Type} {name : Text} {v : α} {entries : List (Atom × α)}
    (h : find? name entries = some v) : (.text name, v) ∈ entries := by
  induction entries with
  | nil => cases h
  | cons e entries ih =>
    obtain ⟨key, w⟩ := e
    cases key with
    | text s =>
      rw [find?] at h
      split at h
      · rename_i hs
        rw [hs, Option.some.inj h]
        exact List.mem_cons_self
      · exact List.mem_cons_of_mem _ (ih h)
    | null | bool | int | float | notANumber | moment | bytes =>
      exact List.mem_cons_of_mem _ (ih h)

namespace Manifest

open Yaml

/-- The sections of a document, if there are any, are null or empty. -/
def DeclaresNothing (entries : List (Atom × Yaml)) : Prop :=
  ∀ e ∈ entries, isName e.1 = true → e.2.isTruthy = false

variable {entries : List (Atom × Yaml)}

theorem DeclaresNothing.section?_eq_none (h : DeclaresNothing entries) {name : Text}
    (hname : isName (.text name) = true) : section? name entries = none := by
  rw [section?, Option.filter_eq_none_iff]
  intro v hv
  rw [h _ (mem_of_find? hv) hname]
  exact Bool.false_ne_true

theorem DeclaresNothing.ofEntries (h : DeclaresNothing entries) :
    ofEntries entries = .ok .empty := by
  have hnone : ∀ name, names.contains name = true → section? name entries = none :=
    fun _ hname => h.section?_eq_none hname
  rw [Manifest.ofEntries, rulesOf, rulesOf, pathsOf, pathsOf, hnone _ (by decide),
    hnone _ (by decide), hnone _ (by decide), hnone _ (by decide)]
  rfl

/-- Such a document makes the empty manifest, unless it has other keys that have no order. -/
theorem DeclaresNothing.ofYaml_eq_ok (h : DeclaresNothing entries) {m : Manifest} :
    (ofYaml (.map entries)).outcome = .ok m ↔
      ¬ Unordered (unknownKeys entries) ∧ m = .empty := by
  rw [ofYaml_map_eq_ok, h.ofEntries, Except.ok.injEq]
  exact and_congr_right fun _ => eq_comm

theorem not_unordered_nil : ¬ Unordered [] := by simp [Unordered]

end Manifest

/-- **A manifest that is not there is one that declares nothing.** Whatever the lock and the
    packages are, the check without a manifest is the check with the empty one, with its notices,
    and a document that is null, has no sections or has null and empty ones makes no other manifest.
    It makes one unless it has other keys that have no order. -/
theorem Lock.satisfiesTree_absent (lock : Option Lock) (tree : PackageTree) :
    Lock.satisfiesTree lock none tree = Lock.satisfiesTree lock (some .empty) tree ∧
    (Manifest.ofYaml (.atom .null)).outcome = .ok .empty ∧
    (Manifest.ofYaml (.map [])).outcome = .ok .empty ∧
    ∀ entries, Manifest.DeclaresNothing entries →
      (Manifest.unknownKeys entries = [] →
        (Manifest.ofYaml (.map entries)).outcome = .ok .empty) ∧
      ((∃ m, (Manifest.ofYaml (.map entries)).outcome = .ok m) ↔
        ¬ Manifest.Unordered (Manifest.unknownKeys entries)) ∧
      ∀ m, (Manifest.ofYaml (.map entries)).outcome = .ok m →
        Lock.satisfiesTree lock (some m) tree = Lock.satisfiesTree lock none tree := by
  have hempty := Lock.satisfiesTree_empty lock tree
  refine ⟨hempty.symm, rfl, rfl, fun entries hentries => ⟨?_, ?_, ?_⟩⟩
  · intro hknown
    refine hentries.ofYaml_eq_ok.2 ⟨?_, rfl⟩
    rw [hknown]
    exact Manifest.not_unordered_nil
  · simp only [hentries.ofYaml_eq_ok, exists_and_left, exists_eq, and_true]
  · intro m hm
    obtain ⟨-, rfl⟩ := hentries.ofYaml_eq_ok.1 hm
    exact hempty

end LockFit
