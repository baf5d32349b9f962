import LockFit.Proofs.Lock.RoundTrip
import LockFit.Proofs.Package.Alike
import LockFit.Proofs.Satisfaction.Verdicts
import LockFit.Proofs.Version.Printed

/-
  A check does not hang on how its inputs are written down.
  Alike locks pin the same roots to the same versions and record the same import paths, in whatever
  order. The verdict on a project looks at the root and the version alone, and the mismatches are
  kept by root, so alike locks have the same mismatches (`Alike.ofLock_eq_ok`), or for both of them
  some verdict is missing. What is required comes from what the packages reach, which is the same
  for alike trees. Both together are `satisfies_alike`.
-/

namespace LockFit

/-- The same pins in any order, and the same recorded import paths; what packages of a project are
    used does not count. -/
structure Lock.Alike (lock lock' : Lock) : Prop where
  pins : (lock.projects.map fun p => (p.root, p.version)).Perm
    (lock'.projects.map fun p => (p.root, p.version))
  imports : ∀ x, x ∈ lock.inputImports ↔ x ∈ lock'.inputImports

namespace Lock

variable {lock lock' : Lock}

theorem Alike.symm (h : lock.Alike lock') : lock'.Alike lock :=
  ⟨h.pins.symm, fun x => (h.imports x).symm⟩

theorem Alike.exists_project (h : lock.Alike lock') {p : LockedProject} (hp : p ∈ lock.projects) :
    ∃ p' ∈ lock'.projects, p'.root = p.root ∧ p'.version = p.version := by
  obtain ⟨p', hp', heq⟩ := List.mem_map.1 (h.pins.mem_iff.1 (List.mem_map_of_mem hp))
  exact ⟨p', hp', congrArg Prod.fst heq, congrArg Prod.snd heq⟩

theorem alike_reloaded (lock : Lock) : lock.reloaded.Alike lock where
  pins := by
    rw [reloaded, List.map_map]
    exact (Text.sortOn_perm LockedProject.root lock.projects).map _
  imports := fun _ => (Text.sortOn_perm id lock.inputImports).mem_iff

/-! ## Mismatches -/

variable {manifest : Option Manifest} {m : Manifest} {effectual : TextSet} {found : Mismatches}

/-- What is said of a root and its verdict in the one lock holds in the other too. -/
theorem Alike.exists_verdict (h : lock.Alike lock') {root : Text} {v : Verdict} :
    (∃ p ∈ lock.projects, p.root = root ∧ m.verdict effectual p = .ok v) ↔
      ∃ p ∈ lock'.projects, p.root = root ∧ m.verdict effectual p = .ok v := by
  have hone {lock lock' : Lock} (h : lock.Alike lock')
      (hv : ∃ p ∈ lock.projects, p.root = root ∧ m.verdict effectual p = .ok v) :
      ∃ p ∈ lock'.projects, p.root = root ∧ m.verdict effectual p = .ok v := by
    obtain ⟨p, hp, hroot, hverdict⟩ := hv
    obtain ⟨p', hp', hroot', hversion'⟩ := h.exists_project hp
    exact ⟨p', hp', hroot'.trans hroot, (Manifest.verdict_congr hroot' hversion').trans hverdict⟩
  exact ⟨hone h, hone h.symm⟩

/-- If all verdicts on the one lock are there, so are those on the other. -/
theorem Alike.ofLock_isOk (h : lock.Alike lock')
    (hok : ∃ found, Mismatches.ofLock lock manifest effectual = .ok found) :
    ∃ found, Mismatches.ofLock lock' manifest effectual = .ok found := by
  rw [Mismatches.ofLock_isOk] at hok ⊢
  intro m hm p' hp'
  obtain ⟨p, hp, hroot, hversion⟩ := h.symm.exists_project hp'
  obtain ⟨v, hv⟩ := hok m hm p hp
  exact ⟨v, (Manifest.verdict_congr hroot hversion).symm.trans hv⟩

theorem Alike.ofLock_unique (h : lock.Alike lock') {found' : Mismatches}
    (hfound : Mismatches.ofLock lock manifest effectual = .ok found)
    (hfound' : Mismatches.ofLock lock' manifest effectual = .ok found') : found = found' := by
  cases manifest with
  | none => exact Except.ok.inj (hfound.symm.trans hfound')
  | some m =>
    have hoverrides : found.overrides = found'.overrides := TextMap.ext_get? fun root mismatch => by
      rw [(Mismatches.get?_ofLock hfound root mismatch).1,
        (Mismatches.get?_ofLock hfound' root mismatch).1, h.exists_verdict]
    have hconstraints : found.constraints = found'.constraints :=
      TextMap.ext_get? fun root mismatch => by
        rw [(Mismatches.get?_ofLock hfound root mismatch).2,
          (Mismatches.get?_ofLock hfound' root mismatch).2, h.exists_verdict]
    cases found
    cases found'
    rw [Mismatches.mk.injEq]
    exact ⟨hoverrides, hconstraints⟩

/-- Alike locks have the same mismatches, if they have any verdicts. -/
theorem Alike.ofLock_eq_ok (h : lock.Alike lock') :
    Mismatches.ofLock lock manifest effectual = .ok found ↔
      Mismatches.ofLock lock' manifest effectual = .ok found := by
  constructor
  · intro hfound
    obtain ⟨found', hfound'⟩ := h.ofLock_isOk ⟨found, hfound⟩
    rw [h.ofLock_unique hfound hfound', hfound']
  · intro hfound'
    obtain ⟨found', hfound⟩ := h.symm.ofLock_isOk ⟨found, hfound'⟩
    rw [← h.ofLock_unique hfound hfound', hfound]

/-! ## The whole check -/

theorem Alike.outcome_eq_ok (h : lock.Alike lock') {reach : ReachQuery → List Text}
    {s : Satisfaction} : (satisfies (some lock) manifest reach).outcome = .ok s ↔
      (satisfies (some lock') manifest reach).outcome = .ok s := by
  have hrecorded : TextSet.ofList lock.inputImports = TextSet.ofList lock'.inputImports :=
    TextSet.ext_mem fun x => by rw [TextSet.mem_ofList, TextSet.mem_ofList, h.imports]
  rw [satisfies_eq_ok, satisfies_eq_ok, hrecorded]
  dsimp only
  exact exists_congr fun found => and_congr_left fun _ => h.ofLock_eq_ok

end Lock

/-- **A check does not hang on how its inputs are written down.** For locks with the same pins and
    the same recorded imports, and for trees of the same packages with the same imports, a check
    has the same result, or no result for either. Trees are made alike by packages with distinct
    paths in whatever order they are added. A lock that was written and read back is checked as it
    was before, if no halves stand side by side in its roots, version texts and import paths. -/
theorem satisfies_alike {lock lock' : Option Lock} (hlock : Option.Rel Lock.Alike lock lock')
    (manifest : Option Manifest) :
    (∀ tree tree' : PackageTree, tree.Alike tree' → ∀ s,
      (Lock.satisfiesTree lock manifest tree).outcome = .ok s ↔
        (Lock.satisfiesTree lock' manifest tree').outcome = .ok s) ∧
    (∀ ps ps' : List Package, Package.Rearranged ps ps' → (ps.map Package.path).Nodup →
      ∀ start tree : PackageTree, ps.foldlM PackageTree.add start = .ok tree →
        ∃ tree', ps'.foldlM PackageTree.add start = .ok tree' ∧ tree.Alike tree') ∧
    ∀ l ∈ lock, (∀ p ∈ l.projects, p.root ≠ "" ∧ p.version.text ≠ "") → l.NamesUnpaired →
      ∀ layout : Json.Layout, ∃ reloaded, Lock.ofText (l.print layout) = pure reloaded ∧ ∀ tree s,
        (Lock.satisfiesTree (some reloaded) manifest tree).outcome = .ok s ↔
          (Lock.satisfiesTree lock manifest tree).outcome = .ok s := by
  refine ⟨?_, ?_, ?_⟩
  · intro tree tree' htree s
    have hreach : (fun q => (tree.flattenReach q).toList) =
        fun q => (tree'.flattenReach q).toList :=
      funext fun q => by rw [htree.flattenReach_eq]
    rw [Lock.outcome_satisfiesTree, Lock.outcome_satisfiesTree, hreach]
    cases hlock with
    | none => exact Iff.rfl
    | some h => exact h.outcome_eq_ok
  · intro ps ps' hps hdistinct start tree hadd
    exact PackageTree.foldlM_add_rearranged hps hdistinct hadd
  · intro l hl h hunpaired layout
    refine ⟨l.reloaded, hunpaired.ofText_print_eq h layout, fun tree s => ?_⟩
    rw [Option.mem_def.1 hl, Lock.outcome_satisfiesTree, Lock.outcome_satisfiesTree]
    exact (Lock.alike_reloaded l).outcome_eq_ok

/-- Two packages that import each other, one of them a command, and two pins. -/
theorem satisfies_alike_reordered :
    let lock : Lock := ⟨[⟨"a", Version.ofText "v1.0.0", ["x"]⟩, ⟨"b", .branch "main", []⟩],
      ["a/x", "b/y"], by decide⟩
    let lock' : Lock := ⟨[⟨"b", .branch "main", ["y", "z"]⟩, ⟨"a", Version.ofText "v1.0.0", []⟩],
      ["b/y", "a/x", "b/y"], by decide⟩
    let ps : List Package := [⟨"r", ["r/q", "a/x"], ["b/y"], false⟩,
      ⟨"r/q", ["r", "c/z"], [], true⟩]
    let ps' : List Package := [⟨"r/q", ["c/z", "r", "r"], [], true⟩,
      ⟨"r", ["a/x", "r/q"], ["b/y", "b/y"], false⟩]
    ∃ m tree tree', Manifest.ofRules [] [("a", .branch "dev"), ("b", .any)] .empty ["q"] = .ok m ∧
      PackageTree.ofPackages "r/" ImportPath.isStandard ps = .ok tree ∧
      PackageTree.ofPackages "r/" ImportPath.isStandard ps' = .ok tree' ∧
      (∀ s, (Lock.satisfiesTree (some lock) (some m) tree).outcome = .ok s ↔
        (Lock.satisfiesTree (some lock') (some m) tree').outcome = .ok s) ∧
      ∃ reloaded, Lock.ofText (lock.print (.lines 2)) = pure reloaded ∧ ∀ tree s,
        (Lock.satisfiesTree (some reloaded) (some m) tree).outcome = .ok s ↔
          (Lock.satisfiesTree (some lock) (some m) tree).outcome = .ok s := by
  intro lock lock' ps ps'
  have hlock : lock.Alike lock' := ⟨.swap _ _ _, by simp [lock, lock', or_comm]⟩
  have hps : Package.Rearranged ps ps' := by
    refine ⟨_, .swap _ _ _, .cons ⟨rfl, rfl, ?_, ?_⟩ (.cons ⟨rfl, rfl, ?_, ?_⟩ .nil)⟩
    · simp [or_comm]
    · simp
    · simp [or_comm]
    · simp
  have hnames : ∀ p ∈ lock.projects, p.root ≠ "" ∧ p.version.text ≠ "" := by decide +kernel
  have hunpaired : lock.NamesUnpaired := by decide +kernel
  obtain ⟨m, hm⟩ : ∃ m, Manifest.ofRules [] [("a", .branch "dev"), ("b", .any)] .empty ["q"] =
    .ok m := ⟨_, rfl⟩
  obtain ⟨tree, htree⟩ : ∃ tree, PackageTree.ofPackages "r/" ImportPath.isStandard ps = .ok tree :=
    ⟨_, rfl⟩
  obtain ⟨hcheck, hadd, hreload⟩ := satisfies_alike (.some hlock) (some m)
  obtain ⟨tree', htree', halike⟩ := hadd ps ps' hps (by decide +kernel) _ _ htree
  exact ⟨m, tree, tree', hm, htree, htree', hcheck tree tree' halike,
    hreload lock rfl hnames hunpaired (.lines 2)⟩

/-- The halves of a pair side by side come back as the character that they encode, so that the path
    of an import is no longer the one that is required. -/
theorem satisfies_alike_halves :
    let halves : Text := .ofList [.high 0x3d, .low 0x200]
    let lock : Lock := ⟨[], [halves], by decide⟩
    let reloaded : Lock := ⟨[], ["😀"], by decide⟩
    ∃ m tree, Manifest.ofRules [] [] .empty [halves] = .ok m ∧
      PackageTree.ofPackages "r" ImportPath.isStandard [] = .ok tree ∧
      (Lock.ofText (lock.print (.lines 2))).outcome = .ok reloaded ∧
      (Lock.satisfiesTree (some lock) (some m) tree).outcome.map Satisfaction.passed = .ok true ∧
      (Lock.satisfiesTree (some reloaded) (some m) tree).outcome.map Satisfaction.passed =
        .ok false := by
  intro halves lock reloaded
  exact ⟨_, _, rfl, rfl, by decide +kernel, by decide +kernel, by decide +kernel⟩

end LockFit
