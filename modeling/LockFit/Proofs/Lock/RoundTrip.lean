import LockFit.Loading
import LockFit.Proofs.Lock.Accepted
import LockFit.Proofs.Lock.Canonical
import Mathlib.Data.List.Forall2

/-
  A lock is read back from its text.
  The document of a project is accepted as the project with its packages in order
  (`projectOfJson_reread`): the root and the version text are there because they are not empty, and
  the kind is the one that was written, not one that the text suggests. So what is read of a lock is
  `reloaded` (`ofText_print_eq`), unless halves stand side by side in a root, a version text or the
  path of an import. If none do so in a package either, that is the canonical form
  (`ofText_print`).
-/

namespace LockFit

/-- The project as it is read: its packages are in order, with their halves joined. -/
def LockedProject.reloaded (p : LockedProject) : LockedProject :=
  { p with packages := (Text.sort p.packages).map Text.joined }

namespace Lock

/-- The lock as it is read from its text, if no halves stand side by side in its names. -/
def reloaded (lock : Lock) : Lock where
  projects := (Text.sortOn LockedProject.root lock.projects).map LockedProject.reloaded
  inputImports := Text.sort lock.inputImports
  distinct := by
    have hroots : LockedProject.root ∘ LockedProject.reloaded = LockedProject.root := rfl
    rw [List.map_map, hroots]
    exact ((Text.sortOn_perm LockedProject.root lock.projects).map _).nodup_iff.2 lock.distinct

/-- Where no halves stand side by side at all, the canonical form is read. -/
theorem Unpaired.reloaded_eq {lock : Lock} (h : lock.Unpaired) :
    lock.reloaded = lock.canonical := by
  refine Lock.ext (List.map_congr_left fun p hp => ?_) rfl
  have hmem : p ∈ lock.projects := (Text.sortOn_perm LockedProject.root _).mem_iff.1 hp
  have hpackages : (Text.sort p.packages).map Text.joined = (Text.sort p.packages).map id :=
    List.map_congr_left fun x hx =>
      Text.joined_eq_self (h.packages p hmem x ((Text.sortOn_perm id _).mem_iff.1 hx))
  rw [LockedProject.reloaded, hpackages, List.map_id]

/-! ## Projects and locks -/

theorem projectOfJson_reread {p : LockedProject} (hroot : p.root ≠ "")
    (hversion : p.version.text ≠ "") (hrootUnpaired : p.root.Unpaired)
    (hversionUnpaired : p.version.text.Unpaired) :
    projectOfJson (projectToJson p).reread = pure p.reloaded := by
  let members : List (Text × Json) := [("packages", (sortedTexts p.packages).reread),
    ("root", .text p.root), ("version", .text p.version.text),
    ("version_type", .text p.version.kind.text)]
  have hrootAt : textAt? "root" members = some p.root :=
    textAt?_eq_some.2 ⟨by simp [members, Json.find?], hroot⟩
  have hversionAt : textAt? "version" members = some p.version.text :=
    textAt?_eq_some.2 ⟨by simp [members, Json.find?], hversion⟩
  have hkindAt : versionOf p.version.text (Json.find? "version_type" members) = .ok p.version :=
    versionOf_eq_ok.2 ⟨rfl, Or.inl (by simp [members, Json.find?])⟩
  have hpackagesAt : textsAt? "packages" members = some p.reloaded.packages :=
    textsAt?_eq_some.2 (Or.inl (by
      simp [members, Json.find?, reread_sortedTexts, LockedProject.reloaded]))
  have hunknown : unknownNames projectNames members = [] := by
    simp [members, unknownNames, projectNames]
  rw [reread_projectToJson hrootUnpaired hversionUnpaired]
  change projectOfJson (.object members) = _
  rw [projectOfJson]
  dsimp only
  rw [hrootAt, hversionAt]
  dsimp only
  rw [hunknown, hkindAt, hpackagesAt]
  rfl

theorem projectsOfJson_reread {ps : List LockedProject}
    (h : ∀ p ∈ ps, p.root ≠ "" ∧ p.version.text ≠ "")
    (hunpaired : ∀ p ∈ ps, p.root.Unpaired ∧ p.version.text.Unpaired) :
    projectsOfJson (ps.map fun p => (projectToJson p).reread) =
      pure (ps.map LockedProject.reloaded) := by
  induction ps with
  | nil => rfl
  | cons p ps ih =>
    obtain ⟨⟨hroot, hversion⟩, h⟩ := List.forall_mem_cons.1 h
    obtain ⟨⟨hrootUnpaired, hversionUnpaired⟩, hunpaired⟩ := List.forall_mem_cons.1 hunpaired
    rw [List.map_cons, projectsOfJson,
      projectOfJson_reread hroot hversion hrootUnpaired hversionUnpaired, ih h hunpaired]
    rfl

/-- The document of a lock is accepted as what is read of the lock. -/
theorem NamesUnpaired.ofJson_reread {lock : Lock} (hunpaired : lock.NamesUnpaired)
    (h : ∀ p ∈ lock.projects, p.root ≠ "" ∧ p.version.text ≠ "") :
    ofJson lock.toJson.reread = pure lock.reloaded := by
  let items := (Text.sortOn LockedProject.root lock.projects).map fun p => (projectToJson p).reread
  let members : List (Text × Json) := [("input_imports", sortedTexts lock.inputImports),
    ("projects", .list items)]
  have himports : textsAt? "input_imports" members = some (Text.sort lock.inputImports) :=
    textsAt?_eq_some.2 (Or.inl (by simp [members, Json.find?, sortedTexts]))
  have hprojectsAt : Json.find? "projects" members = some (.list items) := by
    simp [members, Json.find?]
  have hmem {p : LockedProject} (hp : p ∈ Text.sortOn LockedProject.root lock.projects) :
      p ∈ lock.projects := (Text.sortOn_perm _ _).mem_iff.1 hp
  have hprojects : projectsOfJson items = pure lock.reloaded.projects :=
    projectsOfJson_reread (fun p hp => h p (hmem hp)) fun p hp =>
      ⟨hunpaired.roots p (hmem hp), hunpaired.versions p (hmem hp)⟩
  rw [Lock.reread_toJson, reread_sortedTexts_eq_self hunpaired.imports]
  change ofJson (.object members) = _
  rw [ofJson]
  dsimp only
  rw [himports, hprojectsAt]
  dsimp only
  rw [hprojects]
  change Noted.lift ((ofProjects lock.reloaded.projects lock.reloaded.inputImports).mapError
    LockError.lockedTwice) = _
  rw [ofProjects_eq_ok.2 ⟨rfl, rfl⟩]
  rfl

/-- The text of a lock is read without a remark. -/
theorem NamesUnpaired.ofText_print_eq {lock : Lock} (hunpaired : lock.NamesUnpaired)
    (h : ∀ p ∈ lock.projects, p.root ≠ "" ∧ p.version.text ≠ "") (layout : Json.Layout) :
    Lock.ofText (lock.print layout) = pure lock.reloaded := by
  have hread : Json.read (lock.print layout) = .ok lock.toJson.reread :=
    (document_toJson lock).read_print (by decide) layout
  rw [Lock.ofText, readJson, hread]
  change (ofJson lock.toJson.reread).mapError Failure.lock = pure lock.reloaded
  rw [hunpaired.ofJson_reread h]
  rfl

/-! ## Locks without halves side by side -/

/-- The first lock is the second with the projects in the order of their roots and all lists in
    order, and with nothing else changed. -/
structure IsSortingOf (sorted lock : Lock) : Prop where
  projects : ∃ ps : List LockedProject, ps.Perm lock.projects ∧
    List.Forall₂ (fun q p => q.root = p.root ∧ q.version = p.version ∧
      q.packages.Perm p.packages ∧ q.packages.Pairwise (· ≤ ·)) sorted.projects ps
  roots_ascend : sorted.projects.Pairwise (fun p q => p.root < q.root)
  imports : sorted.inputImports.Perm lock.inputImports
  imports_ascend : sorted.inputImports.Pairwise (· ≤ ·)

theorem isSortingOf_canonical (lock : Lock) : lock.canonical.IsSortingOf lock where
  projects := by
    refine ⟨_, Text.sortOn_perm LockedProject.root lock.projects, ?_⟩
    rw [canonical, List.forall₂_map_left_iff, List.forall₂_same]
    exact fun p _ => ⟨rfl, rfl, Text.sortOn_perm id p.packages, Text.pairwise_sortOn id p.packages⟩
  roots_ascend := pairwise_root_canonical lock
  imports := Text.sortOn_perm id lock.inputImports
  imports_ascend := Text.pairwise_sortOn id lock.inputImports

/-- **A lock is read back from its text.** In every layout the text of a lock, all of whose roots
    and version texts are not empty, is read without a remark as a lock that differs from it in
    the order of its lists alone and has the same document, if no halves stand side by side in any
    of its texts. -/
theorem ofText_print (lock : Lock) (hunpaired : lock.Unpaired)
    (h : ∀ p ∈ lock.projects, p.root ≠ "" ∧ p.version.text ≠ "") (layout : Json.Layout) :
    ∃ reloaded, Lock.ofText (lock.print layout) = pure reloaded ∧
      reloaded.IsSortingOf lock ∧ reloaded.toJson = lock.toJson := by
  refine ⟨lock.canonical, ?_, isSortingOf_canonical lock, toJson_canonical lock⟩
  rw [hunpaired.toNamesUnpaired.ofText_print_eq h, hunpaired.reloaded_eq]

/-- A branch that could be a tag, quotes, a control character and one beyond the first 65536. -/
theorem ofText_print_branch :
    let lock : Lock := ⟨[⟨"b\"\\", .branch "v1.0.0", ["q", "\t", "q"]⟩,
      ⟨"a🔒", .revision "5e\x01", []⟩], ["z", "é"], by decide⟩
    lock.Unpaired ∧ (∀ p ∈ lock.projects, p.root ≠ "" ∧ p.version.text ≠ "") ∧
    ∃ reloaded, Lock.ofText (lock.print (.lines 2)) = pure reloaded ∧
      reloaded.IsSortingOf lock ∧ reloaded.toJson = lock.toJson := by
  intro lock
  have hunpaired : lock.Unpaired := by decide +kernel
  have h : ∀ p ∈ lock.projects, p.root ≠ "" ∧ p.version.text ≠ "" := by decide
  exact ⟨hunpaired, h, ofText_print lock hunpaired h (.lines 2)⟩

end Lock

end LockFit
