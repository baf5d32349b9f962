import LockFit.Lock.Document
import LockFit.Proofs.Json.RoundTrip
import Mathlib.Data.List.Nodup

/-
  One lock, one document.
  The order of projects, packages and import paths is all that a document leaves out:
  `toJson_eq_iff` says that two locks have one document exactly if they pin the same roots to the
  same versions, with the same packages and for the same import paths up to order. Both directions
  go through the canonical form, in which roots stand in strictly ascending order because none is
  pinned twice. A text is read back as one document, so the texts are canonical too as far as
  reading changes nothing, which it does to halves side by side alone (`Unpaired.print_eq_iff`).
-/

namespace LockFit

/-- The project with its packages in order. -/
def LockedProject.sorted (p : LockedProject) : LockedProject :=
  { p with packages := Text.sort p.packages }

namespace Lock

/-! ## What a document keeps of a lock -/

theorem sortedTexts_eq_iff {xs ys : List Text} :
    sortedTexts xs = sortedTexts ys ↔ xs.Perm ys := by
  have hinj : Function.Injective Json.text := fun _ _ h => Json.text.inj h
  rw [sortedTexts, sortedTexts, Json.list.injEq, hinj.list_map.eq_iff, Text.sort_eq_sort_iff]

theorem projectToJson_eq_iff {p q : LockedProject} :
    projectToJson p = projectToJson q ↔
      p.root = q.root ∧ p.version = q.version ∧ p.packages.Perm q.packages := by
  have hversion : p.version = q.version ↔
      p.version.text = q.version.text ∧ p.version.kind = q.version.kind := by
    cases p.version
    cases q.version
    simp
  simp only [projectToJson, Json.object.injEq, List.cons.injEq, Prod.mk.injEq, Json.text.injEq,
    true_and, and_true, sortedTexts_eq_iff, VersionKind.text_inj, hversion]
  constructor
  · rintro ⟨hpackages, hroot, htext, hkind⟩
    exact ⟨hroot, ⟨htext, hkind⟩, hpackages⟩
  · rintro ⟨hroot, ⟨htext, hkind⟩, hpackages⟩
    exact ⟨hpackages, hroot, htext, hkind⟩

/-- The lock pins the root to the version with the text and kind. -/
def Pins (lock : Lock) (root text : Text) (kind : VersionKind) : Prop :=
  ∃ p ∈ lock.projects, p.root = root ∧ p.version.text = text ∧ p.version.kind = kind

/-- The locks differ in the order of their lists alone. -/
structure SameContent (a b : Lock) : Prop where
  pins : ∀ root text kind, a.Pins root text kind ↔ b.Pins root text kind
  packages : ∀ p ∈ a.projects, ∀ q ∈ b.projects, p.root = q.root → p.packages.Perm q.packages
  imports : a.inputImports.Perm b.inputImports

theorem SameContent.symm {a b : Lock} (h : a.SameContent b) : b.SameContent a where
  pins := fun root text kind => (h.pins root text kind).symm
  packages := fun q hq p hp hroot => (h.packages p hp q hq hroot.symm).symm
  imports := h.imports.symm

/-- The roots tell the projects of a lock apart. -/
theorem eq_of_root {lock : Lock} {p q : LockedProject} (hp : p ∈ lock.projects)
    (hq : q ∈ lock.projects) (h : p.root = q.root) : p = q :=
  List.inj_on_of_nodup_map lock.distinct hp hq h

/-! ## The canonical form -/

theorem pairwise_root (lock : Lock) :
    (Text.sortOn LockedProject.root lock.projects).Pairwise (fun p q => p.root < q.root) :=
  Text.pairwise_lt_sortOn lock.distinct

theorem pairwise_root_canonical (lock : Lock) :
    lock.canonical.projects.Pairwise (fun p q => p.root < q.root) :=
  List.pairwise_map.2 (pairwise_root lock)

theorem mem_canonical {lock : Lock} {p : LockedProject} :
    p ∈ lock.canonical.projects ↔ ∃ q ∈ lock.projects, q.sorted = p := by
  change p ∈ (Text.sortOn LockedProject.root lock.projects).map LockedProject.sorted ↔ _
  rw [List.mem_map]
  exact exists_congr fun q =>
    and_congr_left fun _ => (Text.sortOn_perm LockedProject.root lock.projects).mem_iff

theorem projectToJson_sorted (p : LockedProject) : projectToJson p.sorted = projectToJson p :=
  projectToJson_eq_iff.2 ⟨rfl, rfl, Text.sortOn_perm id p.packages⟩

/-- The canonical form has the same document. -/
theorem toJson_canonical (lock : Lock) : lock.canonical.toJson = lock.toJson := by
  have himports : sortedTexts lock.canonical.inputImports = sortedTexts lock.inputImports :=
    sortedTexts_eq_iff.2 (Text.sortOn_perm id lock.inputImports)
  -- sorting changes nothing in what is in order already
  have hsorted : Text.sortOn LockedProject.root lock.canonical.projects =
      (Text.sortOn LockedProject.root lock.projects).map LockedProject.sorted :=
    Text.sortOn_of_pairwise ((pairwise_root_canonical lock).imp fun h =>
      Text.not_lt.1 (Text.lt_asymm h))
  have hprojects : projectToJson ∘ LockedProject.sorted = projectToJson :=
    funext projectToJson_sorted
  rw [toJson, toJson, himports, hsorted, List.map_map, hprojects]

/-- Whatever is pinned in the one lock is pinned in the other, with the same packages. -/
theorem SameContent.mem_canonical {a b : Lock} (h : a.SameContent b) {p : LockedProject}
    (hp : p ∈ a.canonical.projects) : p ∈ b.canonical.projects := by
  obtain ⟨q, hq, rfl⟩ := Lock.mem_canonical.1 hp
  obtain ⟨r, hr, hroot, htext, hkind⟩ :=
    (h.pins q.root q.version.text q.version.kind).1 ⟨q, hq, rfl, rfl, rfl⟩
  refine Lock.mem_canonical.2 ⟨r, hr, ?_⟩
  have hpackages : Text.sort r.packages = Text.sort q.packages :=
    Text.sort_eq_sort_iff.2 (h.packages q hq r hr hroot.symm).symm
  -- a version is its text and its kind, whatever proof it carries
  obtain ⟨root, ⟨text, kind, reads⟩, packages⟩ := q
  obtain ⟨root', ⟨text', kind', reads'⟩, packages'⟩ := r
  dsimp only at hroot htext hkind hpackages
  subst hroot htext hkind
  rw [LockedProject.sorted, LockedProject.sorted, hpackages]

theorem SameContent.canonical_eq {a b : Lock} (h : a.SameContent b) :
    a.canonical = b.canonical := by
  have hprojects : a.canonical.projects = b.canonical.projects :=
    Text.eq_of_pairwise_lt (pairwise_root_canonical a) (pairwise_root_canonical b) fun _ =>
      ⟨h.mem_canonical, h.symm.mem_canonical⟩
  exact Lock.ext hprojects (Text.sort_eq_sort_iff.2 h.imports)

/-! ## Documents -/

/-- A project with the same document is in the other lock. -/
theorem exists_of_toJson_eq {a b : Lock} (h : a.toJson = b.toJson) {p : LockedProject}
    (hp : p ∈ a.projects) : ∃ q ∈ b.projects,
      p.root = q.root ∧ p.version = q.version ∧ p.packages.Perm q.packages := by
  have hprojects : (Text.sortOn LockedProject.root a.projects).map projectToJson =
      (Text.sortOn LockedProject.root b.projects).map projectToJson := by
    simp only [toJson, Json.object.injEq, List.cons.injEq, Prod.mk.injEq, Json.list.injEq] at h
    exact h.2.1.2
  have hmem : projectToJson p ∈ (Text.sortOn LockedProject.root b.projects).map projectToJson := by
    rw [← hprojects]
    exact List.mem_map_of_mem ((Text.sortOn_perm _ _).mem_iff.2 hp)
  obtain ⟨q, hq, heq⟩ := List.mem_map.1 hmem
  exact ⟨q, (Text.sortOn_perm _ _).mem_iff.1 hq, projectToJson_eq_iff.1 heq.symm⟩

theorem toJson_eq_iff {a b : Lock} : a.toJson = b.toJson ↔ a.SameContent b := by
  constructor
  · intro h
    have hpins {a b : Lock} (h : a.toJson = b.toJson) {root text : Text} {kind : VersionKind}
        (hpin : a.Pins root text kind) : b.Pins root text kind := by
      obtain ⟨p, hp, hroot, htext, hkind⟩ := hpin
      obtain ⟨q, hq, hroot', hversion, -⟩ := exists_of_toJson_eq h hp
      exact ⟨q, hq, hroot'.symm.trans hroot, hversion ▸ htext, hversion ▸ hkind⟩
    constructor
    · exact fun _ _ _ => ⟨hpins h, hpins h.symm⟩
    · intro p hp q hq hroot
      obtain ⟨r, hr, hroot', -, hpackages⟩ := exists_of_toJson_eq h hp
      rwa [eq_of_root hq hr (hroot.symm.trans hroot')]
    · simp only [toJson, Json.object.injEq, List.cons.injEq, Prod.mk.injEq] at h
      exact sortedTexts_eq_iff.1 h.1.2
  · intro h
    rw [← toJson_canonical a, h.canonical_eq, toJson_canonical b]

/-! ## Texts -/

/-- No halves stand side by side in a root, a version text or an import path of the lock. -/
structure NamesUnpaired (lock : Lock) : Prop where
  roots : ∀ p ∈ lock.projects, p.root.Unpaired
  versions : ∀ p ∈ lock.projects, p.version.text.Unpaired
  imports : ∀ x ∈ lock.inputImports, x.Unpaired

/-- No halves stand side by side in any text of the lock. -/
structure Unpaired (lock : Lock) : Prop extends lock.NamesUnpaired where
  packages : ∀ p ∈ lock.projects, ∀ x ∈ p.packages, x.Unpaired

instance (lock : Lock) : Decidable lock.NamesUnpaired :=
  decidable_of_iff ((∀ p ∈ lock.projects, p.root.Unpaired) ∧
    (∀ p ∈ lock.projects, p.version.text.Unpaired) ∧ ∀ x ∈ lock.inputImports, x.Unpaired)
    ⟨fun h => ⟨h.1, h.2.1, h.2.2⟩, fun h => ⟨h.roots, h.versions, h.imports⟩⟩

instance (lock : Lock) : Decidable lock.Unpaired :=
  decidable_of_iff (lock.NamesUnpaired ∧ ∀ p ∈ lock.projects, ∀ x ∈ p.packages, x.Unpaired)
    ⟨fun h => ⟨h.1, h.2⟩, fun h => ⟨h.toNamesUnpaired, h.packages⟩⟩

/-- A lock is written as a document four levels deep. -/
theorem document_toJson (lock : Lock) : Json.Document 4 lock.toJson := by
  have htexts (n : Nat) (xs : List Text) : Json.Document (n + 1) (sortedTexts xs) := by
    refine .list fun v hv => ?_
    obtain ⟨s, -, rfl⟩ := List.mem_map.1 hv
    exact .text n s
  have hproject (p : LockedProject) : Json.Document 2 (projectToJson p) := by
    refine .object ?_
    simp only [List.forall_mem_cons, List.not_mem_nil, false_implies, implies_true, and_true]
    exact ⟨htexts 0 _, .text 1 _, .text 1 _, .text 1 _⟩
  refine .object ?_
  simp only [List.forall_mem_cons, List.not_mem_nil, false_implies, implies_true, and_true]
  refine ⟨htexts 2 _, .list fun v hv => ?_⟩
  obtain ⟨p, -, rfl⟩ := List.mem_map.1 hv
  exact hproject p

theorem reread_sortedTexts (xs : List Text) :
    (sortedTexts xs).reread = .list ((Text.sort xs).map fun x => .text x.joined) := by
  rw [sortedTexts, Json.reread_list, List.map_map]
  exact congrArg Json.list (List.map_congr_left fun x _ => Json.reread_text x)

theorem reread_sortedTexts_eq_self {xs : List Text} (h : ∀ x ∈ xs, x.Unpaired) :
    (sortedTexts xs).reread = sortedTexts xs := by
  rw [reread_sortedTexts, sortedTexts]
  refine congrArg Json.list (List.map_congr_left fun x hx => ?_)
  rw [Text.joined_eq_self (h x ((Text.sortOn_perm id xs).mem_iff.1 hx))]

theorem reread_projectToJson {p : LockedProject} (hroot : p.root.Unpaired)
    (hversion : p.version.text.Unpaired) : (projectToJson p).reread =
      .object [("packages", (sortedTexts p.packages).reread), ("root", .text p.root),
        ("version", .text p.version.text), ("version_type", .text p.version.kind.text)] := by
  have hkind : p.version.kind.text.joined = p.version.kind.text := by
    cases p.version.kind with
    | semver => exact Text.joined_eq_self (Text.unpaired_ofString _)
    | branch => exact Text.joined_eq_self (Text.unpaired_ofString _)
    | revision => exact Text.joined_eq_self (Text.unpaired_ofString _)
  rw [projectToJson, Json.reread_object (by simp [Text.unpaired_ofString]) (by simp)]
  simp only [List.map_cons, List.map_nil, Json.reread, Text.joined_eq_self hroot,
    Text.joined_eq_self hversion, hkind]

theorem reread_toJson (lock : Lock) : lock.toJson.reread =
    .object [("input_imports", (sortedTexts lock.inputImports).reread),
      ("projects", .list ((Text.sortOn LockedProject.root lock.projects).map fun p =>
        (projectToJson p).reread))] := by
  rw [toJson, Json.reread_object (by simp [Text.unpaired_ofString]) (by simp)]
  simp only [List.map_cons, List.map_nil, Json.reread_list, List.map_map]
  rfl

/-- Without halves side by side a document is read as it is. -/
theorem Unpaired.reread_toJson {lock : Lock} (h : lock.Unpaired) :
    lock.toJson.reread = lock.toJson := by
  have hproject : ∀ p ∈ Text.sortOn LockedProject.root lock.projects,
      (projectToJson p).reread = projectToJson p := by
    intro p hp
    have hmem := (Text.sortOn_perm LockedProject.root lock.projects).mem_iff.1 hp
    rw [reread_projectToJson (h.roots p hmem) (h.versions p hmem),
      reread_sortedTexts_eq_self (h.packages p hmem), projectToJson]
  rw [Lock.reread_toJson, reread_sortedTexts_eq_self h.imports, List.map_congr_left hproject,
    toJson]

theorem Unpaired.print_eq_iff {a b : Lock} (ha : a.Unpaired) (hb : b.Unpaired)
    {layout : Json.Layout} : a.print layout = b.print layout ↔ a.toJson = b.toJson := by
  constructor
  · intro h
    have hread := (document_toJson a).reread_eq_of_print_eq (document_toJson b) (by decide) h
    rwa [ha.reread_toJson, hb.reread_toJson] at hread
  · intro h
    rw [print, print, h]

/-- **Documents and texts of locks are canonical.** Locks have the same document just if they
    differ in the order of their lists alone, and then they have the same text in any layout. Locks
    with the same text have the same document if no halves stand side by side in them. In a document
    each project comes once, in strictly ascending order of roots. -/
theorem document_canonical (a b : Lock) (layout : Json.Layout) :
    (a.Unpaired → b.Unpaired → (a.print layout = b.print layout ↔ a.toJson = b.toJson)) ∧
    (a.toJson = b.toJson → a.print layout = b.print layout) ∧
    (a.toJson = b.toJson ↔ a.SameContent b) ∧
    ∃ ps : List LockedProject, ps.Perm a.projects ∧ ps.Pairwise (fun p q => p.root < q.root) ∧
      a.toJson = .object [("input_imports", sortedTexts a.inputImports),
        ("projects", .list (ps.map projectToJson))] :=
  ⟨fun ha hb => ha.print_eq_iff hb, congrArg (Json.print layout), toJson_eq_iff, _,
    Text.sortOn_perm _ _, pairwise_root a, rfl⟩

/-- Two locks with their projects, packages and import paths in different orders. -/
theorem document_canonical_turned :
    let a : Lock := ⟨[⟨"b", .branch "😀", ["y", "x"]⟩, ⟨"a", .revision "5e", []⟩],
      ["b/y", "a", "a"], by decide⟩
    let b : Lock := ⟨[⟨"a", .revision "5e", []⟩, ⟨"b", .branch "😀", ["x", "y"]⟩],
      ["a", "b/y", "a"], by decide⟩
    a.Unpaired ∧ b.Unpaired ∧ a.print (.lines 2) = b.print (.lines 2) ∧ a.SameContent b := by
  intro a b
  have ha : a.Unpaired := by decide +kernel
  have hb : b.Unpaired := by decide +kernel
  have hprint : a.print (.lines 2) = b.print (.lines 2) := by decide +kernel
  obtain ⟨hunpaired, -, hcontent, -⟩ := document_canonical a b (.lines 2)
  exact ⟨ha, hb, hprint, hcontent.1 ((hunpaired ha hb).1 hprint)⟩

/-- The halves of a pair side by side are written like the character that they encode. -/
theorem document_canonical_halves :
    let a : Lock := ⟨[], ["😀"], by decide⟩
    let b : Lock := ⟨[], [.ofList [.high 0x3d, .low 0x200]], by decide⟩
    a.print (.lines 2) = b.print (.lines 2) ∧ a.toJson ≠ b.toJson := by
  intro a b
  have hprint : a.print (.lines 2) = b.print (.lines 2) := by decide +kernel
  refine ⟨hprint, fun h => ?_⟩
  have himports := (toJson_eq_iff.1 h).imports
  exact absurd himports (by decide +kernel)

end Lock

end LockFit
