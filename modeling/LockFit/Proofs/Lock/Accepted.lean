import LockFit.Lock.Document
import LockFit.Proofs.Json.Shape
import LockFit.Proofs.Outcome

/-
  Which documents are locks.
  `IsDocument` says what a document needs, part by part, and `LockedProject.Describes` and
  `Lock.Describes` say what a document with these parts describes. Each reader succeeds with what
  the value describes and with nothing else (`projectOfJson_eq_ok`, `ofJson_eq_ok`), so a document
  is accepted exactly if all its parts are as they have to be (`ofJson_acceptsLocks`).
-/

namespace LockFit

open Json

variable {members : List (Text × Json)} {name : Text}

/-! ## Versions -/

theorem VersionKind.ofText?_eq_some {s : Text} {kind : VersionKind} :
    ofText? s = some kind ↔ s = kind.text := by
  constructor
  · intro h
    unfold ofText? at h
    split at h
    · rename_i hs
      rw [← Option.some.inj h, hs]
      rfl
    · split at h
      · rename_i hs
        rw [← Option.some.inj h, hs]
        rfl
      · split at h
        · rename_i hs
          rw [← Option.some.inj h, hs]
          rfl
        · cases h
  · rintro rfl
    exact ofText?_text kind

theorem Version.eq_iff {v w : Version} : v = w ↔ v.text = w.text ∧ v.kind = w.kind := by
  constructor
  · rintro rfl
    exact ⟨rfl, rfl⟩
  · exact fun h => eq_of_text_kind h.1 h.2

theorem Version.ofKind_eq_ok {pinned : Text} {kind : VersionKind} {v : Version} :
    ofKind pinned kind = .ok v ↔ v.text = pinned ∧ v.kind = kind := by
  unfold ofKind
  split
  · rename_i h
    rw [Except.ok.injEq, eq_comm, eq_iff]
  · rename_i h
    refine iff_of_false (by simp) ?_
    rintro ⟨rfl, rfl⟩
    exact h v.reads

theorem Version.ofText_eq {pinned : Text} {v : Version} : ofText pinned = v ↔
    v.text = pinned ∧ v.kind = if Semver.accepts pinned then .semver else .revision := by
  rw [eq_comm, eq_iff]
  unfold ofText
  split
  · rfl
  · rfl

namespace Lock

/-- The kind of version that an object names for the text; where it names none, the text tells. -/
def GivesKind (members : List (Text × Json)) (pinned : Text) (kind : VersionKind) : Prop :=
  find? "version_type" members = some (.text kind.text) ∨
  (find? "version_type" members = none ∨ find? "version_type" members = some .null) ∧
    kind = if Semver.accepts pinned then .semver else .revision

theorem kindOf_eq_ok {v : Json} {kind : VersionKind} :
    kindOf v = .ok kind ↔ v = .text kind.text := by
  cases v with
  | text s =>
    rw [kindOf, Json.text.injEq, ← VersionKind.ofText?_eq_some]
    cases VersionKind.ofText? s <;> simp
  | null | bool | int | float | list | object => simp [kindOf]

theorem versionOf_eq_ok {pinned : Text} {v : Version} :
    versionOf pinned (find? "version_type" members) = .ok v ↔
      v.text = pinned ∧ GivesKind members pinned v.kind := by
  rw [GivesKind]
  cases find? "version_type" members with
  | none => simp [versionOf, Version.ofText_eq]
  | some w =>
    cases w with
    | null => simp [versionOf, Version.ofText_eq]
    | bool | int | float | text | list | object =>
      simp [versionOf, bind_eq_ok, kindOf_eq_ok, Version.ofKind_eq_ok, and_comm]

/-! ## Parts of an object -/

theorem textsAt?_eq_some {texts : List Text} :
    textsAt? name members = some texts ↔ ListsTexts name members texts := by
  rw [textsAt?, ListsTexts, ListsValues]
  cases find? name members with
  | none => simp [eq_comm]
  | some v => simp [texts?_eq_some]

theorem textAt?_eq_some {s : Text} :
    textAt? name members = some s ↔ find? name members = some (.text s) ∧ s ≠ "" := by
  unfold textAt?
  cases find? name members with
  | none => simp
  | some v =>
    cases v with
    | text t =>
      by_cases h : t = ""
      · simp [h, eq_comm]
      · simp only [Option.some.injEq, text.injEq, h, if_false]
        exact ⟨fun hts => ⟨hts, hts ▸ h⟩, And.left⟩
    | null | bool | int | float | list | object => simp

/-! ## Projects -/

/-- The object describes the project: root, version and packages stand in it as they are, and the
    kind of the version is the one that is given. -/
structure DescribesProject (members : List (Text × Json)) (p : LockedProject) : Prop where
  root : find? "root" members = some (.text p.root)
  root_ne : p.root ≠ ""
  version : find? "version" members = some (.text p.version.text)
  version_ne : p.version.text ≠ ""
  kind : GivesKind members p.version.text p.version.kind
  packages : ListsTexts "packages" members p.packages

/-- Each part is what its reader makes of the object. -/
theorem describesProject_iff {p : LockedProject} : DescribesProject members p ↔
    textAt? "root" members = some p.root ∧ textAt? "version" members = some p.version.text ∧
    versionOf p.version.text (find? "version_type" members) = .ok p.version ∧
    textsAt? "packages" members = some p.packages := by
  rw [textAt?_eq_some, textAt?_eq_some, versionOf_eq_ok, textsAt?_eq_some]
  constructor
  · intro h
    exact ⟨⟨h.root, h.root_ne⟩, ⟨h.version, h.version_ne⟩, ⟨rfl, h.kind⟩, h.packages⟩
  · rintro ⟨⟨hroot, hrootNe⟩, ⟨hversion, hversionNe⟩, ⟨-, hkind⟩, hpackages⟩
    exact ⟨hroot, hrootNe, hversion, hversionNe, hkind, hpackages⟩

theorem projectOfJson_object {p : LockedProject} :
    (projectOfJson (.object members)).outcome = .ok p ↔ DescribesProject members p := by
  rw [describesProject_iff, projectOfJson]
  dsimp only
  cases textAt? "root" members with
  | none => simp
  | some root =>
    cases textAt? "version" members with
    | none => simp
    | some pinned =>
      dsimp only
      rw [Noted.outcome_remarked, Noted.outcome_bind, Noted.outcome_lift, bind_eq_ok]
      simp only [mapError_eq_ok]
      cases textsAt? "packages" members with
      | none => simp
      | some packages =>
        simp only [Noted.outcome_pure, Except.ok.injEq, Option.some.injEq]
        constructor
        · rintro ⟨version, hversion, rfl⟩
          obtain ⟨rfl, -⟩ := versionOf_eq_ok.1 hversion
          exact ⟨rfl, rfl, hversion, rfl⟩
        · rintro ⟨rfl, rfl, hversion, rfl⟩
          exact ⟨p.version, hversion, rfl⟩

theorem projectOfJson_eq_ok {v : Json} {p : LockedProject} : (projectOfJson v).outcome = .ok p ↔
    ∃ members, v = .object members ∧ DescribesProject members p := by
  cases v with
  | object members => simp [projectOfJson_object]
  | null | bool | int | float | text | list => simp [projectOfJson]

/-- The projects are read one by one. -/
theorem outcome_projectsOfJson (items : List Json) :
    (projectsOfJson items).outcome = items.mapM fun v => (projectOfJson v).outcome := by
  induction items with
  | nil => rfl
  | cons v vs ih =>
    rw [projectsOfJson, List.mapM_cons, Noted.outcome_bind]
    simp only [Noted.outcome_bind, ih]
    rfl

/-! ## Locks -/

/-- Projects make a lock if no root comes twice. -/
theorem ofProjects_eq_ok {projects : List LockedProject} {imports : List Text} {lock : Lock} :
    ofProjects projects imports = .ok lock ↔
      lock.projects = projects ∧ lock.inputImports = imports := by
  unfold ofProjects
  split
  · rename_i hnone
    obtain ⟨ps, is, hdistinct⟩ := lock
    simp [eq_comm]
  · rename_i root hsome
    refine iff_of_false (by simp) ?_
    rintro ⟨rfl, rfl⟩
    have hnone : firstRepeated [] (lock.projects.map LockedProject.root) = none :=
      firstRepeated_eq_none.2 ⟨lock.distinct, fun _ _ => List.not_mem_nil⟩
    cases hnone.symm.trans hsome

/-- The values of a list describe the projects, one by one. -/
def DescribesProjects (items : List Json) (projects : List LockedProject) : Prop :=
  List.Forall₂ (fun item p => ∃ members, item = .object members ∧ DescribesProject members p)
    items projects

/-- The document describes the lock: it is an object that lists the import paths and the projects
    of the lock in their order. -/
def Describes (v : Json) (lock : Lock) : Prop :=
  ∃ members items, v = .object members ∧ ListsTexts "input_imports" members lock.inputImports ∧
    ListsValues "projects" members items ∧ DescribesProjects items lock.projects

theorem projectsOfJson_eq_ok {items : List Json} {projects : List LockedProject} :
    (projectsOfJson items).outcome = .ok projects ↔ DescribesProjects items projects := by
  rw [outcome_projectsOfJson, mapM_eq_ok]
  simp only [projectOfJson_eq_ok, DescribesProjects]

/-- The projects of a list are read, and then a root that comes twice is looked for. -/
theorem readItems_eq_ok {items : List Json} {imports : List Text} {lock : Lock} :
    (projectsOfJson items >>= fun projects =>
      Noted.lift ((ofProjects projects imports).mapError LockError.lockedTwice)).outcome =
        .ok lock ↔ lock.inputImports = imports ∧ DescribesProjects items lock.projects := by
  simp only [Noted.outcome_bind, Noted.outcome_lift, bind_eq_ok, mapError_eq_ok, ofProjects_eq_ok,
    projectsOfJson_eq_ok]
  constructor
  · rintro ⟨projects, hprojects, rfl, himports⟩
    exact ⟨himports, hprojects⟩
  · rintro ⟨himports, hprojects⟩
    exact ⟨lock.projects, hprojects, rfl, himports⟩

theorem ofJson_object {lock : Lock} : (ofJson (.object members)).outcome = .ok lock ↔
    textsAt? "input_imports" members = some lock.inputImports ∧
    ∃ items, ListsValues "projects" members items ∧ DescribesProjects items lock.projects := by
  rw [ofJson]
  dsimp only [ListsValues]
  cases textsAt? "input_imports" members with
  | none => simp
  | some imports =>
    cases find? "projects" members with
    | none =>
      dsimp only
      rw [readItems_eq_ok]
      simp [eq_comm]
    | some w =>
      cases w with
      | list items =>
        dsimp only
        rw [readItems_eq_ok]
        simp [eq_comm]
      | null | bool | int | float | text | object => simp

theorem ofJson_eq_ok {v : Json} {lock : Lock} :
    (ofJson v).outcome = .ok lock ↔ Describes v lock := by
  cases v with
  | object members => simp [ofJson_object, Describes, textsAt?_eq_some]
  | null | bool | int | float | text | list => simp [ofJson, Describes]

/-! ## What a document needs -/

/-- The kind of version is left open, or it is named and the text may be of that kind. -/
def AdmitsKind (members : List (Text × Json)) (pinned : Text) : Prop :=
  find? "version_type" members = none ∨ find? "version_type" members = some .null ∨
  ∃ kind : VersionKind, find? "version_type" members = some (.text kind.text) ∧
    (kind = .semver → Semver.accepts pinned = true)

/-- The object has what a project needs, under the root. -/
structure IsProject (members : List (Text × Json)) (root : Text) : Prop where
  root_eq : find? "root" members = some (.text root)
  root_ne : root ≠ ""
  version : ∃ pinned, find? "version" members = some (.text pinned) ∧ pinned ≠ "" ∧
    AdmitsKind members pinned
  packages : ∃ texts, ListsTexts "packages" members texts

/-- The value has what the document of a lock needs, and no root in it comes twice. -/
def IsDocument (v : Json) : Prop :=
  ∃ members items roots, v = .object members ∧
    (∃ texts, ListsTexts "input_imports" members texts) ∧ ListsValues "projects" members items ∧
    List.Forall₂ (fun item root => ∃ parts, item = .object parts ∧ IsProject parts root)
      items roots ∧
    roots.Nodup

theorem admitsKind_iff {pinned : Text} : AdmitsKind members pinned ↔
    ∃ v : Version, v.text = pinned ∧ GivesKind members pinned v.kind := by
  constructor
  · rintro (hnone | hnull | ⟨kind, hkind, hreads⟩)
    · obtain ⟨htext, hv⟩ := Version.ofText_eq.1 (Eq.refl (Version.ofText pinned))
      exact ⟨.ofText pinned, htext, Or.inr ⟨Or.inl hnone, hv⟩⟩
    · obtain ⟨htext, hv⟩ := Version.ofText_eq.1 (Eq.refl (Version.ofText pinned))
      exact ⟨.ofText pinned, htext, Or.inr ⟨Or.inr hnull, hv⟩⟩
    · exact ⟨⟨pinned, kind, hreads⟩, rfl, Or.inl hkind⟩
  · rintro ⟨v, rfl, hkind | ⟨hnone | hnull, -⟩⟩
    · exact Or.inr (Or.inr ⟨v.kind, hkind, v.reads⟩)
    · exact Or.inl hnone
    · exact Or.inr (Or.inl hnull)

theorem isProject_iff {root : Text} :
    IsProject members root ↔ ∃ p, DescribesProject members p ∧ p.root = root := by
  constructor
  · intro h
    obtain ⟨pinned, hversion, hversionNe, hadmits⟩ := h.version
    obtain ⟨v, rfl, hkind⟩ := admitsKind_iff.1 hadmits
    obtain ⟨texts, htexts⟩ := h.packages
    exact ⟨⟨root, v, texts⟩, ⟨h.root_eq, h.root_ne, hversion, hversionNe, hkind, htexts⟩, rfl⟩
  · rintro ⟨p, h, rfl⟩
    have hadmits : AdmitsKind members p.version.text := admitsKind_iff.2 ⟨p.version, rfl, h.kind⟩
    exact ⟨h.root, h.root_ne, ⟨_, h.version, h.version_ne, hadmits⟩, _, h.packages⟩

theorem isProjects_iff {items : List Json} {roots : List Text} :
    List.Forall₂ (fun item root => ∃ parts, item = .object parts ∧ IsProject parts root)
      items roots ↔
    ∃ projects, DescribesProjects items projects ∧ projects.map LockedProject.root = roots := by
  constructor
  · intro h
    induction h with
    | nil => exact ⟨[], .nil, rfl⟩
    | cons hitem _ ih =>
      obtain ⟨parts, hparts, hproject⟩ := hitem
      obtain ⟨p, hp, rfl⟩ := isProject_iff.1 hproject
      obtain ⟨ps, hps, rfl⟩ := ih
      exact ⟨p :: ps, .cons ⟨parts, hparts, hp⟩ hps, rfl⟩
  · rintro ⟨projects, hprojects, rfl⟩
    refine List.forall₂_map_right_iff.2 (hprojects.imp ?_)
    rintro item p ⟨parts, hparts, hp⟩
    exact ⟨parts, hparts, isProject_iff.2 ⟨p, hp, rfl⟩⟩

theorem isDocument_iff {v : Json} : IsDocument v ↔ ∃ lock, Describes v lock := by
  constructor
  · rintro ⟨members, items, roots, rfl, ⟨imports, himports⟩, hitems, hroots, hdistinct⟩
    obtain ⟨projects, hprojects, rfl⟩ := isProjects_iff.1 hroots
    exact ⟨⟨projects, imports, hdistinct⟩, members, items, rfl, himports, hitems, hprojects⟩
  · rintro ⟨lock, members, items, rfl, himports, hitems, hprojects⟩
    exact ⟨members, items, _, rfl, ⟨_, himports⟩, hitems, isProjects_iff.2 ⟨_, hprojects, rfl⟩,
      lock.distinct⟩

/-- **Which documents are locks.** A document makes a lock exactly if it is an object that has what
    a lock needs, and any other is rejected. The lock has the import paths and the projects of the
    document, in their order; where the kind of a version is missing or null, the version is a tag
    if its text is a semantic version and a revision if not. -/
theorem ofJson_acceptsLocks (v : Json) :
    ((∃ lock, (ofJson v).outcome = .ok lock) ↔ IsDocument v) ∧
    ((∃ e : LockError, (ofJson v).outcome = .error e) ↔ ¬ IsDocument v) ∧
    ∀ lock, (ofJson v).outcome = .ok lock ↔ Describes v lock := by
  have haccepted : (∃ lock, (ofJson v).outcome = .ok lock) ↔ IsDocument v := by
    rw [isDocument_iff]
    exact exists_congr fun lock => ofJson_eq_ok
  exact ⟨haccepted, fails_iff.trans (not_congr haccepted), fun lock => ofJson_eq_ok⟩

end Lock

end LockFit
