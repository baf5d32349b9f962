import LockFit.Package.Document
import LockFit.Proofs.Json.Shape
import LockFit.Proofs.Outcome
import LockFit.Proofs.Package.Additions

/-
  Which documents are package trees.
  `IsDocument` says what a document needs and `Describes` which tree it describes. An entry is read
  exactly as the package that it describes (`packageOfJson_eq_ok`). The entries are added one after
  the other: each step keeps that the tree holds the package of the last entry under every path
  (`Holds.add`), and so does every run (`Holds.addEntries`). A run goes through exactly if all its
  entries are packages under the root (`addEntries_isOk`). Together this is `ofJson_acceptsTrees`.
-/

namespace LockFit.PackageTree

open Json ImportPath

variable {members : List (Text × Json)} {name path : Text} {v : Json} {package : Package}

/-! ## Packages -/

/-- What the object lists under a name; null counts as a name that is missing. -/
def ListsOrNull (name : Text) (members : List (Text × Json)) (texts : List Text) : Prop :=
  ListsTexts name members texts ∨ find? name members = some .null ∧ texts = []

/-- The members of an entry; null counts as an object without any. -/
def HasMembers (v : Json) (members : List (Text × Json)) : Prop :=
  v = .object members ∨ v = .null ∧ members = []

/-- The entry under a path describes the package: the package has the path, the imports are listed
    as they are, and it is a command if the value that says so counts as true. -/
structure DescribesPackage (path : Text) (members : List (Text × Json)) (p : Package) :
    Prop where
  path : p.path = path
  imports : ListsOrNull "imports" members p.imports
  testImports : ListsOrNull "test_imports" members p.testImports
  isMain : p.isMain = true ↔ ∃ w, find? "main" members = some w ∧ w.isTruthy = true

def DescribesEntry (path : Text) (v : Json) (p : Package) : Prop :=
  ∃ members, HasMembers v members ∧ DescribesPackage path members p

theorem textsOrNone?_eq_some {texts : List Text} :
    textsOrNone? name members = some texts ↔ ListsOrNull name members texts := by
  rw [textsOrNone?, ListsOrNull, ListsTexts, ListsValues]
  cases find? name members with
  | none => simp [eq_comm]
  | some w =>
    cases w with
    | null => simp [eq_comm]
    | bool | int | float | text | list | object => simp [texts?_eq_some]

theorem packageMembers?_eq_some : packageMembers? v = some members ↔ HasMembers v members := by
  rw [HasMembers]
  cases v with
  | null => simp [packageMembers?, eq_comm]
  | object ms => simp [packageMembers?]
  | bool | int | float | text | list => simp [packageMembers?]

/-- Without a value that says so the package is no command. -/
theorem getD_isTruthy (members : List (Text × Json)) :
    ((find? "main" members).map Json.isTruthy).getD false = true ↔
      ∃ w, find? "main" members = some w ∧ w.isTruthy = true := by
  cases find? "main" members with
  | none => simp
  | some w => simp

/-- Each part is what its reader makes of the object. -/
theorem describesPackage_iff : DescribesPackage path members package ↔
    package.path = path ∧ textsOrNone? "imports" members = some package.imports ∧
    textsOrNone? "test_imports" members = some package.testImports ∧
    ((find? "main" members).map Json.isTruthy).getD false = package.isMain := by
  rw [textsOrNone?_eq_some, textsOrNone?_eq_some, Bool.eq_iff_iff, getD_isTruthy]
  exact ⟨fun h => ⟨h.path, h.imports, h.testImports, h.isMain.symm⟩,
    fun h => ⟨h.1, h.2.1, h.2.2.1, h.2.2.2.symm⟩⟩

theorem packageOfJson_of_members (h : packageMembers? v = some members) :
    (packageOfJson path v).outcome = .ok package ↔ DescribesPackage path members package := by
  rw [packageOfJson, h, describesPackage_iff]
  dsimp only
  rw [Noted.outcome_remarked]
  cases textsOrNone? "imports" members with
  | none => simp
  | some imports =>
    cases textsOrNone? "test_imports" members with
    | none => simp
    | some testImports =>
      obtain ⟨path', imports', testImports', isMain'⟩ := package
      simp [eq_comm]

theorem packageOfJson_eq_ok :
    (packageOfJson path v).outcome = .ok package ↔ DescribesEntry path v package := by
  simp only [DescribesEntry, ← packageMembers?_eq_some]
  cases hmembers : packageMembers? v with
  | none => simp [packageOfJson, hmembers]
  | some members => simp [packageOfJson_of_members hmembers]

/-! ## Entries -/

/-- The value of the last entry under the path; in a document that is read from a text there is one
    entry at most. -/
def lastUnder (path : Text) (entries : List (Text × Json)) : Option Json :=
  find? path entries.reverse

theorem lastUnder_append (path : Text) (entries : List (Text × Json)) (e : Text × Json) :
    lastUnder path (entries ++ [e]) = if e.1 = path then some e.2 else lastUnder path entries := by
  rw [lastUnder, List.reverse_append]
  rfl

/-- Under every path the tree has the package that the last entry under the path describes, and no
    package where there is no entry. -/
def Holds (tree : PackageTree) (entries : List (Text × Json)) : Prop :=
  ∀ path, Option.Rel (DescribesEntry path) (lastUnder path entries) (tree.get? path)

variable {tree next : PackageTree} {entries before : List (Text × Json)}

theorem holds_ofRoot (root : Text) (isStandard : Text → Bool) :
    (ofRoot root isStandard).Holds [] := fun _ => .none

/-- One entry more: its package is added, and every other path keeps what it has. -/
theorem Holds.add (h : tree.Holds before) (hentry : DescribesEntry path v package)
    (hadd : tree.add package = .ok next) : next.Holds (before ++ [(path, v)]) := by
  obtain ⟨-, -, -, hpackages⟩ := add_eq_ok.1 hadd
  have hpath : package.path = path := hentry.choose_spec.2.path
  intro other
  rw [lastUnder_append, get?, hpackages, TextMap.get?_insert, hpath]
  by_cases hother : path = other
  · subst hother
    rw [if_pos rfl, if_pos rfl]
    exact .some hentry
  · rw [if_neg hother, if_neg hother]
    exact h other

theorem addEntries_cons {rest : List (Text × Json)} {last : PackageTree} :
    (tree.addEntries ((path, v) :: rest)).outcome = .ok last ↔
      ∃ package, DescribesEntry path v package ∧
        ∃ next, tree.add package = .ok next ∧ (next.addEntries rest).outcome = .ok last := by
  simp only [addEntries, Noted.outcome_bind, Noted.outcome_lift, bind_eq_ok, mapError_eq_ok,
    packageOfJson_eq_ok]

/-- A run of entries that goes through. -/
theorem Holds.addEntries (h : tree.Holds before)
    (hrun : (tree.addEntries entries).outcome = .ok next) :
    next.Holds (before ++ entries) ∧ next.root = tree.root ∧
      next.isStandard = tree.isStandard := by
  induction entries generalizing tree before with
  | nil =>
    cases hrun
    rw [List.append_nil]
    exact ⟨h, rfl, rfl⟩
  | cons e rest ih =>
    obtain ⟨package, hentry, mid, hadd, hrest⟩ := addEntries_cons.1 hrun
    obtain ⟨-, hroot, hstandard, -⟩ := add_eq_ok.1 hadd
    obtain ⟨hholds, hroot', hstandard'⟩ := ih (h.add hentry hadd) hrest
    rw [List.append_assoc] at hholds
    exact ⟨hholds, hroot'.trans hroot, hstandard'.trans hstandard⟩

/-! ## What a document needs -/

/-- The value is null, or an object in which the imports and those of the tests, if they are there
    and not null, are lists of texts. -/
def IsPackage (v : Json) : Prop :=
  ∃ members, HasMembers v members ∧ (∃ texts, ListsOrNull "imports" members texts) ∧
    ∃ texts, ListsOrNull "test_imports" members texts

/-- The entries of the packages; there are none if the name is missing. -/
def HasEntries (members entries : List (Text × Json)) : Prop :=
  find? "packages" members = some (.object entries) ∨
  find? "packages" members = none ∧ entries = []

/-- The value has what the document of a package tree needs. -/
def IsDocument (v : Json) : Prop :=
  ∃ members root entries, v = .object members ∧
    find? "import_root" members = some (.text root) ∧ root ≠ "" ∧ HasEntries members entries ∧
    ∀ e ∈ entries, IsPackage e.2 ∧ Under root e.1

/-- The document describes the tree: it has the root but for slashes at the end, and under each path
    the package that the entry under the path describes. -/
def Describes (v : Json) (tree : PackageTree) : Prop :=
  ∃ members root entries, v = .object members ∧
    find? "import_root" members = some (.text root) ∧ HasEntries members entries ∧
    tree.root = dropSlashes root ∧ tree.isStandard = ImportPath.isStandard ∧ tree.Holds entries

theorem isPackage_iff (path : Text) : IsPackage v ↔ ∃ package, DescribesEntry path v package := by
  constructor
  · rintro ⟨members, hmembers, ⟨imports, himports⟩, testImports, htestImports⟩
    refine ⟨⟨path, imports, testImports, ((find? "main" members).map Json.isTruthy).getD false⟩,
      members, hmembers, describesPackage_iff.2 ⟨rfl, ?_, ?_, rfl⟩⟩
    · exact textsOrNone?_eq_some.2 himports
    · exact textsOrNone?_eq_some.2 htestImports
  · rintro ⟨package, members, hmembers, h⟩
    exact ⟨members, hmembers, ⟨_, h.imports⟩, _, h.testImports⟩

theorem add_isOk : (∃ next, tree.add package = .ok next) ↔
    covers tree.root package.path = true := by
  constructor
  · rintro ⟨next, hadd⟩
    exact (add_eq_ok.1 hadd).1
  · intro hcovers
    cases hadd : tree.add package with
    | ok next => exact ⟨next, rfl⟩
    | error e => cases hcovers.symm.trans (add_eq_error.1 hadd).1

/-- A run of entries goes through exactly if all of them are packages under the root. -/
theorem addEntries_isOk : (∃ last, (tree.addEntries entries).outcome = .ok last) ↔
    ∀ e ∈ entries, IsPackage e.2 ∧ covers tree.root e.1 = true := by
  induction entries generalizing tree with
  | nil => exact iff_of_true ⟨tree, rfl⟩ (by simp)
  | cons e rest ih =>
    obtain ⟨path, v⟩ := e
    -- the root stays what it is, so the rest is judged by the same root
    have hrest {next : PackageTree} {package : Package} (hadd : tree.add package = .ok next) :
        (∃ last, (next.addEntries rest).outcome = .ok last) ↔
          ∀ e ∈ rest, IsPackage e.2 ∧ covers tree.root e.1 = true := by
      rw [ih, (add_eq_ok.1 hadd).2.1]
    simp only [addEntries_cons, List.forall_mem_cons]
    rw [isPackage_iff path]
    constructor
    · rintro ⟨last, package, hentry, next, hadd, hlast⟩
      have hcovers := add_isOk.1 ⟨next, hadd⟩
      rw [hentry.choose_spec.2.path] at hcovers
      exact ⟨⟨⟨package, hentry⟩, hcovers⟩, (hrest hadd).1 ⟨last, hlast⟩⟩
    · rintro ⟨⟨⟨package, hentry⟩, hcovers⟩, hothers⟩
      rw [← hentry.choose_spec.2.path] at hcovers
      obtain ⟨next, hadd⟩ := add_isOk.2 hcovers
      obtain ⟨last, hlast⟩ := (hrest hadd).2 hothers
      exact ⟨last, package, hentry, next, hadd, hlast⟩

theorem ofJson_object : (ofJson (.object members)).outcome = .ok tree ↔
    ∃ root entries, find? "import_root" members = some (.text root) ∧ root ≠ "" ∧
      HasEntries members entries ∧
      ((ofRoot root ImportPath.isStandard).addEntries entries).outcome = .ok tree := by
  rw [ofJson]
  dsimp only [HasEntries]
  cases find? "import_root" members with
  | none => simp
  | some w =>
    cases w with
    | text root =>
      by_cases hroot : root = ""
      · simp [hroot]
      · cases find? "packages" members with
        | none => simp [hroot]
        | some u =>
          cases u with
          | object entries => simp [hroot]
          | null | bool | int | float | text | list => simp [hroot]
    | null | bool | int | float | list | object => simp

theorem addEntries_ofRoot_isOk {root : Text} {isStandard : Text → Bool} :
    (∃ tree, ((ofRoot root isStandard).addEntries entries).outcome = .ok tree) ↔
      ∀ e ∈ entries, IsPackage e.2 ∧ Under root e.1 := by
  have hroot : (ofRoot root isStandard).root = dropSlashes root := rfl
  simp only [addEntries_isOk, hroot, covers_iff, Under, Rules.dropSlashes_idem]

theorem ofJson_isOk : (∃ tree, (ofJson v).outcome = .ok tree) ↔ IsDocument v := by
  cases v with
  | object members =>
    simp only [ofJson_object]
    constructor
    · rintro ⟨tree, root, entries, hroot, hne, hentries, hrun⟩
      have hall := addEntries_ofRoot_isOk.1 ⟨tree, hrun⟩
      exact ⟨members, root, entries, rfl, hroot, hne, hentries, hall⟩
    · rintro ⟨ms, root, entries, hms, hroot, hne, hentries, hall⟩
      obtain rfl := Json.object.inj hms
      obtain ⟨tree, hrun⟩ := addEntries_ofRoot_isOk.2 hall
      exact ⟨tree, root, entries, hroot, hne, hentries, hrun⟩
  | null | bool | int | float | text | list => simp [ofJson, IsDocument]

theorem describes_of_ofJson (h : (ofJson v).outcome = .ok tree) : Describes v tree := by
  cases v with
  | object members =>
    obtain ⟨root, entries, hroot, -, hentries, hrun⟩ := ofJson_object.1 h
    obtain ⟨hholds, hroot', hstandard⟩ := (holds_ofRoot root ImportPath.isStandard).addEntries hrun
    exact ⟨members, root, entries, rfl, hroot, hentries, hroot', hstandard, hholds⟩
  | null | bool | int | float | text | list => simp [ofJson] at h

/-- **Which documents are package trees.** A document makes a tree exactly if it is an object with
    an import root and with entries that are packages under this root, and any other is rejected.
    The tree has one package for each path in the document, with the imports in their order. -/
theorem ofJson_acceptsTrees (v : Json) :
    ((∃ tree, (ofJson v).outcome = .ok tree) ↔ IsDocument v) ∧
    ((∃ e : TreeError, (ofJson v).outcome = .error e) ↔ ¬ IsDocument v) ∧
    ∀ tree, (ofJson v).outcome = .ok tree → Describes v tree :=
  ⟨ofJson_isOk, fails_iff.trans (not_congr ofJson_isOk), fun _ => describes_of_ofJson⟩

end LockFit.PackageTree
