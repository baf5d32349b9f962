import LockFit.Manifest.Basic
import LockFit.Package.Reach
import LockFit.Proofs.ImportPath.Segments
import Mathlib.Data.List.Induction

/-
  Adding packages to a tree, one call after the other.
  A call accepts a package that lies under the root of the tree and puts it in place of one with the
  same path; any other package is refused and the tree stays as it was (`Filling.call_cases`). With
  the accepted packages kept beside the tree, each call preserves that look-up answers with the last
  accepted package under a path (`Filling.Faithful.call`), and so does every sequence of calls
  (`faithful_fill`). What a caller sees of a tree after any calls follows (`fill_lastAccepted`).
-/

namespace LockFit

open ImportPath

namespace PackageTree

variable {tree next : PackageTree} {package : Package}

theorem eq_of_packages {tree tree' : PackageTree} (hroot : tree.root = tree'.root)
    (hstandard : tree.isStandard = tree'.isStandard) (hpackages : tree.packages = tree'.packages) :
    tree = tree' := by
  cases tree
  cases tree'
  dsimp only at hroot hstandard hpackages
  subst hroot hstandard hpackages
  rfl

/-- A package is added if it lies under the root, and then it is all that changes. -/
theorem add_eq_ok : tree.add package = .ok next ↔ tree.isInternal package.path = true ∧
    next.root = tree.root ∧ next.isStandard = tree.isStandard ∧
    next.packages = tree.packages.insert package.path package := by
  unfold add
  split
  · rename_i hin
    rw [Except.ok.injEq]
    constructor
    · rintro rfl
      exact ⟨hin, rfl, rfl, rfl⟩
    · rintro ⟨-, hroot, hstandard, hpackages⟩
      exact eq_of_packages hroot.symm hstandard.symm hpackages.symm
  · rename_i hout
    simp [hout]

/-- A package that lies elsewhere is refused, with its path and the root as the reason. -/
theorem add_eq_error {e : OutsideRoot} : tree.add package = .error e ↔
    tree.isInternal package.path = false ∧ e = ⟨package.path, tree.root⟩ := by
  unfold add
  split
  · rename_i hin
    simp [hin]
  · rename_i hout
    simp [hout, eq_comm]

end PackageTree

/-! ## A sequence of calls -/

/-- A tree that packages are added to, and the packages that it has accepted, in their order. -/
structure Filling where
  tree : PackageTree
  accepted : List Package

namespace Filling

/-- A call to add a package; one that is refused leaves everything as it was. -/
def call (s : Filling) (package : Package) : Filling :=
  match s.tree.add package with
  | .ok next => ⟨next, s.accepted ++ [package]⟩
  | .error _ => s

variable {s : Filling} {root : Text} {package : Package}

/-- What a call does: it accepts a package under the root and refuses any other. -/
theorem call_cases (s : Filling) (package : Package) :
    (s.tree.isInternal package.path = true ∧ (s.call package).tree.root = s.tree.root ∧
      (s.call package).tree.isStandard = s.tree.isStandard ∧
      (s.call package).tree.packages = s.tree.packages.insert package.path package ∧
      (s.call package).accepted = s.accepted ++ [package]) ∨
    (s.tree.isInternal package.path = false ∧
      s.tree.add package = .error ⟨package.path, s.tree.root⟩ ∧ s.call package = s) := by
  rw [call]
  cases hadd : s.tree.add package with
  | ok next =>
    obtain ⟨hin, hroot, hstandard, hpackages⟩ := PackageTree.add_eq_ok.1 hadd
    exact Or.inl ⟨hin, hroot, hstandard, hpackages, rfl⟩
  | error e =>
    obtain ⟨hout, rfl⟩ := PackageTree.add_eq_error.1 hadd
    exact Or.inr ⟨hout, rfl, rfl⟩

/-- The last of the packages with the path. -/
def lastAt (path : Text) (packages : List Package) : Option Package :=
  (packages.filter fun p => p.path = path).getLast?

theorem lastAt_append (path : Text) (packages : List Package) (package : Package) :
    lastAt path (packages ++ [package]) =
      if package.path = path then some package else lastAt path packages := by
  rw [lastAt, lastAt, List.filter_append]
  by_cases h : package.path = path
  · simp [h]
  · simp [h]

/-- The tree has the root and answers with what it has accepted last. -/
structure Faithful (root : Text) (isStandard : Text → Bool) (s : Filling) : Prop where
  root : s.tree.root = dropSlashes root
  isStandard : s.tree.isStandard = isStandard
  last : ∀ path, s.tree.get? path = lastAt path s.accepted

variable {isStandard : Text → Bool}

theorem Faithful.isInternal (h : s.Faithful root isStandard) (path : Text) :
    s.tree.isInternal path = decide (Under root path) := by
  have hroot : dropSlashes s.tree.root = dropSlashes root := by
    rw [h.root, Rules.dropSlashes_idem]
  rw [PackageTree.isInternal, Bool.eq_iff_iff, covers_iff, decide_eq_true_eq, Under, Under, hroot]

theorem Faithful.begin (root : Text) (isStandard : Text → Bool) :
    Faithful root isStandard ⟨.ofRoot root isStandard, []⟩ := ⟨rfl, rfl, fun _ => rfl⟩

theorem Faithful.call (h : s.Faithful root isStandard) (package : Package) :
    (s.call package).Faithful root isStandard := by
  rcases call_cases s package with ⟨-, hroot, hstandard, hpackages, haccepted⟩ | ⟨-, -, hsame⟩
  · refine ⟨hroot.trans h.root, hstandard.trans h.isStandard, fun path => ?_⟩
    rw [haccepted, lastAt_append, ← h.last path, PackageTree.get?, hpackages, TextMap.get?_insert]
    rfl
  · rw [hsame]
    exact h

/-- A call accepts a package exactly if its path lies under the root. -/
theorem Faithful.accepted_call (h : s.Faithful root isStandard) (package : Package) :
    (s.call package).accepted =
      if Under root package.path then s.accepted ++ [package] else s.accepted := by
  rcases call_cases s package with ⟨hin, -, -, -, haccepted⟩ | ⟨hout, -, hsame⟩
  · rw [h.isInternal, decide_eq_true_eq] at hin
    rw [haccepted, if_pos hin]
  · rw [h.isInternal, decide_eq_false_iff_not] at hout
    rw [hsame, if_neg hout]

theorem Faithful.add_eq_error (h : s.Faithful root isStandard) {e : OutsideRoot} :
    s.tree.add package = .error e ↔
      ¬ Under root package.path ∧ e = ⟨package.path, dropSlashes root⟩ := by
  rw [PackageTree.add_eq_error, h.isInternal, decide_eq_false_iff_not, h.root]

/-- A refused call leaves everything as it was. -/
theorem call_of_add_eq_error {e : OutsideRoot} (h : s.tree.add package = .error e) :
    s.call package = s := by
  rw [call, h]

end Filling

namespace PackageTree

open Filling

/-- What calls to add packages make of a tree that is empty at first. -/
def fill (root : Text) (isStandard : Text → Bool) (calls : List Package) : Filling :=
  calls.foldl Filling.call ⟨ofRoot root isStandard, []⟩

theorem fill_append (root : Text) (isStandard : Text → Bool) (calls : List Package)
    (package : Package) :
    fill root isStandard (calls ++ [package]) = (fill root isStandard calls).call package := by
  rw [fill, List.foldl_append]
  rfl

variable (root : Text) (isStandard : Text → Bool) (calls : List Package)

theorem faithful_fill : (fill root isStandard calls).Faithful root isStandard := by
  induction calls using List.reverseRecOn with
  | nil => exact Faithful.begin root isStandard
  | append_singleton calls package ih =>
    rw [fill_append]
    exact ih.call package

theorem accepted_fill :
    (fill root isStandard calls).accepted = calls.filter fun p => Under root p.path := by
  induction calls using List.reverseRecOn with
  | nil => rfl
  | append_singleton calls package ih =>
    rw [fill_append, (faithful_fill root isStandard calls).accepted_call, ih, List.filter_append]
    by_cases h : Under root package.path
    · simp [h]
    · simp [h]

theorem mem_paths_fill {path : Text} : path ∈ (fill root isStandard calls).tree.paths ↔
    ∃ package ∈ (fill root isStandard calls).accepted, package.path = path := by
  have hlast := (faithful_fill root isStandard calls).last path
  rw [get?, lastAt] at hlast
  rw [paths, TextMap.mem_keys, hlast, ← Option.isSome_iff_exists, List.getLast?_isSome, ne_eq,
    List.filter_eq_nil_iff]
  simp

/-- **A tree holds what it accepted last.** After any calls each package of the tree stands under
    its own path, which lies under the root; the paths are listed in ascending order and are those
    of the accepted packages; look-up answers with the last accepted package that has the path. A
    call is refused exactly if the path of its package does not lie under the root, and then the
    packages, their paths and what they reach stay as they were. -/
theorem fill_lastAccepted :
    ((fill root isStandard calls).tree.root = dropSlashes root ∧
      (fill root isStandard calls).tree.isStandard = isStandard) ∧
    (∀ path package, (fill root isStandard calls).tree.get? path = some package →
      package.path = path ∧ Under root path) ∧
    ((fill root isStandard calls).tree.paths.Pairwise (· < ·) ∧
      ∀ path, path ∈ (fill root isStandard calls).tree.paths ↔
        ∃ package ∈ (fill root isStandard calls).accepted, package.path = path) ∧
    (∀ path, (fill root isStandard calls).tree.get? path =
      ((fill root isStandard calls).accepted.filter fun p => p.path = path).getLast?) ∧
    (fill root isStandard calls).accepted = (calls.filter fun p => Under root p.path) ∧
    ∀ package e, ((fill root isStandard calls).tree.add package = .error e ↔
        ¬ Under root package.path ∧ e = ⟨package.path, dropSlashes root⟩) ∧
      ((fill root isStandard calls).tree.add package = .error e →
        ((fill root isStandard calls).call package).tree.packages =
          (fill root isStandard calls).tree.packages ∧
        ((fill root isStandard calls).call package).tree.paths =
          (fill root isStandard calls).tree.paths ∧
        ∀ q, ((fill root isStandard calls).call package).tree.reach q =
          (fill root isStandard calls).tree.reach q) := by
  have h : (fill root isStandard calls).Faithful root isStandard :=
    faithful_fill root isStandard calls
  refine ⟨⟨h.root, h.isStandard⟩, fun path package hget => ?_, ⟨?_, ?_⟩, h.last,
    accepted_fill root isStandard calls, fun package e => ⟨h.add_eq_error, fun hadd => ?_⟩⟩
  · obtain ⟨hpath, hcovers⟩ := (fill root isStandard calls).tree.placed path package hget
    have hin : (fill root isStandard calls).tree.isInternal path = true := hcovers
    rw [h.isInternal, decide_eq_true_eq] at hin
    exact ⟨hpath, hin⟩
  · exact List.pairwise_map.2 (fill root isStandard calls).tree.packages.ascending
  · exact fun path => mem_paths_fill root isStandard calls
  · rw [call_of_add_eq_error hadd]
    exact ⟨rfl, rfl, fun _ => rfl⟩

end PackageTree

end LockFit
