import LockFit.Text.Sort
import LockFit.Version.Basic

/-
  Locks.
  A lock pins projects, each to one version, and lists the import paths that the pins were made
  for. No root is pinned twice: a lock carries the proof, and `ofProjects` refuses the first root
  that comes a second time. `canonical` puts projects and lists in order.
-/

namespace LockFit

/-- A project that is pinned to a version, and those of its packages that are used. -/
structure LockedProject where
  root : Text
  version : Version
  packages : List Text
  deriving DecidableEq

/-- Pinned projects and the import paths that they were pinned for. -/
@[ext]
structure Lock where
  projects : List LockedProject
  inputImports : List Text
  distinct : (projects.map LockedProject.root).Nodup
  deriving DecidableEq

/-- A root that is pinned twice. -/
structure LockedTwice where
  root : Text
  deriving DecidableEq

def LockedTwice.message (e : LockedTwice) : Text :=
  "Project " ++ Text.quoted e.root ++ " is locked more than once"

namespace Lock

/-- The first text that stands in the list a second time, or that was seen before. -/
def firstRepeated (seen : List Text) : List Text → Option Text
  | [] => none
  | x :: xs => if seen.contains x then some x else firstRepeated (x :: seen) xs

theorem firstRepeated_eq_none {seen xs : List Text} :
    firstRepeated seen xs = none ↔ xs.Nodup ∧ ∀ x ∈ xs, x ∉ seen := by
  induction xs generalizing seen with
  | nil => simp [firstRepeated]
  | cons x xs ih =>
    unfold firstRepeated
    by_cases hx : x ∈ seen
    · simp [hx]
    · simp only [List.contains_iff_mem, hx, if_false, ih, List.nodup_cons, List.mem_cons,
        not_or, forall_eq_or_imp, not_false_eq_true, true_and]
      constructor
      · rintro ⟨hnd, h⟩
        exact ⟨⟨fun hm => (h x hm).1 rfl, hnd⟩, fun y hy => (h y hy).2⟩
      · rintro ⟨⟨hm, hnd⟩, h⟩
        exact ⟨hnd, fun y hy => ⟨fun e => hm (e ▸ hy), h y hy⟩⟩

/-- The lock of the projects, unless a root comes twice. -/
def ofProjects (projects : List LockedProject) (inputImports : List Text) :
    Except LockedTwice Lock :=
  match h : firstRepeated [] (projects.map LockedProject.root) with
  | none => .ok ⟨projects, inputImports, (firstRepeated_eq_none.1 h).1⟩
  | some root => .error ⟨root⟩

/-- The project that is pinned under a root. -/
def get? (lock : Lock) (root : Text) : Option LockedProject :=
  lock.projects.find? fun p => p.root = root

/-- The pinned roots, in ascending order. -/
def roots (lock : Lock) : List Text := Text.sort (lock.projects.map LockedProject.root)

/-- The lock with its projects in the order of their roots and its lists in ascending order. -/
def canonical (lock : Lock) : Lock where
  projects := (Text.sortOn LockedProject.root lock.projects).map fun p =>
    { p with packages := Text.sort p.packages }
  inputImports := Text.sort lock.inputImports
  distinct := by
    have h : (fun p : LockedProject => p.root) ∘
        (fun p : LockedProject => { p with packages := Text.sort p.packages }) =
        LockedProject.root := rfl
    rw [List.map_map]
    change (List.map ((fun p : LockedProject => p.root) ∘ _) _).Nodup
    rw [h]
    exact ((Text.sortOn_perm LockedProject.root lock.projects).map _).nodup_iff.2 lock.distinct

end Lock

end LockFit
