import LockFit.Proofs.Outcome
import LockFit.Proofs.Package.Additions
import LockFit.Proofs.Package.Reach

/-
  Trees that are the same but for the way they are written down.
  Alike packages differ in the order of their imports and in repetitions alone, and alike trees keep
  alike packages under the same paths. Packages may be added in any order (`foldlM_add_perm`), and
  alike ones in place of each other (`foldlM_add_rearranged`). What is listed by some source stays
  the same, so alike trees reach the same paths (`Alike.flattenReach_eq`), whatever ways the
  searches take through them.
-/

namespace LockFit

/-- The same package but for the order of imports and for repetitions. -/
structure Package.Alike (p p' : Package) : Prop where
  path : p.path = p'.path
  isMain : p.isMain = p'.isMain
  imports : ∀ i, i ∈ p.imports ↔ i ∈ p'.imports
  testImports : ∀ i, i ∈ p.testImports ↔ i ∈ p'.testImports

namespace Package.Alike

variable {p p' : Package}

theorem refl (p : Package) : p.Alike p := ⟨rfl, rfl, fun _ => Iff.rfl, fun _ => Iff.rfl⟩

theorem symm (h : p.Alike p') : p'.Alike p :=
  ⟨h.path.symm, h.isMain.symm, fun i => (h.imports i).symm, fun i => (h.testImports i).symm⟩

theorem lists_iff (h : p.Alike p') {q : ReachQuery} {i : Text} :
    p.Lists q i ↔ p'.Lists q i := by
  rw [Lists, Lists, h.imports, h.testImports]

end Package.Alike

/-- The same packages up to their order, the order of their imports and repetitions in these. -/
def Package.Rearranged (ps ps' : List Package) : Prop :=
  ∃ qs, ps.Perm qs ∧ List.Forall₂ Package.Alike qs ps'

namespace PackageTree

/-- The same tree but for imports of its packages in another order or repeated. -/
structure Alike (tree tree' : PackageTree) : Prop where
  root : tree.root = tree'.root
  isStandard : tree.isStandard = tree'.isStandard
  packages : ∀ path, Option.Rel Package.Alike (tree.get? path) (tree'.get? path)

variable {tree tree' next last : PackageTree} {p p' q : Package}

/-! ## Adding packages -/

theorem add_add_eq_ok : (tree.add p >>= fun next => next.add q) = .ok last ↔
    (tree.isInternal p.path = true ∧ tree.isInternal q.path = true) ∧
    last.root = tree.root ∧ last.isStandard = tree.isStandard ∧
    last.packages = (tree.packages.insert p.path p).insert q.path q := by
  simp only [bind_eq_ok, add_eq_ok, isInternal]
  constructor
  · rintro ⟨next, ⟨hp, hroot, hstandard, hpackages⟩, hq, hroot', hstandard', hpackages'⟩
    rw [hroot] at hq hroot'
    rw [hpackages] at hpackages'
    exact ⟨⟨hp, hq⟩, hroot', hstandard'.trans hstandard, hpackages'⟩
  · rintro ⟨⟨hp, hq⟩, hroot, hstandard, hpackages⟩
    obtain ⟨next, hnext⟩ : ∃ next, tree.add p = .ok next := ⟨_, dif_pos hp⟩
    obtain ⟨-, hroot', hstandard', hpackages'⟩ := add_eq_ok.1 hnext
    refine ⟨next, ⟨hp, hroot', hstandard', hpackages'⟩, ?_⟩
    rw [hroot', hstandard', hpackages']
    exact ⟨hq, hroot, hstandard, hpackages⟩

/-- Two packages with different paths may be added in either order. -/
theorem add_comm (h : p.path ≠ q.path) :
    (tree.add p >>= fun next => next.add q) = .ok last ↔
      (tree.add q >>= fun next => next.add p) = .ok last := by
  rw [add_add_eq_ok, add_add_eq_ok, TextMap.insert_comm h]
  exact and_congr_left fun _ => and_comm

theorem foldlM_add_perm {ps qs : List Package} (h : ps.Perm qs)
    (hdistinct : (ps.map Package.path).Nodup) :
    ps.foldlM add tree = .ok last ↔ qs.foldlM add tree = .ok last := by
  induction h generalizing tree with
  | nil => exact Iff.rfl
  | cons p _ ih =>
    rw [List.foldlM_cons, List.foldlM_cons, bind_eq_ok, bind_eq_ok]
    exact exists_congr fun next => and_congr_right fun _ => ih (List.nodup_cons.1 hdistinct).2
  | swap p q ps =>
    have hne : q.path ≠ p.path := fun heq =>
      (List.nodup_cons.1 hdistinct).1 (heq ▸ List.mem_cons_self)
    have htwo (p q : Package) : (p :: q :: ps).foldlM add tree =
        (tree.add p >>= fun next => next.add q) >>= fun next => ps.foldlM add next := by
      rw [bind_assoc]
      rfl
    rw [htwo, htwo, bind_eq_ok, bind_eq_ok]
    exact exists_congr fun next => and_congr_left fun _ => add_comm hne
  | trans h _ ih ih' => exact (ih hdistinct).trans (ih' ((h.map _).nodup_iff.1 hdistinct))

/-- Alike packages are added to alike trees with alike trees as result. -/
theorem Alike.add (h : tree.Alike tree') (hp : p.Alike p') (hadd : tree.add p = .ok next) :
    ∃ next', tree'.add p' = .ok next' ∧ next.Alike next' := by
  obtain ⟨hin, hroot, hstandard, hpackages⟩ := add_eq_ok.1 hadd
  have hin' : tree'.isInternal p'.path = true := by
    rw [isInternal, ← h.root, ← hp.path]
    exact hin
  obtain ⟨next', hadd'⟩ : ∃ next', tree'.add p' = .ok next' := ⟨_, dif_pos hin'⟩
  obtain ⟨-, hroot', hstandard', hpackages'⟩ := add_eq_ok.1 hadd'
  refine ⟨next', hadd', ⟨?_, ?_, fun path => ?_⟩⟩
  · rw [hroot, hroot', h.root]
  · rw [hstandard, hstandard', h.isStandard]
  · rw [get?, get?, hpackages, hpackages', TextMap.get?_insert, TextMap.get?_insert, ← hp.path]
    split
    · exact .some hp
    · exact h.packages path

theorem Alike.refl (tree : PackageTree) : tree.Alike tree := by
  refine ⟨rfl, rfl, fun path => ?_⟩
  cases tree.get? path with
  | none => exact .none
  | some p => exact .some (.refl p)

theorem Alike.symm (h : tree.Alike tree') : tree'.Alike tree := by
  refine ⟨h.root.symm, h.isStandard.symm, fun path => ?_⟩
  have hrel := h.packages path
  generalize tree.get? path = found, tree'.get? path = found' at hrel ⊢
  cases hrel with
  | none => exact .none
  | some hp => exact .some hp.symm

theorem Alike.foldlM_add {ps ps' : List Package} (hps : List.Forall₂ Package.Alike ps ps')
    (h : tree.Alike tree') (hadd : ps.foldlM PackageTree.add tree = .ok last) :
    ∃ last', ps'.foldlM PackageTree.add tree' = .ok last' ∧ last.Alike last' := by
  induction hps generalizing tree tree' with
  | nil =>
    obtain rfl := Except.ok.inj hadd
    exact ⟨tree', rfl, h⟩
  | cons hp _ ih =>
    rw [List.foldlM_cons, bind_eq_ok] at hadd
    obtain ⟨next, hnext, hlast⟩ := hadd
    obtain ⟨next', hnext', halike⟩ := h.add hp hnext
    obtain ⟨last', hlast', hresult⟩ := ih halike hlast
    exact ⟨last', by rw [List.foldlM_cons, bind_eq_ok]; exact ⟨next', hnext', hlast'⟩, hresult⟩

/-- Packages with distinct paths, in another order and with their imports written otherwise, make
    an alike tree. -/
theorem foldlM_add_rearranged {ps ps' : List Package} (h : Package.Rearranged ps ps')
    (hdistinct : (ps.map Package.path).Nodup) (hadd : ps.foldlM add tree = .ok last) :
    ∃ last', ps'.foldlM add tree = .ok last' ∧ last.Alike last' := by
  obtain ⟨qs, hperm, halike⟩ := h
  exact (Alike.refl tree).foldlM_add halike ((foldlM_add_perm hperm hdistinct).1 hadd)

/-! ## What alike trees reach -/

variable {query : ReachQuery} {path x : Text}

theorem Alike.imports (h : tree.Alike tree') (himports : tree.Imports query path x) :
    tree'.Imports query path x := by
  obtain ⟨p, ⟨hget, hignored, hmain⟩, hlists⟩ := himports
  obtain ⟨p', hget', hp⟩ : ∃ p', tree'.get? path = some p' ∧ p.Alike p' := by
    have hrel := h.packages path
    rw [hget] at hrel
    generalize tree'.get? path = found' at hrel ⊢
    cases hrel with
    | some hp => exact ⟨_, rfl, hp⟩
  exact ⟨p', ⟨hget', hignored, hp.isMain ▸ hmain⟩, hp.lists_iff.1 hlists⟩

/-- Alike trees reach the same. -/
theorem Alike.flattenReach_eq (h : tree.Alike tree') :
    tree.flattenReach query = tree'.flattenReach query := by
  refine TextSet.ext_mem fun x => ?_
  rw [mem_flattenReach, mem_flattenReach, h.isStandard]
  refine and_congr_left fun _ => exists_congr fun path => ?_
  rw [LeadsOut, LeadsOut, isInternal, isInternal, h.root]
  exact and_congr_left fun _ => ⟨h.imports, h.symm.imports⟩

end PackageTree

end LockFit
