import LockFit.Proofs.Outcome
import LockFit.Proofs.Satisfaction.PrefixIndex
import LockFit.Satisfaction.Basic

/-
  What a check of a lock finds.
  `outcome_satisfies` reads the check as one look at each locked project, and `verdict_eq_override`
  and `verdict_eq_constraint` say when that look finds a mismatch. The main statement is
  `satisfies_buckets`: if the check comes to an end, the missing and excess imports are the two
  differences between the required and the recorded ones, and the mismatches are the locked
  versions that an override, or a constraint that some required import falls under, does not allow.
-/

namespace LockFit

/-! ## One locked project -/

theorem Constraint.against_eq_ok {rule : Constraint} {version : Version}
    {broken : Mismatch → Verdict} {verdict : Verdict} :
    rule.against version broken = .ok verdict ↔
      rule.allows version = .ok true ∧ verdict = .fits ∨
      rule.allows version = .ok false ∧ verdict = broken ⟨rule, version⟩ := by
  rw [against]
  cases rule.allows version with
  | error e => simp [bind, Except.bind]
  | ok allowed =>
    cases allowed
    · simp [bind, Except.bind, pure, Except.pure, eq_comm]
    · simp [bind, Except.bind, pure, Except.pure, eq_comm]

namespace Manifest

variable {m : Manifest} {effectual : TextSet} {p : LockedProject} {mismatch : Mismatch}

theorem verdict_eq_override :
    m.verdict effectual p = .ok (.breaksOverride mismatch) ↔
      ∃ rule, m.overrides.get? p.root = some rule ∧ rule.allows p.version = .ok false ∧
        mismatch = ⟨rule, p.version⟩ := by
  rw [verdict]
  cases m.overrides.get? p.root with
  | some rule => simp [Constraint.against_eq_ok]
  | none =>
    cases m.constraints.get? p.root with
    | none => simp
    | some rule =>
      dsimp only
      split
      · simp [Constraint.against_eq_ok]
      · simp

theorem verdict_eq_constraint :
    m.verdict effectual p = .ok (.breaksConstraint mismatch) ↔
      m.overrides.get? p.root = none ∧ p.root ∈ effectual ∧
      ∃ rule, m.constraints.get? p.root = some rule ∧ rule.allows p.version = .ok false ∧
        mismatch = ⟨rule, p.version⟩ := by
  rw [verdict]
  cases m.overrides.get? p.root with
  | some rule => simp [Constraint.against_eq_ok]
  | none =>
    cases m.constraints.get? p.root with
    | none => simp
    | some rule =>
      dsimp only
      split
      · rename_i heffectual
        rw [TextSet.contains_iff] at heffectual
        simp [Constraint.against_eq_ok, heffectual]
      · rename_i heffectual
        rw [TextSet.contains_iff] at heffectual
        simp [heffectual]

end Manifest

/-! ## All locked projects -/

/-- The verdicts stand under the roots of the projects, in the order of the lock. -/
theorem Manifest.verdicts_of_mapM {m : Manifest} {effectual : TextSet} {ps : List LockedProject}
    {verdicts : List (Text × Verdict)}
    (h : ps.mapM (fun p => (m.verdict effectual p).map fun v => (p.root, v)) = .ok verdicts) :
    verdicts.map Prod.fst = ps.map LockedProject.root ∧
    ∀ root v, (root, v) ∈ verdicts ↔ ∃ p ∈ ps, p.root = root ∧ m.verdict effectual p = .ok v := by
  have hone : ∀ (p : LockedProject) (e : Text × Verdict),
      (m.verdict effectual p).map (fun v => (p.root, v)) = .ok e ↔
        p.root = e.1 ∧ m.verdict effectual p = .ok e.2 := by
    intro p e
    obtain ⟨root, v⟩ := e
    cases m.verdict effectual p with
    | error cause => simp [Except.map]
    | ok w => simp [Except.map]
  rw [mapM_eq_ok] at h
  induction h with
  | nil => simp
  | cons hfirst _ ih =>
    obtain ⟨hroot, hverdict⟩ := (hone _ _).1 hfirst
    refine ⟨by rw [List.map_cons, List.map_cons, ih.1, hroot], fun root v => ?_⟩
    rw [List.mem_cons, ih.2, List.exists_mem_cons_iff]
    refine or_congr ⟨?_, ?_⟩ Iff.rfl
    · rintro rfl
      exact ⟨hroot, hverdict⟩
    · rintro ⟨hroot', hverdict'⟩
      exact Prod.ext (hroot'.symm.trans hroot) (Except.ok.inj (hverdict'.symm.trans hverdict))

namespace Mismatches

/-- The entries that are picked out of verdicts stand under some of their roots, in order. -/
theorem picked_sublist (pick : Verdict → Option Mismatch) (verdicts : List (Text × Verdict)) :
    ((verdicts.filterMap fun (root, v) => (pick v).map fun m => (root, m)).map Prod.fst).Sublist
      (verdicts.map Prod.fst) := by
  induction verdicts with
  | nil => exact List.Sublist.refl []
  | cons e verdicts ih =>
    obtain ⟨root, v⟩ := e
    cases hpick : pick v with
    | none => simpa [List.filterMap_cons, hpick] using ih.cons root
    | some mismatch => simpa [List.filterMap_cons, hpick] using ih.cons_cons root

theorem get?_picked (pick : Verdict → Option Mismatch) {verdicts : List (Text × Verdict)}
    (h : (verdicts.map Prod.fst).Nodup) {root : Text} {mismatch : Mismatch} :
    (TextMap.ofList (verdicts.filterMap fun (root, v) => (pick v).map fun m => (root, m))).get?
      root = some mismatch ↔ ∃ v, (root, v) ∈ verdicts ∧ pick v = some mismatch := by
  rw [TextMap.get?_ofList (h.sublist (picked_sublist pick verdicts))]
  simp [List.mem_filterMap]

/-- The mismatches of a lock are found at the projects, each by its own verdict. -/
theorem get?_ofLock {lock : Lock} {m : Manifest} {effectual : TextSet} {mismatches : Mismatches}
    (h : ofLock lock (some m) effectual = .ok mismatches) (root : Text) (mismatch : Mismatch) :
    (mismatches.overrides.get? root = some mismatch ↔ ∃ p ∈ lock.projects, p.root = root ∧
      m.verdict effectual p = .ok (.breaksOverride mismatch)) ∧
    (mismatches.constraints.get? root = some mismatch ↔ ∃ p ∈ lock.projects, p.root = root ∧
      m.verdict effectual p = .ok (.breaksConstraint mismatch)) := by
  rw [ofLock] at h
  cases hverdicts : lock.projects.mapM
      fun p => (m.verdict effectual p).map fun v => (p.root, v) with
  | error e =>
    rw [hverdicts] at h
    cases h
  | ok verdicts =>
    rw [hverdicts] at h
    obtain rfl : ofVerdicts verdicts = mismatches := Except.ok.inj h
    obtain ⟨hroots, hmem⟩ := Manifest.verdicts_of_mapM hverdicts
    have hnodup : (verdicts.map Prod.fst).Nodup := hroots ▸ lock.distinct
    constructor
    · rw [ofVerdicts, get?_picked _ hnodup, ← hmem]
      simp only [Verdict.override?_eq_some, exists_eq_right]
    · rw [ofVerdicts, get?_picked _ hnodup, ← hmem]
      simp only [Verdict.constraint?_eq_some, exists_eq_right]

end Mismatches

/-! ## The whole check -/

namespace Manifest

/-- The import is reached or asked for. -/
def Required (m : Manifest) (reached : List Text) (x : Text) : Prop :=
  x ∈ reached ∨ x ∈ m.required

/-- The override on a locked root does not allow the locked version. -/
def BreaksOverride (m : Manifest) (lock : Lock) (root : Text) (mismatch : Mismatch) : Prop :=
  ∃ p ∈ lock.projects, p.root = root ∧
    ∃ rule, m.overrides.get? root = some rule ∧ rule.allows p.version = .ok false ∧
      mismatch = ⟨rule, p.version⟩

/-- There is no override on a locked root, some required import has the root as its longest
    declared one, and the constraint on the root does not allow the locked version. -/
def BreaksConstraint (m : Manifest) (lock : Lock) (reached : List Text) (root : Text)
    (mismatch : Mismatch) : Prop :=
  ∃ p ∈ lock.projects, p.root = root ∧ m.overrides.get? root = none ∧
    (∃ x, m.Required reached x ∧ IsLongestRoot m.constraints.roots x root) ∧
    ∃ rule, m.constraints.get? root = some rule ∧ rule.allows p.version = .ok false ∧
      mismatch = ⟨rule, p.version⟩

theorem mem_requiredImports {m : Manifest} {reached : List Text} {x : Text} :
    x ∈ requiredImports (some m) reached ↔ m.Required reached x := by
  rw [requiredImports, TextSet.mem_union, TextSet.mem_ofList]
  rfl

theorem mem_effectual {m : Manifest} {imports : List Text} {root : Text} :
    root ∈ effectual (some m) imports ↔
      ∃ x ∈ imports, IsLongestRoot m.constraints.roots x root := by
  rw [effectual, Rules.effectual, TextSet.mem_ofList, List.mem_filterMap]
  simp only [PrefixIndex.longestPrefix_ofList]

end Manifest

/-- A check ends as the look at the locked projects does. -/
theorem Lock.outcome_satisfies (lock : Lock) (manifest : Option Manifest)
    (reach : ReachQuery → List Text) :
    (Lock.satisfies (some lock) manifest reach).outcome =
      let required := Manifest.requiredImports manifest (reach (Manifest.reachQuery manifest))
      let recorded := TextSet.ofList lock.inputImports
      (Mismatches.ofLock lock manifest (Manifest.effectual manifest required.toList)).map
        fun mismatches => ⟨false, required.diff recorded, recorded.diff required,
          mismatches.overrides, mismatches.constraints⟩ := by
  simp only [satisfies, Noted.outcome_bind, Noted.outcome_lift, Noted.outcome_note,
    Noted.outcome_pure, ImportDiff.between]
  cases Mismatches.ofLock lock manifest _ with
  | error e => rfl
  | ok mismatches => rfl

/-- The result of a check with a lock and a manifest, bucket by bucket. -/
structure Satisfaction.Describes (s : Satisfaction) (lock : Lock) (m : Manifest)
    (reached : List Text) : Prop where
  has_lock : s.noLock = false
  mem_missing : ∀ x, x ∈ s.missing ↔ m.Required reached x ∧ x ∉ lock.inputImports
  mem_excess : ∀ x, x ∈ s.excess ↔ x ∈ lock.inputImports ∧ ¬ m.Required reached x
  get?_overrides : ∀ root mismatch,
    s.overrides.get? root = some mismatch ↔ m.BreaksOverride lock root mismatch
  get?_constraints : ∀ root mismatch,
    s.constraints.get? root = some mismatch ↔ m.BreaksConstraint lock reached root mismatch

/-- **What a check finds.** Whatever the packages answer to the one query, with commands, tests and
    the ignore rules of the manifest, a check that comes to an end has found exactly the
    disagreements that there are. -/
theorem satisfies_buckets (lock : Lock) (m : Manifest) (reach : ReachQuery → List Text)
    (s : Satisfaction) (h : (Lock.satisfies (some lock) (some m) reach).outcome = .ok s) :
    s.Describes lock m (reach ⟨true, true, some m.ignored⟩) := by
  rw [Lock.outcome_satisfies] at h
  dsimp only at h
  cases hlook : Mismatches.ofLock lock (some m) (Manifest.effectual (some m)
      (Manifest.requiredImports (some m) (reach (Manifest.reachQuery (some m)))).toList) with
  | error e =>
    rw [hlook] at h
    cases h
  | ok mismatches =>
    rw [hlook] at h
    obtain rfl := Except.ok.inj h
    constructor
    · rfl
    · intro x
      rw [TextSet.mem_diff, Manifest.mem_requiredImports, TextSet.mem_ofList]
      rfl
    · intro x
      rw [TextSet.mem_diff, Manifest.mem_requiredImports, TextSet.mem_ofList]
      rfl
    · intro root mismatch
      rw [(Mismatches.get?_ofLock hlook root mismatch).1]
      refine exists_congr fun p => and_congr_right fun _ => and_congr_right fun hroot => ?_
      rw [Manifest.verdict_eq_override, hroot]
    · intro root mismatch
      rw [(Mismatches.get?_ofLock hlook root mismatch).2]
      refine exists_congr fun p => and_congr_right fun _ => and_congr_right fun hroot => ?_
      rw [Manifest.verdict_eq_constraint, hroot, Manifest.mem_effectual]
      simp only [TextSet.mem_toList, Manifest.mem_requiredImports]
      rfl

/-- With nested roots, a rule on the shorter one that no import falls under, and an override. -/
theorem satisfies_buckets_nested :
    let lock : Lock := ⟨[⟨"a/b", Version.ofText "v1.0.0", []⟩, ⟨"a", .branch "main", []⟩,
      ⟨"c", .revision "5e1f", []⟩], ["a/b/x", "old"], by decide⟩
    ∃ m s, Manifest.ofRules [("c/", .branch "stable")] [("a", .branch "dev"),
        ("a/b/", .exact (Version.ofText "v2.0.0")), ("c", .none)] .empty ["q"] = .ok m ∧
      (Lock.satisfies (some lock) (some m) fun _ => ["a/b/x", "z"]).outcome = .ok s ∧
      (s.missing.toList = (["q", "z"] : List Text) ∧ s.excess.toList = (["old"] : List Text) ∧
        s.overrides.keys = (["c"] : List Text) ∧ s.constraints.keys = (["a/b"] : List Text)) ∧
      s.Describes lock m ["a/b/x", "z"] := by
  intro lock
  refine ⟨_, _, rfl, rfl, by decide +kernel, ?_⟩
  exact satisfies_buckets lock _ (fun _ => ["a/b/x", "z"]) _ rfl

end LockFit
