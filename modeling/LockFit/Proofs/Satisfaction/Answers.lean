import LockFit.Proofs.Constraint.Answers
import LockFit.Proofs.Package.Reach
import LockFit.Proofs.Satisfaction.Check

/-
  When a check has a result.
  A check looks at the one rule that counts for each locked root, and fails where that rule has no
  answer for the locked version. `check_answers` says that there is no other way to fail: neither
  a missing lock or manifest nor the walk through the packages, which finds edges for every path
  that it opens, is one. The check does fail for some locks (`satisfies_tooLong`), since a version
  is accepted whatever the length of its numbers.
-/

namespace LockFit

/-! ## One locked project -/

/-- The rule is the one that counts for a root: the override on it, or else the constraint on it if
    some required import has the root as its longest declared one. -/
def Manifest.Governs (m : Manifest) (reached : List Text) (root : Text) (rule : Constraint) :
    Prop :=
  m.overrides.get? root = some rule ∨
  m.overrides.get? root = none ∧
    (∃ x, m.Required reached x ∧ IsLongestRoot m.constraints.roots x root) ∧
    m.constraints.get? root = some rule

theorem Constraint.against_isOk {rule : Constraint} {version : Version}
    {broken : Mismatch → Verdict} :
    (∃ v, rule.against version broken = .ok v) ↔ rule.Answers version := by
  rw [← allows_isOk]
  simp only [against, bind_isOk, pure, Except.pure, Except.ok.injEq, exists_eq', and_true]

namespace Manifest

/-- The verdict on a locked project is that of the one rule that counts for it; where none counts
    the project fits. -/
theorem verdict_cases (m : Manifest) (reached : List Text) (p : LockedProject) :
    (∃ rule broken, (∀ other, m.Governs reached p.root other ↔ other = rule) ∧
      (∀ mismatch, broken mismatch ≠ .fits) ∧
      m.verdict (effectual (some m) (requiredImports (some m) reached).toList) p =
        rule.against p.version broken) ∨
    (∀ rule, ¬ m.Governs reached p.root rule) ∧
      m.verdict (effectual (some m) (requiredImports (some m) reached).toList) p = .ok .fits := by
  have heffectual : p.root ∈ effectual (some m) (requiredImports (some m) reached).toList ↔
      ∃ x, m.Required reached x ∧ IsLongestRoot m.constraints.roots x p.root := by
    simp only [mem_effectual, TextSet.mem_toList, mem_requiredImports]
  simp only [verdict, Governs, ← heffectual]
  cases m.overrides.get? p.root with
  | some rule => exact Or.inl ⟨rule, .breaksOverride, by simp [eq_comm], by simp, rfl⟩
  | none =>
    cases m.constraints.get? p.root with
    | none => exact Or.inr ⟨by simp, rfl⟩
    | some rule =>
      by_cases hcounts : p.root ∈ effectual (some m) (requiredImports (some m) reached).toList
      · refine Or.inl ⟨rule, .breaksConstraint, by simp [hcounts, eq_comm], by simp, ?_⟩
        exact if_pos (TextSet.contains_iff.2 hcounts)
      · refine Or.inr ⟨by simp [hcounts], if_neg ?_⟩
        rwa [TextSet.contains_iff]

/-- A locked project has a verdict exactly if the rule that counts for it, if any, has an answer. -/
theorem verdict_isOk {m : Manifest} {reached : List Text} {p : LockedProject} :
    (∃ v, m.verdict (effectual (some m) (requiredImports (some m) reached).toList) p = .ok v) ↔
      ∀ rule, m.Governs reached p.root rule → rule.Answers p.version := by
  rcases verdict_cases m reached p with ⟨rule, broken, hrule, -, hverdict⟩ | ⟨hnone, hverdict⟩
  · rw [hverdict, Constraint.against_isOk]
    simp only [hrule, forall_eq]
  · rw [hverdict]
    exact iff_of_true ⟨_, rfl⟩ fun rule h => absurd h (hnone rule)

end Manifest

/-! ## The whole check -/

theorem Mismatches.ofLock_isOk {lock : Lock} {manifest : Option Manifest} {effectual : TextSet} :
    (∃ found, ofLock lock manifest effectual = .ok found) ↔
      ∀ m ∈ manifest, ∀ p ∈ lock.projects, ∃ v, m.verdict effectual p = .ok v := by
  cases manifest with
  | none => simp [ofLock]
  | some m =>
    simp only [ofLock, bind_isOk, pure, Except.pure, Except.ok.injEq, exists_eq', and_true,
      mapM_isOk, map_isOk, Option.mem_def, Option.some.injEq, forall_eq']

theorem Noted.outcome_forM_note (notices : List Notice) :
    (notices.forM Noted.note : Noted ε Unit).outcome = .ok () := by
  induction notices with
  | nil => rfl
  | cons n notices ih =>
    change (note n >>= fun _ => notices.forM note).outcome = _
    rw [outcome_bind, outcome_note]
    exact ih

/-- The notices of the packages decide nothing. -/
theorem Lock.outcome_satisfiesTree (lock : Option Lock) (manifest : Option Manifest)
    (tree : PackageTree) : (Lock.satisfiesTree lock manifest tree).outcome =
      (Lock.satisfies lock manifest fun q => (tree.flattenReach q).toList).outcome := by
  cases lock with
  | none => rfl
  | some lock =>
    rw [satisfiesTree, Option.isSome_some, if_pos rfl, Noted.outcome_bind, Noted.outcome_forM_note]
    rfl

/-- **When a check has a result.** A check fails only where the rule that counts for a locked root
    has no answer for the locked version. A rule has an answer for a version unless it compares
    numbers of which one has too many digits. Every path that is opened in a search through the
    packages has edges to go on from. -/
theorem check_answers (lock : Option Lock) (manifest : Option Manifest) (tree : PackageTree) :
    ((∃ s, (Lock.satisfiesTree lock manifest tree).outcome = .ok s) ↔
      ∀ l ∈ lock, ∀ m ∈ manifest, ∀ p ∈ l.projects, ∀ rule,
        m.Governs (tree.flattenReach ⟨true, true, some m.ignored⟩).toList p.root rule →
          rule.Answers p.version) ∧
    (∀ (rule : Constraint) (version : Version),
      (∃ b, rule.allows version = .ok b) ↔ rule.Answers version) ∧
    ∀ q path, tree.Source q path →
      (tree.graph q).strictSearch [path] [] = some ((tree.graph q).search [path] []) := by
  refine ⟨?_, Constraint.allows_isOk, fun _ _ => PackageTree.strictSearch_graph⟩
  rw [Lock.outcome_satisfiesTree]
  cases lock with
  | none => exact iff_of_true ⟨.withoutLock, rfl⟩ (fun l hl => by cases hl)
  | some l =>
    rw [Lock.outcome_satisfies]
    dsimp only
    rw [map_isOk, Mismatches.ofLock_isOk]
    cases manifest with
    | none => simp
    | some m =>
      simp only [Option.mem_def, Option.some.injEq, forall_eq', Manifest.reachQuery,
        Option.map_some]
      exact forall₂_congr fun p _ => Manifest.verdict_isOk

/-! ## A check without a result -/

/-- The section that holds one rule. -/
def Rules.single (root : Text) (rule : Constraint) (h : IsRuleRoot root) : Rules :=
  ⟨[(root, rule)], by simp, fun _ he => by rw [List.mem_singleton.1 he]; exact h⟩

theorem Rules.ofEntries_single {part : RuleSection} {root : Text} {rule : Constraint}
    (h : IsRuleRoot root) : ofEntries part [(root, rule)] = .ok (.single root rule h) := by
  have hadd : add part empty (root, rule) = .ok (.single root rule h) := by
    simp only [add, h.2, dif_neg h.1]
    exact dif_neg List.not_mem_nil
  rw [ofEntries, List.foldlM_cons, hadd]
  rfl

theorem Manifest.ofRules_single {root : Text} {rule : Constraint} (h : IsRuleRoot root) :
    ofRules [(root, rule)] [] .empty [] = .ok ⟨.single root rule h, .empty, .empty, .empty⟩ := by
  rw [ofRules, Rules.ofEntries_single h]
  rfl

/-- A locked tag with a number of 4301 digits, and an override on its root that it would pass. -/
theorem satisfies_tooLong :
    let lock : Lock := ⟨[⟨"a", .tooLong, []⟩], [], by simp⟩
    ∃ rule m, Constraint.ofText "^1.0" = .ok rule ∧
      Manifest.ofRules [("a", rule)] [] .empty [] = .ok m ∧
      rule.allows .tooLong = .error ⟨4301⟩ ∧
      (Lock.satisfiesTree (some lock) (some m) (.ofRoot "r" ImportPath.isStandard)).outcome =
        .error ⟨4301⟩ := by
  intro lock
  let rule : Constraint := .range ⟨"^1.0", [⟨.caret, ⟨1, 0, 0⟩, true⟩], by decide +kernel⟩
  have hallows : rule.allows .tooLong = .error ⟨4301⟩ := by
    simp only [rule]
    rw [Constraint.allows, Version.number?_tooLong]
    rfl
  have hroot : IsRuleRoot "a" := ⟨by decide, by decide +kernel⟩
  let m : Manifest := ⟨.single "a" rule hroot, .empty, .empty, .empty⟩
  refine ⟨rule, m, by decide +kernel, Manifest.ofRules_single hroot, hallows, ?_⟩
  rw [Lock.outcome_satisfiesTree, Lock.outcome_satisfies]
  dsimp only
  -- an override counts whatever is imported
  generalize Manifest.effectual (some m) _ = effectual
  have hverdict : m.verdict effectual ⟨"a", .tooLong, []⟩ = .error ⟨4301⟩ := by
    change rule.against .tooLong .breaksOverride = _
    rw [Constraint.against, hallows]
    rfl
  have hlook : Mismatches.ofLock lock (some m) effectual = .error ⟨4301⟩ := by
    rw [Mismatches.ofLock, List.mapM_cons, hverdict]
    rfl
  rw [hlook]
  rfl

end LockFit
