import LockFit.Proofs.Satisfaction.DeclaredRoots
import LockFit.Proofs.Satisfaction.Verdicts

/-
  Rules that are not in force do nothing.
  A constraint is in force where some required import falls under its root, an override where its
  root is locked, and a constraint beside an override nowhere. Taking constraints away can only
  shorten the root that an import falls under if the longest one is taken away
  (`IsLongestRoot.of_sublist`), and that one is effectual. So the effectual roots stay as they are
  (`effectual_eq`), each locked project has the verdict that it had (`verdict_eq`), and the whole
  check is the same (`satisfies_keepsInForce`).
-/

namespace LockFit

/-! ## What is taken away -/

/-- The second manifest has of the rules of the first one all that are in force for the lock, given
    the effectual roots: it lacks overrides on roots that are not locked and constraints that are
    not effectual, and beside an override it may have any other constraint. -/
structure Manifest.KeepsInForce (m m' : Manifest) (lock : Option Lock) (effectual : TextSet) :
    Prop where
  ignored : m'.ignored = m.ignored
  required : m'.required = m.required
  overrides : m'.overrides.entries.Sublist m.overrides.entries
  locked : ∀ l ∈ lock, ∀ p ∈ l.projects, p.root ∈ m.overrides.roots → p.root ∈ m'.overrides.roots
  constraints : m'.constraints.roots.Sublist m.constraints.roots
  effectual : ∀ root ∈ m.constraints.roots, root ∈ effectual → root ∈ m'.constraints.roots
  rule : ∀ e ∈ m'.constraints.entries, e.1 ∉ m.overrides.roots → e ∈ m.constraints.entries

/-! ## Roots that are left -/

/-- The root that a path falls under is still the one as long as it is left. -/
theorem IsLongestRoot.of_sublist {roots left : List Text} {path root : Text}
    (h : IsLongestRoot roots path root) (hleft : left.Sublist roots) (hnodup : roots.Nodup)
    (hroot : root ∈ left) : IsLongestRoot left path root where
  nonempty := h.nonempty
  covers := h.covers
  longest := fun r hr => h.longest r (hleft.mem hr)
  last := by
    obtain ⟨before, after, rfl, hafter⟩ := h.last
    obtain ⟨before', after', rfl⟩ := List.append_of_mem hroot
    refine ⟨before', after', rfl, fun r hr => hafter r ?_⟩
    -- what is left behind the root was behind it before, since the root comes once
    have hbehind : (root :: after').Sublist (before ++ root :: after) :=
      (List.sublist_append_right before' _).trans hleft
    obtain ⟨front, back, hsplit, hfront, hback⟩ := List.sublist_append_iff.1 hbehind
    cases front with
    | nil =>
      rw [List.nil_append] at hsplit
      rw [← hsplit, List.cons_sublist_cons] at hback
      exact hback.mem hr
    | cons s front =>
      obtain rfl : root = s := (List.cons.inj hsplit).1
      exact absurd rfl ((List.nodup_append.1 hnodup).2.2 _ (hfront.mem List.mem_cons_self) _
        List.mem_cons_self)

/-- The rule on a root is the same where it is left and no other one is put in its place. -/
theorem Rules.get?_eq_of_imp {rules left : Rules} {root : Text}
    (hrule : ∀ {rule}, left.get? root = some rule → rules.get? root = some rule)
    (hroot : root ∈ rules.roots → root ∈ left.roots) : left.get? root = rules.get? root := by
  refine Option.ext fun rule => ⟨hrule, fun h => ?_⟩
  obtain ⟨rule', h'⟩ := mem_roots.1 (hroot (mem_roots.2 ⟨rule, h⟩))
  rw [h', ← hrule h', h]

namespace Manifest.KeepsInForce

variable {m m' : Manifest} {lock : Option Lock}

/-- Only roots that no import falls under are taken away, so each import keeps its root. -/
theorem effectual_eq {imports : List Text}
    (h : m.KeepsInForce m' lock (Manifest.effectual (some m) imports)) :
    Manifest.effectual (some m') imports = Manifest.effectual (some m) imports := by
  have hkept : ∀ x ∈ imports, ∀ root, IsLongestRoot m.constraints.roots x root →
      IsLongestRoot m'.constraints.roots x root := by
    intro x hx root hroot
    refine hroot.of_sublist h.constraints m.constraints.distinct (h.effectual root hroot.mem ?_)
    exact mem_effectual.2 ⟨x, hx, hroot⟩
  refine TextSet.ext_mem fun root => ?_
  rw [mem_effectual, mem_effectual]
  refine exists_congr fun x => and_congr_right fun hx => ⟨fun hroot => ?_, hkept x hx root⟩
  obtain ⟨longest, hlongest⟩ :=
    exists_isLongestRoot (h.constraints.mem hroot.mem) hroot.nonempty hroot.covers
  rwa [hroot.unique (hkept x hx longest hlongest)]

theorem verdict_eq {effectual : TextSet} (h : m.KeepsInForce m' lock effectual) {l : Lock}
    (hl : l ∈ lock) {p : LockedProject} (hp : p ∈ l.projects) :
    m'.verdict effectual p = m.verdict effectual p := by
  have hoverride : m'.overrides.get? p.root = m.overrides.get? p.root :=
    Rules.get?_eq_of_imp
      (fun hrule => Rules.get?_eq_some.2 (h.overrides.mem (Rules.get?_eq_some.1 hrule)))
      (h.locked l hl p hp)
  cases hget : m.overrides.get? p.root with
  | some rule => rw [verdict, verdict, hoverride, hget]
  | none =>
    by_cases heffectual : p.root ∈ effectual
    · have hrule {rule : Constraint} (hrule : m'.constraints.get? p.root = some rule) :
          m.constraints.get? p.root = some rule :=
        Rules.get?_eq_some.2 (h.rule _ (Rules.get?_eq_some.1 hrule) (Rules.get?_eq_none.1 hget))
      have hconstraint : m'.constraints.get? p.root = m.constraints.get? p.root :=
        Rules.get?_eq_of_imp hrule fun hroot => h.effectual _ hroot heffectual
      rw [verdict, verdict, hoverride, hconstraint]
    · rw [verdict_of_not_effectual (hoverride.trans hget) heffectual,
        verdict_of_not_effectual hget heffectual]

end Manifest.KeepsInForce

/-! ## The whole check -/

/-- **Rules that are not in force do nothing.** The effectual roots are those of the imports that
    are required, whatever the packages answer. A manifest that lacks overrides on roots that are
    not locked and constraints that are not effectual, and has other constraints beside overrides,
    gives the same check: the same result or the same failure, with the same notices. -/
theorem satisfies_keepsInForce (lock : Option Lock) (m m' : Manifest)
    (reach : ReachQuery → List Text)
    (h : m.KeepsInForce m' lock (Manifest.effectual (some m)
      (Manifest.requiredImports (some m) (reach (Manifest.reachQuery (some m)))).toList)) :
    Lock.satisfies lock (some m') reach = Lock.satisfies lock (some m) reach ∧
    ∀ tree : PackageTree, (reach = fun q => (tree.flattenReach q).toList) →
      Lock.satisfiesTree lock (some m') tree = Lock.satisfiesTree lock (some m) tree := by
  have hquery : Manifest.reachQuery (some m') = Manifest.reachQuery (some m) := by
    simp only [Manifest.reachQuery, Option.map_some, h.ignored]
  have hsame : Lock.satisfies lock (some m') reach = Lock.satisfies lock (some m) reach := by
    cases lock with
    | none => rfl
    | some l =>
      have hrequired : Manifest.requiredImports (some m') (reach (Manifest.reachQuery (some m'))) =
          Manifest.requiredImports (some m) (reach (Manifest.reachQuery (some m))) := by
        simp only [Manifest.requiredImports, Option.map_some, h.required, hquery]
      have hlook : Mismatches.ofLock l (some m') _ = Mismatches.ofLock l (some m) _ :=
        Mismatches.ofLock_congr (List.forall₂_same.2 fun p hp => ⟨h.verdict_eq rfl hp, Or.inl rfl⟩)
      simp only [Lock.satisfies, hrequired, h.effectual_eq, hlook]
  refine ⟨hsame, ?_⟩
  rintro tree rfl
  rw [Lock.satisfiesTree, Lock.satisfiesTree, hquery, hsame]

/-- Taken away at once: an override on a root that is not locked, a constraint on a shorter root and
    one whose root collides. The constraint beside the override is another one. -/
theorem satisfies_keepsInForce_nested :
    let lock : Lock := ⟨[⟨"a/b", Version.ofText "v1.0.0", []⟩, ⟨"a", .branch "main", []⟩,
      ⟨"c", .revision "5e1f", []⟩], ["a/b/x", "c/y"], by decide⟩
    let reach : ReachQuery → List Text := fun _ => ["a/b/x", "c/y"]
    ∃ m m', Manifest.ofRules [("c", .branch "stable"), ("d", .none)]
        [("a", .none), ("a//b", .any), ("a/b", .exact (Version.ofText "v2.0.0")), ("c", .any)]
        .empty [] = .ok m ∧
      Manifest.ofRules [("c", .branch "stable")]
        [("a/b", .exact (Version.ofText "v2.0.0")), ("c", .none)] .empty [] = .ok m' ∧
      m.KeepsInForce m' (some lock) (Manifest.effectual (some m)
        (Manifest.requiredImports (some m) (reach (Manifest.reachQuery (some m)))).toList) ∧
      Lock.satisfies (some lock) (some m') reach = Lock.satisfies (some lock) (some m) reach := by
  intro lock reach
  refine ⟨_, _, rfl, rfl, (fun h => ⟨h, (satisfies_keepsInForce (some lock) _ _ reach h).1⟩) ?_⟩
  constructor
  · rfl
  · rfl
  · decide +kernel
  · decide +kernel
  · decide +kernel
  · decide +kernel
  · decide +kernel

end LockFit
