import LockFit.Proofs.Ignore
import LockFit.Proofs.Package.Reach

/-
  A wider query reaches no less.
  A query is wider than another if it takes commands and the imports of tests into account where the
  other does and ignores no path that the other does not. A source stays a source
  (`Within.isSource`), and what a source lists, leads to and imports from outside it still does
  (`Within.imports`, `Within.leads`, `Within.leadsOut`): an import is never dropped for what becomes
  of its target, since a target that counted before counts as it did. So every chain of imports is
  still there, and nothing that was reached is lost (`reach_mono`).
-/

namespace LockFit

open Relation

/-- All that the first query takes into account the second one does: commands, the imports of tests,
    and every path that the first does not ignore. -/
structure ReachQuery.Within (q q' : ReachQuery) : Prop where
  includeMain : q.includeMain = true → q'.includeMain = true
  includeTests : q.includeTests = true → q'.includeTests = true
  ignores : ∀ path, q'.ignores path = true → q.ignores path = true

namespace ReachQuery.Within

variable {q q' : ReachQuery} {tree : PackageTree} {p i t x : Text} {package : Package}

theorem not_ignores (h : q.Within q') (hcounts : q.ignores p = false) : q'.ignores p = false := by
  rw [← Bool.not_eq_true] at hcounts ⊢
  exact fun hignored => hcounts (h.ignores p hignored)

/-! ## One step -/

theorem lists (h : q.Within q') (hlists : package.Lists q i) : package.Lists q' i := by
  rcases hlists with hcode | ⟨htests, htest⟩
  · exact Or.inl hcode
  · exact Or.inr ⟨h.includeTests htests, htest⟩

theorem isSource (h : q.Within q') (hsource : tree.IsSource q p package) :
    tree.IsSource q' p package := by
  obtain ⟨hget, hcounts, hmain⟩ := hsource
  exact ⟨hget, h.not_ignores hcounts, hmain.imp_left h.includeMain⟩

theorem source (h : q.Within q') : tree.Source q p → tree.Source q' p :=
  fun ⟨package, hsource⟩ => ⟨package, h.isSource hsource⟩

theorem imports (h : q.Within q') : tree.Imports q p i → tree.Imports q' p i :=
  fun ⟨package, hsource, hlists⟩ => ⟨package, h.isSource hsource, h.lists hlists⟩

theorem leads (h : q.Within q') (hleads : tree.Leads q p t) : tree.Leads q' p t := by
  obtain ⟨himports, htarget, hne⟩ := hleads
  exact ⟨h.imports himports, h.source htarget, hne⟩

theorem leadsOut (h : q.Within q') (hout : tree.LeadsOut q p x) : tree.LeadsOut q' p x := by
  obtain ⟨himports, hcounts, hexternal⟩ := hout
  exact ⟨h.imports himports, h.not_ignores hcounts, hexternal⟩

/-! ## Chains of steps -/

theorem internal (h : q.Within q') {entry entry' : ReachEntry} (hentry : tree.Reaches q p entry)
    (hentry' : tree.Reaches q' p entry') : entry.internal ⊆ entry'.internal := by
  intro t ht
  obtain ⟨hne, hchain⟩ := (hentry.mem_internal t).1 ht
  exact (hentry'.mem_internal t).2 ⟨hne, TransGen.mono (fun _ _ => h.leads) _ _ hchain⟩

theorem external (h : q.Within q') {entry entry' : ReachEntry} (hentry : tree.Reaches q p entry)
    (hentry' : tree.Reaches q' p entry') : entry.external ⊆ entry'.external := by
  intro x hx
  obtain ⟨t, hchain, hout⟩ := (hentry.mem_external x).1 hx
  exact (hentry'.mem_external x).2
    ⟨t, ReflTransGen.mono (fun _ _ => h.leads) _ _ hchain, h.leadsOut hout⟩

theorem flattenReach (h : q.Within q') (hx : x ∈ tree.flattenReach q) :
    x ∈ tree.flattenReach q' := by
  obtain ⟨⟨p, hout⟩, hhosted⟩ := PackageTree.mem_flattenReach.1 hx
  exact PackageTree.mem_flattenReach.2 ⟨⟨p, h.leadsOut hout⟩, hhosted⟩

end ReachQuery.Within

namespace PackageTree

/-- **Reach is monotone.** Where the second query takes all into account that the first one does,
    each source of the first reach map is one of the second, with an entry that has all the internal
    and all the external paths of the first entry, and flattening loses no path either. -/
theorem reach_mono (tree : PackageTree) (q q' : ReachQuery) (h : q.Within q') :
    (∀ p ∈ (tree.reach q).entries.keys, p ∈ (tree.reach q').entries.keys) ∧
    (∀ p entry, (tree.reach q).entries.get? p = some entry →
      ∃ entry', (tree.reach q').entries.get? p = some entry' ∧
        entry.internal ⊆ entry'.internal ∧ entry.external ⊆ entry'.external) ∧
    (tree.flattenReach q).toList ⊆ (tree.flattenReach q').toList := by
  have hentries : ∀ p entry, (tree.reach q).entries.get? p = some entry →
      ∃ entry', (tree.reach q').entries.get? p = some entry' ∧
        entry.internal ⊆ entry'.internal ∧ entry.external ⊆ entry'.external := by
    intro p entry hentry
    obtain ⟨hsource, rfl⟩ := get?_reach.1 hentry
    have hreaches := reaches_entry hsource
    have hreaches' := reaches_entry (h.source hsource)
    exact ⟨_, get?_reach.2 ⟨h.source hsource, rfl⟩, h.internal hreaches hreaches',
      h.external hreaches hreaches'⟩
  refine ⟨fun p hp => ?_, hentries, fun x => h.flattenReach⟩
  obtain ⟨entry, hentry⟩ := TextMap.mem_keys.1 hp
  obtain ⟨entry', hentry', -⟩ := hentries p entry hentry
  exact TextMap.mem_keys.2 ⟨entry', hentry'⟩

/-- Three things at once: the command `r/b` counts and with it what it imports, the imports of tests
    count, and of all paths with the start `x` only `x/y` is still ignored. -/
theorem reach_mono_wider : ∃ (tree : PackageTree) (q q' : ReachQuery),
    ofPackages "r" (fun _ => false)
      [⟨"r/a", ["r/b", "x/y", "z"], ["x/t"], false⟩, ⟨"r/b", ["r/a", "x/b"], [], true⟩] =
        .ok tree ∧
    q = ⟨false, false, some (.ofPatterns ["x*"])⟩ ∧
    q' = ⟨true, true, some (.ofPatterns ["x/y"])⟩ ∧ q.Within q' ∧
    (∃ entry', (tree.reach q').entries.get? "r/a" = some entry' ∧ ("z" : Text) ∈ entry'.external) ∧
    (tree.flattenReach q).toList ⊆ (tree.flattenReach q').toList ∧
    ("x/b" : Text) ∉ tree.flattenReach q ∧ ("x/b" : Text) ∈ tree.flattenReach q' := by
  have hwithin : ReachQuery.Within ⟨false, false, some (.ofPatterns ["x*"])⟩
      ⟨true, true, some (.ofPatterns ["x/y"])⟩ := by
    refine ⟨by simp, by simp, fun path hignored => ?_⟩
    have hrules : IgnoreRules.ofPatterns ["x/y"] = ⟨.ofList ["x/y"], []⟩ := by decide +kernel
    rw [hrules] at hignored
    rcases IgnoreRules.ignores_iff.1 hignored with hliteral | ⟨start, hstart, -⟩
    · obtain rfl : path = "x/y" := by simpa using hliteral
      decide +kernel
    · exact absurd hstart List.not_mem_nil
  obtain ⟨tree, htree, hstandard, hz, hb⟩ : ∃ tree : PackageTree, ofPackages "r" (fun _ => false)
      [⟨"r/a", ["r/b", "x/y", "z"], ["x/t"], false⟩, ⟨"r/b", ["r/a", "x/b"], [], true⟩] =
        .ok tree ∧ tree.isStandard "x/b" = false ∧
      tree.LeadsOut ⟨false, false, some (.ofPatterns ["x*"])⟩ "r/a" "z" ∧
      tree.LeadsOut ⟨true, true, some (.ofPatterns ["x/y"])⟩ "r/b" "x/b" := by
    refine ⟨_, rfl, rfl, ⟨⟨_, ⟨rfl, ?_, Or.inr rfl⟩, Or.inl ?_⟩, ?_, ?_⟩,
      ⟨⟨_, ⟨rfl, ?_, Or.inl rfl⟩, Or.inl ?_⟩, ?_, ?_⟩⟩
    all_goals decide +kernel
  obtain ⟨-, hentries, hflat⟩ := reach_mono tree _ _ hwithin
  obtain ⟨package, hpackage, -⟩ := hz.1
  have hsource : tree.Source ⟨false, false, some (.ofPatterns ["x*"])⟩ "r/a" := ⟨package, hpackage⟩
  obtain ⟨entry', hentry', -, hexternal⟩ := hentries "r/a" _ (get?_reach.2 ⟨hsource, rfl⟩)
  have hreached : ("z" : Text) ∈ entry'.external :=
    hexternal (((reaches_entry hsource).mem_external "z").2 ⟨"r/a", ReflTransGen.refl, hz⟩)
  refine ⟨tree, _, _, htree, rfl, rfl, hwithin, ⟨entry', hentry', hreached⟩, hflat, fun h => ?_,
    mem_flattenReach.2 ⟨⟨"r/b", hb⟩, hstandard⟩⟩
  obtain ⟨⟨p, -, hcounts, -⟩, -⟩ := mem_flattenReach.1 h
  exact absurd hcounts (by decide +kernel)

end PackageTree

end LockFit
