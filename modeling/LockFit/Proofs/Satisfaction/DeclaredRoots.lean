import LockFit.Proofs.Manifest.Rules
import LockFit.Proofs.Satisfaction.Check

/-
  When the roots of constraints collide.
  A manifest drops the slashes at the end of a root, the index those at the start and the doubled
  ones too, so two roots of a manifest may have the same segments. An import that falls under them
  is then credited to the one that is declared last (`exists_isLongestRoot_of_covers`), and the
  constraint on the other is in force nowhere. `effectual_collisionFree` says that this is the only
  way for a constraint to be lost in the index: as long as no two roots have the same segments, the
  index keeps every root, the order of declaration does not matter, and a root that covers an import
  with no longer one beside it is effectual. Each of the three fails where two roots collide
  (`effectual_collision`), which roots in plain spelling do not.
-/

namespace LockFit

open ImportPath

/-! ## The longest declared root -/

section

variable {roots : List Text} {path root : Text}

theorem IsLongestRoot.mem (h : IsLongestRoot roots path root) : root ∈ roots := by
  obtain ⟨before, after, rfl, -⟩ := h.last
  simp

theorem IsLongestRoot.unique {other : Text} (h : IsLongestRoot roots path root)
    (h' : IsLongestRoot roots path other) : root = other := by
  rw [← PrefixIndex.longestPrefix_ofList] at h h'
  exact Option.some.inj (h.symm.trans h')

/-- A path falls under some root as soon as one covers it. -/
theorem exists_isLongestRoot (hroot : root ∈ roots) (hne : segments root ≠ [])
    (hcovers : segments root <+: segments path) : ∃ longest, IsLongestRoot roots path longest := by
  cases h : (PrefixIndex.ofList roots).longestPrefix path with
  | none =>
    have hway : segments root ∈ PrefixIndex.ways roots :=
      PrefixIndex.mem_ways.2 ⟨hne, root, hroot, rfl⟩
    exact absurd hcovers (PrefixIndex.longestPrefix_eq_none.1 h _ hway)
  | some longest => exact ⟨longest, PrefixIndex.longestPrefix_ofList.1 h⟩

end

/-! ## Roots with the same segments -/

namespace Rules

/-- No two roots of the section have the same segments. -/
def CollisionFree (rules : Rules) : Prop :=
  ∀ r ∈ rules.roots, ∀ s ∈ rules.roots, segments r = segments s → r = s

/-- A declared root covers one of the imports, and no declared root with more segments does. -/
def CoversLongest (rules : Rules) (imports : List Text) (root : Text) : Prop :=
  root ∈ rules.roots ∧ ∃ x ∈ imports, segments root <+: segments x ∧
    ∀ r ∈ rules.roots, segments r <+: segments x → (segments r).length ≤ (segments root).length

variable {rules : Rules}

/-- Roots in plain spelling are spelled by their segments. -/
theorem collisionFree_of_isPlain (h : ∀ root ∈ rules.roots, IsPlain root) :
    rules.CollisionFree := by
  intro r hr s hs hsegments
  rw [← intercalate_segments (h r hr) (isRuleRoot hr).1 (dropSlashes_root hr), hsegments,
    intercalate_segments (h s hs) (isRuleRoot hs).1 (dropSlashes_root hs)]

/-- The index has one place for each list of segments. -/
theorem size_ofList_eq_length_iff :
    (PrefixIndex.ofList rules.roots).size = rules.entries.length ↔ rules.CollisionFree := by
  have hways : PrefixIndex.ways rules.roots = (rules.roots.map segments).toFinset := by
    refine Finset.erase_eq_of_notMem fun hnil => ?_
    obtain ⟨root, hroot, hempty⟩ := List.mem_map.1 (List.mem_toFinset.1 hnil)
    exact segments_ne_nil hroot hempty
  have hlength : rules.entries.length = (rules.roots.map segments).length := by simp [roots]
  have hroots : rules.roots.Nodup := rules.distinct
  rw [PrefixIndex.size_ofList, hways, hlength, CollisionFree, ← List.nodup_map_iff_inj_on hroots]
  exact Multiset.toFinset_card_eq_card_iff_nodup

/-- The import is credited to a root with the segments of the one that covers it. -/
theorem exists_isLongestRoot_of_covers {imports : List Text} {root : Text}
    (h : rules.CoversLongest imports root) : ∃ x ∈ imports, ∃ credited,
      IsLongestRoot rules.roots x credited ∧ segments credited = segments root := by
  obtain ⟨hroot, x, hx, hcovers, hmax⟩ := h
  obtain ⟨credited, hcredited⟩ := exists_isLongestRoot hroot (segments_ne_nil hroot) hcovers
  have hlength : (segments credited).length = (segments root).length :=
    Nat.le_antisymm (hmax credited hcredited.mem hcredited.covers)
      (hcredited.longest root hroot hcovers)
  have hprefix : segments credited <+: segments root :=
    List.prefix_of_prefix_length_le hcredited.covers hcovers (Nat.le_of_eq hlength)
  exact ⟨x, hx, credited, hcredited, hprefix.eq_of_length hlength⟩

/-- The section with its entries in another order. -/
def reorder (rules : Rules) (es : List (Text × Constraint)) (h : es.Perm rules.entries) :
    Rules where
  entries := es
  distinct := (h.map Prod.fst).nodup_iff.2 rules.distinct
  proper := fun e he => rules.proper e (h.mem_iff.1 he)

/-- Any root can be declared last. -/
theorem exists_declared_last {root : Text} (h : root ∈ rules.roots) :
    ∃ rules' : Rules, rules'.entries.Perm rules.entries ∧
      ∃ before, rules'.roots = before ++ [root] := by
  obtain ⟨e, he, rfl⟩ := List.mem_map.1 h
  obtain ⟨before, after, hsplit⟩ := List.append_of_mem he
  have hperm : (before ++ after ++ [e]).Perm rules.entries := by
    rw [hsplit, List.append_assoc]
    exact (List.perm_append_singleton e after).append_left before
  exact ⟨rules.reorder _ hperm, hperm, (before ++ after).map Prod.fst, by simp [reorder, roots]⟩

end Rules

/-! ## Effectual constraints -/

namespace Manifest

variable {m : Manifest} {root : Text}

/-- The root itself, as an import, is credited to the root that is declared last. -/
theorem mem_effectual_self {before : List Text} (h : m.constraints.roots = before ++ [root]) :
    root ∈ effectual (some m) [root] := by
  have hroot : root ∈ m.constraints.roots := by simp [h]
  refine mem_effectual.2 ⟨root, List.mem_singleton.2 rfl, ?_⟩
  constructor
  · exact Rules.segments_ne_nil hroot
  · exact List.prefix_refl _
  · exact fun r _ hprefix => hprefix.length_le
  · exact ⟨before, [], h, fun r hr => absurd hr List.not_mem_nil⟩

/-- An import has one root: where every root is credited with itself, none collide. -/
theorem collisionFree_of_self (h : ∀ root ∈ m.constraints.roots, root ∈ effectual (some m) [root]) :
    m.constraints.CollisionFree := by
  intro r hr s hs hsegments
  have hself : ∀ root ∈ m.constraints.roots,
      (PrefixIndex.ofList m.constraints.roots).longestPrefix root = some root := by
    intro root hroot
    obtain ⟨x, hx, hlongest⟩ := mem_effectual.1 (h root hroot)
    rw [List.mem_singleton.1 hx] at hlongest
    exact PrefixIndex.longestPrefix_ofList.2 hlongest
  have hr' := hself r hr
  have hs' := hself s hs
  rw [PrefixIndex.longestPrefix, hsegments] at hr'
  exact Option.some.inj (hr'.symm.trans hs')

/-- Without collisions the order of declaration plays no part in which roots are effectual. -/
theorem mem_effectual_of_collisionFree (h : m.constraints.CollisionFree) {imports : List Text} :
    root ∈ effectual (some m) imports ↔ m.constraints.CoversLongest imports root := by
  rw [mem_effectual]
  constructor
  · rintro ⟨x, hx, hlongest⟩
    exact ⟨hlongest.mem, x, hx, hlongest.covers, hlongest.longest⟩
  · intro hcovers
    obtain ⟨x, hx, credited, hcredited, hsegments⟩ := Rules.exists_isLongestRoot_of_covers hcovers
    have hsame : credited = root := h credited hcredited.mem root hcovers.1 hsegments
    exact ⟨x, hx, hsame ▸ hcredited⟩

theorem effectual_perm_of_collisionFree (h : m.constraints.CollisionFree) {m' : Manifest}
    (hperm : m'.constraints.entries.Perm m.constraints.entries) (imports : List Text) :
    effectual (some m') imports = effectual (some m) imports := by
  have hroots : ∀ r, r ∈ m'.constraints.roots ↔ r ∈ m.constraints.roots :=
    fun r => (hperm.map Prod.fst).mem_iff
  have h' : m'.constraints.CollisionFree :=
    fun r hr s hs => h r ((hroots r).1 hr) s ((hroots s).1 hs)
  refine TextSet.ext_mem fun root => ?_
  rw [mem_effectual_of_collisionFree h', mem_effectual_of_collisionFree h]
  simp only [Rules.CoversLongest, hroots]

end Manifest

/-- **Constraints are lost in the index only where roots collide.** The index keeps as many roots
    as there are constraints, the effectual roots are the same in every order of declaration, and
    every root that covers an import with no longer one beside it is effectual: each of these holds
    exactly if no two roots have the same segments. Roots without a slash at the start and without
    doubled slashes never do, and in any case a root with the segments of the one that covers is
    effectual. -/
theorem effectual_collisionFree (m : Manifest) :
    ((PrefixIndex.ofList m.constraints.roots).size = m.constraints.entries.length ↔
      m.constraints.CollisionFree) ∧
    ((∀ m' : Manifest, m'.constraints.entries.Perm m.constraints.entries → ∀ imports,
        Manifest.effectual (some m') imports = Manifest.effectual (some m) imports) ↔
      m.constraints.CollisionFree) ∧
    ((∀ imports root, m.constraints.CoversLongest imports root →
        root ∈ Manifest.effectual (some m) imports) ↔ m.constraints.CollisionFree) ∧
    ((∀ root ∈ m.constraints.roots, IsPlain root) → m.constraints.CollisionFree) ∧
    ∀ imports root, m.constraints.CoversLongest imports root →
      ∃ credited ∈ Manifest.effectual (some m) imports, segments credited = segments root := by
  refine ⟨Rules.size_ofList_eq_length_iff, ⟨fun h => ?_, fun h m' hperm imports =>
    Manifest.effectual_perm_of_collisionFree h hperm imports⟩, ⟨fun h => ?_, fun h imports root =>
    (Manifest.mem_effectual_of_collisionFree h).2⟩, Rules.collisionFree_of_isPlain, ?_⟩
  · refine Manifest.collisionFree_of_self fun root hroot => ?_
    obtain ⟨rules, hperm, before, hlast⟩ := Rules.exists_declared_last hroot
    rw [← h { m with constraints := rules } hperm]
    exact Manifest.mem_effectual_self hlast
  · refine Manifest.collisionFree_of_self fun root hroot => h [root] root ⟨hroot, root, ?_⟩
    exact ⟨List.mem_singleton.2 rfl, List.prefix_refl _, fun r _ hprefix => hprefix.length_le⟩
  · intro imports root hcovers
    obtain ⟨x, hx, credited, hcredited, hsegments⟩ := Rules.exists_isLongestRoot_of_covers hcovers
    exact ⟨credited, Manifest.mem_effectual.2 ⟨x, hx, hcredited⟩, hsegments⟩

/-- Two constraints on what the index takes for one root: the index keeps one of them, and which one
    is effectual hangs on the order in which they are declared. -/
theorem effectual_collision :
    ∃ m m', Manifest.ofRules [] [("a//b", .none), ("a/b", .any)] .empty [] = .ok m ∧
      Manifest.ofRules [] [("a/b", .any), ("a//b", .none)] .empty [] = .ok m' ∧
      (m.constraints.roots = (["a//b", "a/b"] : List Text) ∧ segments "a//b" = segments "a/b" ∧
        (PrefixIndex.ofList m.constraints.roots).size = 1) ∧
      m.constraints.CoversLongest ["a/b/c"] "a//b" ∧
      (Manifest.effectual (some m) ["a/b/c"]).toList = (["a/b"] : List Text) ∧
      (Manifest.effectual (some m') ["a/b/c"]).toList = (["a//b"] : List Text) := by
  refine ⟨_, _, rfl, rfl, by decide +kernel, ?_, by decide +kernel, by decide +kernel⟩
  refine ⟨by decide +kernel, "a/b/c", List.mem_singleton.2 rfl, ?_⟩
  decide +kernel

end LockFit
