import LockFit.Proofs.Package.Reach

/-
  What a query leaves out, taken out of the tree.
  A query leaves out commands, imports of tests and ignored paths while it goes through a tree. The
  same can be done to the tree before: `PackageTree.pruned` keeps the packages that count, and of
  their imports those that count. Asked for everything, the pruned tree has the same edges between
  the same sources as the tree under the query (`graph_pruned`), although an import that the query
  leaves out is passed over in one and not there at all in the other. So the searches are the same
  and reach the same (`reach_pruned`).
-/

namespace LockFit

/-- Commands and the imports of tests count, and nothing is ignored. -/
def ReachQuery.everything : ReachQuery := ⟨true, true, none⟩

@[simp] theorem ReachQuery.ignores_everything (path : Text) :
    everything.ignores path = false := rfl

/-- The package without the imports that are ignored and, unless they count, without those of its
    tests. -/
def Package.pruned (q : ReachQuery) (package : Package) : Package where
  path := package.path
  imports := package.imports.filter fun i => !q.ignores i
  testImports := if q.includeTests then package.testImports.filter fun i => !q.ignores i else []
  isMain := package.isMain

namespace PackageTree

/-- The tree of the packages that count, each without what does not count of its imports. -/
def pruned (tree : PackageTree) (q : ReachQuery) : PackageTree where
  root := tree.root
  packages := (tree.sources q).map fun _ package => package.pruned q
  isStandard := tree.isStandard
  placed := by
    intro path package h
    obtain ⟨kept, hkept, rfl⟩ := Option.map_eq_some_iff.1 (TextMap.get?_map.symm.trans h)
    exact tree.placed path kept (TextMap.get?_filter.1 hkept).1

variable {tree : PackageTree} {q : ReachQuery} {path : Text}

theorem get?_pruned {package : Package} : (tree.pruned q).get? path = some package ↔
    ∃ kept, tree.IsSource q path kept ∧ package = kept.pruned q := by
  rw [get?, pruned, TextMap.get?_map, Option.map_eq_some_iff]
  exact exists_congr fun kept => and_congr get?_sources eq_comm

/-- Every package of the pruned tree counts, and each comes from a source. -/
theorem isSource_pruned {package : Package} :
    (tree.pruned q).IsSource .everything path package ↔
      ∃ kept, tree.IsSource q path kept ∧ package = kept.pruned q := by
  rw [IsSource, get?_pruned]
  exact and_iff_left ⟨rfl, Or.inl rfl⟩

theorem contains_sources_pruned :
    ((tree.pruned q).sources .everything).contains path = (tree.sources q).contains path := by
  rw [Bool.eq_iff_iff, contains_sources, contains_sources, Source]
  simp only [isSource_pruned]
  exact ⟨fun ⟨_, kept, h, _⟩ => ⟨kept, h⟩, fun ⟨kept, h⟩ => ⟨_, kept, h, rfl⟩⟩

/-- Of a pruned package all imports count that counted before. -/
theorem countedImports_pruned (package : Package) :
    countedImports .everything path (package.pruned q) = countedImports q path package := by
  have hfilter (imports : List Text) :
      (imports.filter fun i => !q.ignores i).filter (fun i => i ≠ path && !false) =
        imports.filter fun i => i ≠ path && !q.ignores i := by
    rw [List.filter_filter]
    exact List.filter_congr fun i _ => by rw [Bool.not_false, Bool.and_true]
  simp only [countedImports, ReachQuery.ignores_everything, Package.pruned]
  cases q.includeTests with
  | true =>
    rw [if_pos rfl, if_pos rfl, ReachQuery.everything, if_pos rfl, List.filter_append,
      List.filter_append, hfilter, hfilter]
  | false =>
    rw [if_neg Bool.false_ne_true, if_neg Bool.false_ne_true, ite_self, List.append_nil,
      List.append_nil, hfilter]

/-- The pruned tree has the edges that the query leaves. -/
theorem graph_pruned : (tree.pruned q).graph .everything = tree.graph q := by
  refine TextMap.ext_get? fun path edges => ?_
  rw [get?_graph, get?_graph]
  simp only [isSource_pruned, contains_sources_pruned]
  constructor
  · rintro ⟨_, ⟨kept, hkept, rfl⟩, rfl⟩
    rw [countedImports_pruned]
    exact ⟨kept, hkept, rfl⟩
  · rintro ⟨kept, hkept, rfl⟩
    refine ⟨kept.pruned q, ⟨kept, hkept, rfl⟩, ?_⟩
    rw [countedImports_pruned]
    rfl

/-- **A query is a change of the tree.** What a tree reaches under a query is what the pruned tree
    reaches when everything counts. The pruned tree has the same root and holds, under their paths,
    the packages that are neither ignored nor, unless they count, commands, each without ignored
    imports and, unless they count, without those of its tests. -/
theorem reach_pruned (tree : PackageTree) (q : ReachQuery) :
    (tree.pruned q).root = tree.root ∧
    (∀ path package, (tree.pruned q).get? path = some package ↔
      ∃ kept, tree.get? path = some kept ∧ q.ignores path = false ∧
        (q.includeMain = true ∨ kept.isMain = false) ∧
        package.path = kept.path ∧
        package.imports = kept.imports.filter (fun i => !q.ignores i) ∧
        package.testImports =
          (if q.includeTests then kept.testImports.filter fun i => !q.ignores i else []) ∧
        package.isMain = kept.isMain) ∧
    tree.reach q = (tree.pruned q).reach .everything := by
  refine ⟨rfl, fun path package => ?_, ?_⟩
  · rw [get?_pruned]
    obtain ⟨p, imports, testImports, isMain⟩ := package
    simp only [IsSource, and_assoc, Package.pruned, Package.mk.injEq]
  · rw [reach, reach, graph_pruned]

end PackageTree

end LockFit
