import LockFit.Notice
import LockFit.Package.Tree

/-
  What the packages of a tree reach.
  The sources are the packages that are neither ignored nor, unless they are asked for, commands.
  An import leads to another source, to a path outside the tree, or nowhere. For every source the
  search collects the sources that it reaches and the outside paths that these import. The search
  ends because it opens a package once only.
-/

namespace LockFit

/-- What to take into account: commands, the imports of tests, and paths to leave out. -/
structure ReachQuery where
  includeMain : Bool
  includeTests : Bool
  ignored : Option IgnoreRules
  deriving DecidableEq

def ReachQuery.ignores (q : ReachQuery) (path : Text) : Bool :=
  (q.ignored.getD .empty).ignores path

/-- What a package reaches: other packages of its tree, and import paths outside. -/
structure ReachEntry where
  internal : List Text
  external : List Text
  deriving DecidableEq

/-- What each source reaches. -/
structure ReachMap where
  entries : TextMap ReachEntry
  deriving DecidableEq

/-- The outside paths that any entry reaches, in ascending order and without the excluded ones. -/
def ReachMap.flatten (reach : ReachMap) (exclude : Text → Bool) : TextSet :=
  (TextSet.ofList (reach.entries.values.flatMap ReachEntry.external)).filter fun p => !exclude p

/-- Where the imports of a source lead. -/
structure Edges where
  internal : List Text
  external : List Text
  deriving DecidableEq

/-- The edges of the sources, by their paths. -/
abbrev ImportGraph := TextMap Edges

namespace ImportGraph

/-- The paths of the graph that are not in the list. -/
def unseen (graph : ImportGraph) (seen : List Text) : List Text :=
  graph.keys.filter fun p => !seen.contains p

theorem length_unseen_lt {graph : ImportGraph} {seen : List Text} {p : Text} {e : Edges}
    (hp : graph.get? p = some e) (hs : seen.contains p = false) :
    (graph.unseen (p :: seen)).length < (graph.unseen seen).length := by
  have hk : p ∈ graph.keys := TextMap.contains_iff.1 (by simp [TextMap.contains, hp])
  suffices h : ∀ ks : List Text,
      (ks.filter fun k => !(p :: seen).contains k).length ≤
        (ks.filter fun k => !seen.contains k).length ∧
      (p ∈ ks → (ks.filter fun k => !(p :: seen).contains k).length <
        (ks.filter fun k => !seen.contains k).length) from (h graph.keys).2 hk
  intro ks
  induction ks with
  | nil => simp
  | cons k ks ih =>
    by_cases hkp : k = p
    · subst hkp
      have hin : (k :: seen).contains k = true := by simp
      simp only [List.filter_cons, hin, hs, Bool.not_true, Bool.not_false, if_true,
        List.length_cons]
      exact ⟨by simpa using Nat.le_succ_of_le ih.1, fun _ => by simpa using Nat.lt_succ_of_le ih.1⟩
    · have hc : (p :: seen).contains k = seen.contains k := by
        simp [hkp]
      simp only [List.filter_cons, hc]
      have hpk : p ∈ k :: ks ↔ p ∈ ks := by simp [Ne.symm hkp]
      rw [hpk]
      cases seen.contains k
      · simpa using ih
      · simpa using ih

/-- The paths that a search opens, in the reverse of the order in which it does: `stack` is still
    to be looked at and `seen` was opened before. -/
def search (graph : ImportGraph) (stack seen : List Text) : List Text :=
  match stack with
  | [] => seen
  | p :: rest =>
    if _hs : seen.contains p = true then search graph rest seen
    else match _hp : graph.get? p with
      | none => search graph rest seen
      | some edges =>
        search graph (edges.internal.filter (fun t => !(p :: seen).contains t) ++ rest) (p :: seen)
  termination_by ((graph.unseen seen).length, stack.length)
  decreasing_by
    · exact Prod.Lex.right _ (by simp)
    · exact Prod.Lex.right _ (by simp)
    · exact Prod.Lex.left _ _ (length_unseen_lt _hp (by simpa using _hs))

/-- What a search from the path reaches. -/
def entry (graph : ImportGraph) (path : Text) : ReachEntry :=
  let reached := graph.search [path] []
  let outside := reached.flatMap fun p => ((graph.get? p).map Edges.external).getD []
  ⟨(TextSet.ofList (reached.filter (· ≠ path))).toList, (TextSet.ofList outside).toList⟩

end ImportGraph

namespace PackageTree

/-- The packages that reach is computed for. -/
def sources (tree : PackageTree) (q : ReachQuery) : TextMap Package :=
  tree.packages.filter fun path package => !q.ignores path && (q.includeMain || !package.isMain)

/-- The imports of a package that count: neither its own path nor an ignored one. -/
def countedImports (q : ReachQuery) (path : Text) (package : Package) : List Text :=
  (package.imports ++ if q.includeTests then package.testImports else []).filter fun i =>
    i ≠ path && !q.ignores i

/-- The edges of all sources. -/
def graph (tree : PackageTree) (q : ReachQuery) : ImportGraph :=
  let sources := tree.sources q
  sources.map fun path package =>
    let imports := countedImports q path package
    ⟨imports.filter fun i => tree.isInternal i && sources.contains i,
      imports.filter fun i => !tree.isInternal i⟩

/-- What each source reaches. -/
def reach (tree : PackageTree) (q : ReachQuery) : ReachMap :=
  let graph := tree.graph q
  ⟨graph.map fun path _ => graph.entry path⟩

/-- The outside paths that the sources reach, those of the standard library left out. -/
def flattenReach (tree : PackageTree) (q : ReachQuery) : TextSet :=
  (tree.reach q).flatten tree.isStandard

/-- Imports under the root of the tree that no package provides, one notice for each. -/
def reachNotices (tree : PackageTree) (q : ReachQuery) : List Notice :=
  (tree.sources q).entries.flatMap fun (path, package) =>
    ((countedImports q path package).filter fun i =>
      tree.isInternal i && !tree.packages.contains i).map fun i => .unknownImport path i

end PackageTree

end LockFit
