import LockFit.Package.Reach
import Mathlib.Logic.Relation

/-
  What the packages of a tree reach, exactly.
  A search is followed by `Searching`: everything met so far is reached from the start, and what
  an opened package leads to was opened too or is still to be looked at. Both ways to go on keep
  this, in whatever order the targets are put on the stack, so at the end the opened packages are
  those that the start reaches (`mem_search`). With the edges of a tree read off its packages
  (`leads_graph`, `external_graph`) this gives the entry of each source (`reach_exact`), and that
  flattening the entries is one pass over the sources (`flattenReach_direct`). No look-up of a
  search fails on the way (`strictSearch_graph`).
-/

namespace LockFit

open Relation

/-! ## The search -/

namespace ImportGraph

/-- There is an edge to the target, inside the graph. -/
def Leads (graph : ImportGraph) (p t : Text) : Prop :=
  ∃ edges, graph.get? p = some edges ∧ t ∈ edges.internal

/-- Whatever an edge leads to has edges of its own. -/
def Closed (graph : ImportGraph) : Prop := ∀ p t, graph.Leads p t → t ∈ graph.keys

/-- A search from the start, with `stack` still to be looked at and `seen` opened. -/
structure Searching (graph : ImportGraph) (start : Text) (stack seen : List Text) : Prop where
  known : ∀ p ∈ stack, p ∈ graph.keys
  reached : ∀ p, p ∈ seen ∨ p ∈ stack → ReflTransGen graph.Leads start p
  started : start ∈ seen ∨ start ∈ stack
  followed : ∀ p ∈ seen, ∀ t, graph.Leads p t → t ∈ seen ∨ t ∈ stack

variable {graph : ImportGraph} {start p : Text} {rest seen : List Text}

theorem Searching.begin (h : start ∈ graph.keys) : Searching graph start [start] [] where
  known := by
    intro p hp
    rw [List.mem_singleton.1 hp]
    exact h
  reached := by
    intro p hp
    rw [List.mem_singleton.1 (hp.resolve_left List.not_mem_nil)]
  started := Or.inr (List.mem_singleton.2 rfl)
  followed := by
    intro p hp
    exact absurd hp List.not_mem_nil

/-- A package that was opened before is passed over. -/
theorem Searching.skip (h : Searching graph start (p :: rest) seen) (hp : p ∈ seen) :
    Searching graph start rest seen where
  known := fun t ht => h.known t (List.mem_cons_of_mem p ht)
  reached := fun t ht => h.reached t (ht.imp_right (List.mem_cons_of_mem p))
  started := by
    rcases h.started with hs | hs
    · exact Or.inl hs
    · rcases List.mem_cons.1 hs with rfl | hs
      · exact Or.inl hp
      · exact Or.inr hs
  followed := by
    intro s hs t ht
    rcases h.followed s hs t ht with h' | h'
    · exact Or.inl h'
    · rcases List.mem_cons.1 h' with rfl | h'
      · exact Or.inl hp
      · exact Or.inr h'

/-- A package is opened: its targets that were not opened yet are pushed, in any order. -/
theorem Searching.expand (hgraph : graph.Closed) (h : Searching graph start (p :: rest) seen)
    {edges : Edges} (hp : graph.get? p = some edges) {pushed : List Text}
    (hpushed : ∀ t, t ∈ pushed ↔ t ∈ edges.internal ∧ t ∉ p :: seen) :
    Searching graph start (pushed ++ rest) (p :: seen) where
  known := by
    intro t ht
    rcases List.mem_append.1 ht with ht | ht
    · exact hgraph p t ⟨edges, hp, ((hpushed t).1 ht).1⟩
    · exact h.known t (List.mem_cons_of_mem p ht)
  reached := by
    have hstart : ReflTransGen graph.Leads start p := h.reached p (Or.inr List.mem_cons_self)
    intro t ht
    rcases ht with ht | ht
    · rcases List.mem_cons.1 ht with rfl | ht
      · exact hstart
      · exact h.reached t (Or.inl ht)
    · rcases List.mem_append.1 ht with ht | ht
      · exact hstart.tail ⟨edges, hp, ((hpushed t).1 ht).1⟩
      · exact h.reached t (Or.inr (List.mem_cons_of_mem p ht))
  started := by
    rcases h.started with hs | hs
    · exact Or.inl (List.mem_cons_of_mem p hs)
    · rcases List.mem_cons.1 hs with rfl | hs
      · exact Or.inl List.mem_cons_self
      · exact Or.inr (List.mem_append_right pushed hs)
  followed := by
    intro s hs t ht
    by_cases hopened : t ∈ p :: seen
    · exact Or.inl hopened
    · right
      rcases List.mem_cons.1 hs with rfl | hs
      · obtain ⟨edges', hp', ht'⟩ := ht
        rw [hp] at hp'
        rw [Option.some.inj hp'] at hpushed
        exact List.mem_append_left rest ((hpushed t).2 ⟨ht', hopened⟩)
      · rcases h.followed s hs t ht with h' | h'
        · exact absurd (List.mem_cons_of_mem p h') hopened
        · rcases List.mem_cons.1 h' with rfl | h'
          · exact absurd List.mem_cons_self hopened
          · exact List.mem_append_right pushed h'

/-- A whole search, by the cases of one look at the stack. -/
theorem Searching.finish (hgraph : graph.Closed) {stack seen : List Text}
    (h : Searching graph start stack seen) :
    Searching graph start [] (graph.search stack seen) := by
  fun_induction search graph stack seen with
  | case1 seen => exact h
  | case2 seen p rest hseen ih => exact ih (h.skip (List.contains_iff_mem.1 hseen))
  | case3 seen p rest hseen hnone ih =>
    -- what is on the stack has edges, so a look-up never fails
    obtain ⟨edges, hp⟩ := TextMap.mem_keys.1 (h.known p List.mem_cons_self)
    exact absurd (hnone.symm.trans hp) (Option.some_ne_none edges).symm
  | case4 seen p rest hseen edges hp ih =>
    refine ih (h.expand hgraph hp fun t => ?_)
    simp

/-- Where nothing is left on the stack, exactly what the start reaches was opened. -/
theorem Searching.mem_iff (h : Searching graph start [] seen) {t : Text} :
    t ∈ seen ↔ ReflTransGen graph.Leads start t := by
  constructor
  · exact fun ht => h.reached t (Or.inl ht)
  · intro ht
    induction ht with
    | refl => exact h.started.resolve_right List.not_mem_nil
    | tail _ hstep ih => exact (h.followed _ ih _ hstep).resolve_right List.not_mem_nil

/-- A search opens exactly what the start reaches. -/
theorem mem_search (hgraph : graph.Closed) (hstart : start ∈ graph.keys) {t : Text} :
    t ∈ graph.search [start] [] ↔ ReflTransGen graph.Leads start t :=
  ((Searching.begin hstart).finish hgraph).mem_iff

theorem mem_entry_internal (hgraph : graph.Closed) (hstart : start ∈ graph.keys) {t : Text} :
    t ∈ (graph.entry start).internal ↔ t ≠ start ∧ TransGen graph.Leads start t := by
  rw [entry]
  dsimp only
  rw [TextSet.mem_toList, TextSet.mem_ofList, List.mem_filter, mem_search hgraph hstart,
    reflTransGen_iff_eq_or_transGen, decide_eq_true_eq]
  constructor
  · rintro ⟨h, hne⟩
    exact ⟨hne, h.resolve_left hne⟩
  · rintro ⟨hne, h⟩
    exact ⟨Or.inr h, hne⟩

theorem mem_entry_external (hgraph : graph.Closed) (hstart : start ∈ graph.keys) {x : Text} :
    x ∈ (graph.entry start).external ↔ ∃ t, ReflTransGen graph.Leads start t ∧
      ∃ edges, graph.get? t = some edges ∧ x ∈ edges.external := by
  rw [entry]
  dsimp only
  rw [TextSet.mem_toList, TextSet.mem_ofList, List.mem_flatMap]
  refine exists_congr fun t => and_congr (mem_search hgraph hstart) ?_
  cases graph.get? t with
  | none => simp
  | some edges => simp

end ImportGraph

/-! ## The edges of a tree -/

/-- The import stands in the code of the package or, where tests count, in its tests. -/
def Package.Lists (q : ReachQuery) (package : Package) (i : Text) : Prop :=
  i ∈ package.imports ∨ q.includeTests = true ∧ i ∈ package.testImports

namespace PackageTree

/-- The package is stored under the path, not ignored and, unless they count, no command. -/
def IsSource (tree : PackageTree) (q : ReachQuery) (path : Text) (package : Package) : Prop :=
  tree.get? path = some package ∧ q.ignores path = false ∧
    (q.includeMain = true ∨ package.isMain = false)

/-- The path of a source. -/
def Source (tree : PackageTree) (q : ReachQuery) (p : Text) : Prop :=
  ∃ package, tree.IsSource q p package

/-- A source with the path lists the import. -/
def Imports (tree : PackageTree) (q : ReachQuery) (p i : Text) : Prop :=
  ∃ package, tree.IsSource q p package ∧ package.Lists q i

/-- A source lists another source. -/
def Leads (tree : PackageTree) (q : ReachQuery) (p t : Text) : Prop :=
  tree.Imports q p t ∧ tree.Source q t ∧ t ≠ p

/-- A source lists a path that is neither ignored nor under the root of the tree. -/
def LeadsOut (tree : PackageTree) (q : ReachQuery) (p x : Text) : Prop :=
  tree.Imports q p x ∧ q.ignores x = false ∧ tree.isInternal x = false

variable {tree : PackageTree} {q : ReachQuery} {p : Text}

/-- A stored path lies under the root. -/
theorem Source.isInternal (h : tree.Source q p) : tree.isInternal p = true := by
  obtain ⟨package, hget, -⟩ := h
  exact (tree.placed p package hget).2

theorem get?_sources {package : Package} :
    (tree.sources q).get? p = some package ↔ tree.IsSource q p package := by
  rw [sources, TextMap.get?_filter, IsSource]
  simp [get?]

theorem contains_sources : (tree.sources q).contains p = true ↔ tree.Source q p := by
  rw [TextMap.contains_iff, TextMap.mem_keys]
  exact exists_congr fun _ => get?_sources

theorem mem_countedImports {package : Package} {i : Text} :
    i ∈ countedImports q p package ↔ package.Lists q i ∧ i ≠ p ∧ q.ignores i = false := by
  rw [countedImports, List.mem_filter, Package.Lists]
  cases q.includeTests <;> simp

theorem get?_graph {edges : Edges} :
    (tree.graph q).get? p = some edges ↔ ∃ package, tree.IsSource q p package ∧
      edges = ⟨(countedImports q p package).filter fun i =>
          tree.isInternal i && (tree.sources q).contains i,
        (countedImports q p package).filter fun i => !tree.isInternal i⟩ := by
  rw [graph, TextMap.get?_map, Option.map_eq_some_iff]
  exact exists_congr fun package => and_congr get?_sources eq_comm

theorem mem_keys_graph : p ∈ (tree.graph q).keys ↔ tree.Source q p := by
  rw [TextMap.mem_keys]
  simp only [get?_graph]
  constructor
  · rintro ⟨edges, package, hsource, -⟩
    exact ⟨package, hsource⟩
  · rintro ⟨package, hsource⟩
    exact ⟨_, package, hsource, rfl⟩

theorem leads_graph : (tree.graph q).Leads = tree.Leads q := by
  funext p t
  refine propext ⟨?_, ?_⟩
  · rintro ⟨edges, hedges, ht⟩
    obtain ⟨package, hsource, rfl⟩ := get?_graph.1 hedges
    simp only [List.mem_filter, mem_countedImports, Bool.and_eq_true, contains_sources] at ht
    obtain ⟨⟨hlists, hne, -⟩, -, htarget⟩ := ht
    exact ⟨⟨package, hsource, hlists⟩, htarget, hne⟩
  · rintro ⟨⟨package, hsource, hlists⟩, htarget, hne⟩
    refine ⟨_, get?_graph.2 ⟨package, hsource, rfl⟩, ?_⟩
    simp only [List.mem_filter, mem_countedImports, Bool.and_eq_true, contains_sources]
    obtain ⟨target, -, hcounts, -⟩ := id htarget
    exact ⟨⟨hlists, hne, hcounts⟩, htarget.isInternal, htarget⟩

/-- That a package does not import itself from outside needs no check: its path is under the
    root. -/
theorem external_graph {x : Text} :
    (∃ edges, (tree.graph q).get? p = some edges ∧ x ∈ edges.external) ↔ tree.LeadsOut q p x := by
  constructor
  · rintro ⟨edges, hedges, hx⟩
    obtain ⟨package, hsource, rfl⟩ := get?_graph.1 hedges
    simp only [List.mem_filter, mem_countedImports, Bool.not_eq_true'] at hx
    obtain ⟨⟨hlists, -, hcounts⟩, hout⟩ := hx
    exact ⟨⟨package, hsource, hlists⟩, hcounts, hout⟩
  · rintro ⟨⟨package, hsource, hlists⟩, hcounts, hout⟩
    refine ⟨_, get?_graph.2 ⟨package, hsource, rfl⟩, ?_⟩
    simp only [List.mem_filter, mem_countedImports, Bool.not_eq_true']
    refine ⟨⟨hlists, ?_, hcounts⟩, hout⟩
    rintro rfl
    have hin : tree.isInternal x = true := Source.isInternal ⟨package, hsource⟩
    rw [hout] at hin
    exact Bool.false_ne_true hin

theorem closed_graph : (tree.graph q).Closed := by
  intro p t h
  rw [leads_graph] at h
  exact mem_keys_graph.2 h.2.1

/-! ## The entries of a reach map -/

theorem get?_reach {entry : ReachEntry} :
    (tree.reach q).entries.get? p = some entry ↔
      tree.Source q p ∧ (tree.graph q).entry p = entry := by
  rw [reach]
  dsimp only
  rw [TextMap.get?_map, Option.map_eq_some_iff, ← mem_keys_graph, TextMap.mem_keys]
  constructor
  · rintro ⟨edges, hedges, h⟩
    exact ⟨⟨edges, hedges⟩, h⟩
  · rintro ⟨⟨edges, hedges⟩, h⟩
    exact ⟨edges, hedges, h⟩

/-- What a source reaches: the other sources that a chain of imports leads to, and the outside
    paths that the source and these list, each in ascending order. -/
structure Reaches (tree : PackageTree) (q : ReachQuery) (p : Text) (entry : ReachEntry) :
    Prop where
  internal_ascending : entry.internal.Pairwise (· < ·)
  mem_internal : ∀ t, t ∈ entry.internal ↔ t ≠ p ∧ TransGen (tree.Leads q) p t
  external_ascending : entry.external.Pairwise (· < ·)
  mem_external : ∀ x, x ∈ entry.external ↔
    ∃ t, ReflTransGen (tree.Leads q) p t ∧ tree.LeadsOut q t x

theorem reaches_entry (h : tree.Source q p) : tree.Reaches q p ((tree.graph q).entry p) where
  internal_ascending := TextSet.ascending _
  mem_internal := by
    intro t
    rw [ImportGraph.mem_entry_internal closed_graph (mem_keys_graph.2 h), leads_graph]
  external_ascending := TextSet.ascending _
  mem_external := by
    intro x
    rw [ImportGraph.mem_entry_external closed_graph (mem_keys_graph.2 h), leads_graph]
    exact exists_congr fun t => and_congr_right fun _ => external_graph

/-- The description of an entry leaves no choice. -/
theorem Reaches.unique {entry other : ReachEntry} (h : tree.Reaches q p entry)
    (h' : tree.Reaches q p other) : entry = other := by
  obtain ⟨internal, external⟩ := entry
  obtain ⟨internal', external'⟩ := other
  have hin : internal = internal' :=
    TextSet.eq_of_ascending h.internal_ascending h'.internal_ascending fun t =>
      (h.mem_internal t).trans (h'.mem_internal t).symm
  have hout : external = external' :=
    TextSet.eq_of_ascending h.external_ascending h'.external_ascending fun x =>
      (h.mem_external x).trans (h'.mem_external x).symm
  rw [hin, hout]

/-- **The reach map is exact.** Its keys are the sources, and under each source it has the one
    entry that lists what the source reaches. -/
theorem reach_exact (tree : PackageTree) (q : ReachQuery) :
    (∀ p, p ∈ (tree.reach q).entries.keys ↔ tree.Source q p) ∧
    ∀ p entry, (tree.reach q).entries.get? p = some entry ↔
      tree.Source q p ∧ tree.Reaches q p entry := by
  refine ⟨fun p => ?_, fun p entry => ?_⟩
  · rw [TextMap.mem_keys]
    simp only [get?_reach]
    exact ⟨fun ⟨_, h, _⟩ => h, fun h => ⟨_, h, rfl⟩⟩
  · rw [get?_reach]
    refine and_congr_right fun hsource => ⟨?_, ?_⟩
    · rintro rfl
      exact reaches_entry hsource
    · exact fun h => (reaches_entry hsource).unique h

/-! ## Flattening -/

/-- What any source reaches outside the tree, some source lists itself: whatever is reached on the
    way is a source with an entry of its own. -/
theorem mem_flattenReach {x : Text} :
    x ∈ tree.flattenReach q ↔ (∃ p, tree.LeadsOut q p x) ∧ tree.isStandard x = false := by
  rw [flattenReach, ReachMap.flatten, TextSet.mem_filter, TextSet.mem_ofList, List.mem_flatMap,
    Bool.not_eq_true']
  refine and_congr_left fun _ => ⟨?_, ?_⟩
  · rintro ⟨entry, hentry, hx⟩
    obtain ⟨p, hp⟩ := TextMap.mem_values.1 hentry
    obtain ⟨hsource, rfl⟩ := get?_reach.1 hp
    obtain ⟨t, -, ht⟩ := ((reaches_entry hsource).mem_external x).1 hx
    exact ⟨t, ht⟩
  · rintro ⟨p, hp⟩
    have hsource : tree.Source q p := by
      obtain ⟨⟨package, h, -⟩, -⟩ := hp
      exact ⟨package, h⟩
    refine ⟨_, TextMap.mem_values.2 ⟨p, get?_reach.2 ⟨hsource, rfl⟩⟩, ?_⟩
    exact ((reaches_entry hsource).mem_external x).2 ⟨p, ReflTransGen.refl, hp⟩

/-- **Flattening the reach map is one pass over the sources.** It lists, in ascending order, what
    stored packages that count import, less what is ignored, under the root or standard. -/
theorem flattenReach_direct (tree : PackageTree) (q : ReachQuery) :
    (tree.flattenReach q).toList.Pairwise (· < ·) ∧
    ∀ x, x ∈ (tree.flattenReach q).toList ↔
      (∃ path package, tree.get? path = some package ∧ q.ignores path = false ∧
        (q.includeMain = true ∨ package.isMain = false) ∧
        (x ∈ package.imports ∨ q.includeTests = true ∧ x ∈ package.testImports)) ∧
      q.ignores x = false ∧ tree.isInternal x = false ∧ tree.isStandard x = false := by
  refine ⟨TextSet.ascending _, fun x => ?_⟩
  rw [TextSet.mem_toList, mem_flattenReach]
  constructor
  · rintro ⟨⟨p, ⟨package, ⟨hget, hcounts, hmain⟩, hlists⟩, hx, hout⟩, hstandard⟩
    exact ⟨⟨p, package, hget, hcounts, hmain, hlists⟩, hx, hout, hstandard⟩
  · rintro ⟨⟨p, package, hget, hcounts, hmain, hlists⟩, hx, hout, hstandard⟩
    exact ⟨⟨p, ⟨package, ⟨hget, hcounts, hmain⟩, hlists⟩, hx, hout⟩, hstandard⟩

end PackageTree

/-! ## Look-ups -/

namespace ImportGraph

/-- The search that gives up where a path to be opened has no edges. -/
def strictSearch (graph : ImportGraph) (stack seen : List Text) : Option (List Text) :=
  match stack with
  | [] => some seen
  | p :: rest =>
    if _hs : seen.contains p = true then strictSearch graph rest seen
    else match _hp : graph.get? p with
      | none => none
      | some edges =>
        strictSearch graph (edges.internal.filter (fun t => !(p :: seen).contains t) ++ rest)
          (p :: seen)
  termination_by ((graph.unseen seen).length, stack.length)
  decreasing_by
    · exact Prod.Lex.right _ (by simp)
    · exact Prod.Lex.left _ _ (length_unseen_lt _hp (by simpa using _hs))

variable {graph : ImportGraph} {start : Text}

theorem Searching.strictSearch_eq (hgraph : graph.Closed) {stack seen : List Text}
    (h : Searching graph start stack seen) :
    graph.strictSearch stack seen = some (graph.search stack seen) := by
  fun_induction search graph stack seen with
  | case1 seen => rw [strictSearch]
  | case2 seen p rest hseen ih =>
    rw [strictSearch, dif_pos hseen]
    exact ih (h.skip (List.contains_iff_mem.1 hseen))
  | case3 seen p rest hseen hnone ih =>
    obtain ⟨edges, hp⟩ := TextMap.mem_keys.1 (h.known p List.mem_cons_self)
    exact absurd (hnone.symm.trans hp) (Option.some_ne_none edges).symm
  | case4 seen p rest hseen edges hp ih =>
    rw [strictSearch, dif_neg hseen]
    split
    · rename_i hnone
      exact absurd (hnone.symm.trans hp) (Option.some_ne_none edges).symm
    · rename_i edges' hp'
      obtain rfl := Option.some.inj (hp'.symm.trans hp)
      exact ih (h.expand hgraph hp fun t => by simp)

end ImportGraph

/-- A search from a source finds edges for every path that it opens. -/
theorem PackageTree.strictSearch_graph {tree : PackageTree} {q : ReachQuery} {p : Text}
    (h : tree.Source q p) :
    (tree.graph q).strictSearch [p] [] = some ((tree.graph q).search [p] []) :=
  (ImportGraph.Searching.begin (mem_keys_graph.2 h)).strictSearch_eq closed_graph

end LockFit
