import LockFit.Proofs.Package.Reach
import Mathlib.Data.List.Perm.Basic
import Mathlib.Order.WellFounded

/-
  Searches that push in any order.
  `ImportGraph.Step` is one look at the stack: the path on top is passed over if it was opened
  before, else it is opened and its targets are pushed, in an order and a number that are left open.
  The stack may grow with a step, but then a path fewer is left to be opened (`Step.rank_lt`), so no
  search goes on forever (`wellFounded_step`). Each step keeps what a search knows, that whatever is
  on the stack has edges among it, and that no path was opened twice (`Step.sound`). The search of
  the library is one such run (`run_search`), and all others open the same paths
  (`PackageTree.search_anyOrder`).
-/

namespace LockFit

open Relation

namespace ImportGraph

/-! ## Steps -/

/-- How far a search has come: what is still to be looked at, the next path first, and what was
    opened, the last path first. -/
structure Position where
  stack : List Text
  opened : List Text

/-- One look at the stack. -/
inductive Step (graph : ImportGraph) : Position → Position → Prop
  | skip {p : Text} {rest opened : List Text} : p ∈ opened →
      Step graph ⟨p :: rest, opened⟩ ⟨rest, opened⟩
  | expand {p : Text} {rest opened pushed : List Text} {edges : Edges} : p ∉ opened →
      graph.get? p = some edges →
      (∀ t, t ∈ pushed ↔ t ∈ edges.internal ∧ t ∉ p :: opened) →
      Step graph ⟨p :: rest, opened⟩ ⟨pushed ++ rest, p :: opened⟩

variable {graph : ImportGraph} {start : Text} {s t : Position}

/-! ## Every search ends -/

/-- The paths that are not opened yet count first, the height of the stack second. -/
def Position.rank (graph : ImportGraph) (s : Position) : ℕ × ℕ :=
  ((graph.unseen s.opened).length, s.stack.length)

theorem Step.rank_lt (h : graph.Step s t) :
    Prod.Lex (· < ·) (· < ·) (t.rank graph) (s.rank graph) := by
  cases h with
  | skip hopened =>
    apply Prod.Lex.right
    simp
  | expand hnew hp hpushed =>
    apply Prod.Lex.left
    exact length_unseen_lt hp (by simpa using hnew)

/-- No search goes on forever, wherever it starts. -/
theorem wellFounded_step (graph : ImportGraph) : WellFounded fun t s => graph.Step s t := by
  have hlex : WellFounded (Prod.Lex (· < ·) (· < ·) : ℕ × ℕ → ℕ × ℕ → Prop) :=
    (Prod.lex ⟨_, wellFounded_lt⟩ ⟨_, wellFounded_lt⟩).wf
  exact Subrelation.wf (fun h => Step.rank_lt h) (InvImage.wf (Position.rank graph) hlex)

/-! ## What every search keeps -/

/-- A search from the start came to the position and opened no path twice. -/
structure Sound (graph : ImportGraph) (start : Text) (s : Position) : Prop where
  searching : Searching graph start s.stack s.opened
  nodup : s.opened.Nodup

theorem Sound.begin (h : start ∈ graph.keys) : Sound graph start ⟨[start], []⟩ where
  searching := Searching.begin h
  nodup := List.nodup_nil

theorem Step.sound (hgraph : graph.Closed) (hstep : graph.Step s t) (h : Sound graph start s) :
    Sound graph start t := by
  cases hstep with
  | skip hopened => exact ⟨h.searching.skip hopened, h.nodup⟩
  | expand hnew hp hpushed =>
    exact ⟨h.searching.expand hgraph hp hpushed, List.nodup_cons.2 ⟨hnew, h.nodup⟩⟩

theorem Sound.run (hgraph : graph.Closed) (h : Sound graph start s)
    (hrun : ReflTransGen graph.Step s t) : Sound graph start t := by
  induction hrun with
  | refl => exact h
  | tail _ hstep ih => exact hstep.sound hgraph ih

/-- A look-up never fails: whatever is on the stack has edges. -/
theorem Sound.exists_edges (h : Sound graph start s) {p : Text} (hp : p ∈ s.stack) :
    ∃ edges, graph.get? p = some edges :=
  TextMap.mem_keys.1 (h.searching.known p hp)

/-- So a search only stops where nothing is left to be looked at. -/
theorem Sound.exists_step (h : Sound graph start s) (hstack : s.stack ≠ []) :
    ∃ t, graph.Step s t := by
  obtain ⟨stack, opened⟩ := s
  obtain ⟨p, rest, rfl⟩ := List.exists_cons_of_ne_nil hstack
  by_cases hopened : p ∈ opened
  · exact ⟨_, .skip hopened⟩
  · obtain ⟨edges, hp⟩ := h.exists_edges (List.mem_cons_self)
    have hpushed (t : Text) : t ∈ edges.internal.filter (· ∉ p :: opened) ↔
        t ∈ edges.internal ∧ t ∉ p :: opened := by simp
    exact ⟨_, .expand hopened hp hpushed⟩

/-- Where nothing is left, what the start reaches was opened, in whatever order. -/
theorem Sound.perm {opened others : List Text} (h : Sound graph start ⟨[], opened⟩)
    (h' : Sound graph start ⟨[], others⟩) : opened.Perm others := by
  rw [List.perm_ext_iff_of_nodup h.nodup h'.nodup]
  intro t
  rw [h.searching.mem_iff, h'.searching.mem_iff]

/-! ## The search of the library -/

/-- The search that pushes the targets in the order of the imports. -/
theorem run_search (hgraph : graph.Closed) {stack seen : List Text}
    (h : Searching graph start stack seen) :
    ReflTransGen graph.Step ⟨stack, seen⟩ ⟨[], graph.search stack seen⟩ := by
  fun_induction search graph stack seen with
  | case1 seen => exact .refl
  | case2 seen p rest hseen ih =>
    have hopened : p ∈ seen := List.contains_iff_mem.1 hseen
    exact .head (.skip hopened) (ih (h.skip hopened))
  | case3 seen p rest hseen hnone ih =>
    obtain ⟨edges, hp⟩ := TextMap.mem_keys.1 (h.known p List.mem_cons_self)
    exact absurd (hnone.symm.trans hp) (Option.some_ne_none edges).symm
  | case4 seen p rest hseen edges hp ih =>
    have hnew : p ∉ seen := by simpa using hseen
    have hpushed (t : Text) : t ∈ edges.internal.filter (fun t => !(p :: seen).contains t) ↔
        t ∈ edges.internal ∧ t ∉ p :: seen := by simp
    exact .head (.expand hnew hp hpushed) (ih (h.expand hgraph hp hpushed))

end ImportGraph

/-! ## Trees -/

namespace PackageTree

open ImportGraph

/-- **Searches in any order.** No search through the packages of a tree goes on forever, in whatever
    order the targets of a package are pushed. One that starts from a source finds edges for every
    path that it comes to, opens no path twice, and stops only where nothing is left to be looked
    at. Then it has opened what the search of the library opens, which is one of these. -/
theorem search_anyOrder (tree : PackageTree) (q : ReachQuery) (p : Text)
    (hp : tree.Source q p) :
    (WellFounded fun t s => (tree.graph q).Step s t) ∧
    ReflTransGen (tree.graph q).Step ⟨[p], []⟩ ⟨[], (tree.graph q).search [p] []⟩ ∧
    ∀ s, ReflTransGen (tree.graph q).Step ⟨[p], []⟩ s →
      (∀ t ∈ s.stack, ∃ edges, (tree.graph q).get? t = some edges) ∧
      s.opened.Nodup ∧
      (s.stack ≠ [] → ∃ t, (tree.graph q).Step s t) ∧
      (s.stack = [] → s.opened.Perm ((tree.graph q).search [p] [])) := by
  have hstart := Sound.begin (mem_keys_graph.2 hp)
  have hsearch := run_search closed_graph hstart.searching
  refine ⟨wellFounded_step (tree.graph q), hsearch, ?_⟩
  intro s hrun
  have hsound := hstart.run closed_graph hrun
  refine ⟨fun t => hsound.exists_edges, hsound.nodup, hsound.exists_step, ?_⟩
  intro hstack
  obtain ⟨stack, opened⟩ := s
  subst hstack
  exact hsound.perm (hstart.run closed_graph hsearch)

/-- Two packages that import each other, one of them itself as well and one that is not there. -/
theorem search_anyOrder_cycle : ∃ tree : PackageTree,
    ofPackages "r" (fun _ => false)
      [⟨"r/a", ["r/b", "r/a", "r/none", "x"], [], false⟩, ⟨"r/b", ["r/a"], [], true⟩] = .ok tree ∧
    tree.Source ⟨true, false, none⟩ "r/a" ∧
    (WellFounded fun t s => (tree.graph ⟨true, false, none⟩).Step s t) ∧
    ∀ s, ReflTransGen (tree.graph ⟨true, false, none⟩).Step ⟨["r/a"], []⟩ s →
      (∀ t ∈ s.stack, ∃ edges, (tree.graph ⟨true, false, none⟩).get? t = some edges) ∧
      s.opened.Nodup := by
  obtain ⟨tree, htree, hsource⟩ : ∃ tree : PackageTree,
      ofPackages "r" (fun _ => false)
        [⟨"r/a", ["r/b", "r/a", "r/none", "x"], [], false⟩, ⟨"r/b", ["r/a"], [], true⟩] =
          .ok tree ∧ tree.Source ⟨true, false, none⟩ "r/a" :=
    ⟨_, rfl, _, rfl, rfl, Or.inl rfl⟩
  obtain ⟨hends, -, hsafe⟩ := search_anyOrder tree ⟨true, false, none⟩ "r/a" hsource
  refine ⟨tree, htree, hsource, hends, ?_⟩
  intro s hrun
  obtain ⟨hedges, hnodup, -⟩ := hsafe s hrun
  exact ⟨hedges, hnodup⟩

end PackageTree

end LockFit
