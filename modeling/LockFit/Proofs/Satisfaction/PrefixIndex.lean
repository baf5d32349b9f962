import LockFit.Satisfaction.PrefixIndex
import Mathlib.Data.Finset.Card
import Mathlib.Data.List.Induction

/-
  The index of import paths is a finite map on segments.
  `stored` is that map: under segments, of which there is at least one, it has the path that was
  inserted last among those with these segments. Along one way through the tree
  (`PathNode.keyAt_insert`) an insertion changes the path at the end of the way and no other, so
  every run of insertions keeps the tree, its counter and its longest starts in step with `stored`
  (`ofList_refines_stored`). `longestPrefix_ofList` says the same of roots in the order in which
  they were declared.
-/

namespace LockFit

open ImportPath

/-! ## Nodes -/

namespace PathNode

/-- The path kept where the way ends. -/
def keyAt (way : List Text) (n : PathNode) : Option Text := (n.descend way).bind key

theorem look_change (s t : Text) (f : PathNode → PathNode) (cs : List (Text × PathNode)) :
    look t (change s f cs) = if s = t then some (f ((look t cs).getD leaf)) else look t cs := by
  induction cs with
  | nil => simp [change, look]
  | cons c cs ih =>
    obtain ⟨u, child⟩ := c
    by_cases hu : u = s
    · subst hu
      by_cases ht : u = t
      · simp [change, look, ht]
      · simp [change, look, ht]
    · rw [change, if_neg hu, look, look]
      by_cases ht : u = t
      · have hst : s ≠ t := fun h => hu (ht.trans h.symm)
        rw [if_pos ht, if_pos ht, if_neg hst]
      · rw [if_neg ht, if_neg ht, ih]

theorem keyAt_cons (s : Text) (way : List Text) (n : PathNode) :
    keyAt (s :: way) n = (look s n.children).bind (keyAt way) := by
  rw [keyAt, descend, Option.bind_assoc]
  rfl

theorem keyAt_leaf (way : List Text) : keyAt way leaf = none := by
  cases way with
  | nil => rfl
  | cons s way => rw [keyAt_cons]; rfl

/-- An insertion changes what is kept at the end of its own way and nowhere else. -/
theorem keyAt_insert (path : Text) (way other : List Text) (n : PathNode) :
    keyAt other (n.insert path way) = if other = way then some path else keyAt other n := by
  induction way generalizing other n with
  | nil =>
    cases other with
    | nil => rfl
    | cons t other => rw [if_neg (List.cons_ne_nil t other), keyAt_cons, keyAt_cons]; rfl
  | cons s way ih =>
    cases other with
    | nil => rw [if_neg (List.cons_ne_nil s way).symm]; rfl
    | cons t other =>
      rw [keyAt_cons, keyAt_cons, insert, children, look_change]
      by_cases hst : s = t
      · subst hst
        rw [if_pos rfl, Option.bind_some, ih]
        have hway : (s :: other = s :: way) ↔ other = way := by simp
        simp only [hway]
        cases look s n.children with
        | none => rw [Option.getD_none, keyAt_leaf, Option.bind_none]
        | some child => rfl
      · have hway : t :: other ≠ s :: way := fun h => hst (List.cons.inj h).1.symm
        rw [if_neg hst, if_neg hway]

theorem longest_cons (s : Text) (way : List Text) (n : PathNode) :
    longest (s :: way) n =
      (look s n.children).bind fun child => (longest way child).or child.key := by
  rw [longest]
  cases look s n.children with
  | none => rfl
  | some child => rfl

/-- Nothing is found on a way exactly when nothing is kept where a start of it ends. -/
theorem longest_eq_none {way : List Text} {n : PathNode} :
    longest way n = none ↔ ∀ start, start ≠ [] → start <+: way → keyAt start n = none := by
  induction way generalizing n with
  | nil =>
    refine ⟨fun _ start hne hstart => ?_, fun _ => rfl⟩
    exact absurd (List.prefix_nil.1 hstart) hne
  | cons s way ih =>
    rw [longest_cons, Option.bind_eq_none_iff]
    constructor
    · intro h start hne hstart
      obtain ⟨tail, rfl, htail⟩ : ∃ tail, start = s :: tail ∧ tail <+: way :=
        (List.prefix_cons_iff.1 hstart).resolve_left hne
      rw [keyAt_cons, Option.bind_eq_none_iff]
      intro child hchild
      obtain ⟨hlong, hkey⟩ := Option.or_eq_none_iff.1 (h child hchild)
      cases tail with
      | nil => exact hkey
      | cons t tail => exact ih.1 hlong _ (List.cons_ne_nil t tail) htail
    · intro h child hchild
      have below : ∀ tail, tail <+: way → keyAt tail child = none := by
        intro tail htail
        have := h (s :: tail) (List.cons_ne_nil s tail) (List.cons_prefix_cons.2 ⟨rfl, htail⟩)
        rwa [keyAt_cons, hchild, Option.bind_some] at this
      rw [Option.or_eq_none_iff]
      exact ⟨ih.2 fun start _ hstart => below start hstart, below [] List.nil_prefix⟩

/-- What is found on a way is kept where a start of it ends, and no longer start has anything. -/
theorem longest_eq_some {way : List Text} {n : PathNode} {path : Text} :
    longest way n = some path ↔ ∃ start, start ≠ [] ∧ start <+: way ∧ keyAt start n = some path ∧
      ∀ other, other <+: way → start.length < other.length → keyAt other n = none := by
  induction way generalizing n with
  | nil => simp +contextual [longest]
  | cons s way ih =>
    rw [longest_cons]
    cases hchild : look s n.children with
    | none =>
      rw [Option.bind_none]
      refine ⟨fun h => (Option.some_ne_none path h.symm).elim, ?_⟩
      rintro ⟨start, hne, hstart, hkey, -⟩
      obtain ⟨tail, rfl, -⟩ := (List.prefix_cons_iff.1 hstart).resolve_left hne
      rw [keyAt_cons, hchild] at hkey
      exact absurd hkey.symm (Option.some_ne_none path)
    | some child =>
      have step : ∀ tail, keyAt (s :: tail) n = keyAt tail child := by
        intro tail
        rw [keyAt_cons, hchild, Option.bind_some]
      rw [Option.bind_some, Option.or_eq_some_iff]
      constructor
      · rintro (hlong | ⟨hlong, hkey⟩)
        · obtain ⟨tail, -, htail, hkey, hmax⟩ := ih.1 hlong
          refine ⟨s :: tail, List.cons_ne_nil s tail, List.cons_prefix_cons.2 ⟨rfl, htail⟩,
            (step tail).trans hkey, fun other hother hlt => ?_⟩
          obtain rfl | ⟨rest, rfl, hrest⟩ := List.prefix_cons_iff.1 hother
          · simp at hlt
          · rw [step]
            exact hmax rest hrest (by simpa using hlt)
        · refine ⟨[s], List.cons_ne_nil s [], by simp, (step []).trans hkey,
            fun other hother hlt => ?_⟩
          obtain rfl | ⟨rest, rfl, hrest⟩ := List.prefix_cons_iff.1 hother
          · simp at hlt
          · rw [step]
            exact longest_eq_none.1 hlong rest (by rintro rfl; simp at hlt) hrest
      · rintro ⟨start, hne, hstart, hkey, hmax⟩
        obtain ⟨tail, rfl, htail⟩ := (List.prefix_cons_iff.1 hstart).resolve_left hne
        rw [step] at hkey
        have above : ∀ other, other <+: way → tail.length < other.length →
            keyAt other child = none := by
          intro other hother hlt
          rw [← step]
          exact hmax _ (List.cons_prefix_cons.2 ⟨rfl, hother⟩) (by simpa using hlt)
        cases tail with
        | nil =>
          refine Or.inr ⟨longest_eq_none.2 fun other hne' hother => ?_, hkey⟩
          exact above other hother (List.length_pos_iff.2 hne')
        | cons t tail =>
          exact Or.inl (ih.2 ⟨_, List.cons_ne_nil t tail, htail, hkey, above⟩)

end PathNode

/-! ## Runs of insertions -/

namespace PrefixIndex

/-- The path that was inserted last among those with the segments, if there are segments. -/
def stored (paths : List Text) (way : List Text) : Option Text :=
  if way = [] then none else paths.reverse.find? fun p => segments p = way

/-- The segments of the paths, the empty list of segments left out. -/
def ways (paths : List Text) : Finset (List Text) := (paths.map segments).toFinset.erase []

theorem mem_ways {paths way : List Text} :
    way ∈ ways paths ↔ way ≠ [] ∧ ∃ p ∈ paths, segments p = way := by
  simp [ways]

theorem stored_append (paths : List Text) (path : Text) (way : List Text) :
    stored (paths ++ [path]) way =
      if way ≠ [] ∧ segments path = way then some path else stored paths way := by
  unfold stored
  rw [List.reverse_append, List.reverse_singleton, List.singleton_append, List.find?_cons]
  by_cases hway : way = []
  · rw [if_pos hway, if_neg fun h => h.1 hway]
    simp [hway]
  · by_cases hpath : segments path = way
    · simp [hway, hpath]
    · simp [hway, hpath]

theorem stored_eq_some {paths way : List Text} {path : Text} :
    stored paths way = some path ↔ way ≠ [] ∧ segments path = way ∧
      ∃ before after, paths = before ++ path :: after ∧ ∀ p ∈ after, segments p ≠ way := by
  unfold stored
  by_cases hway : way = []
  · simp [hway]
  · rw [if_neg hway, List.find?_eq_some_iff_append]
    simp only [decide_eq_true_eq, Bool.not_eq_true', decide_eq_false_iff_not, hway, ne_eq,
      not_false_eq_true, true_and]
    refine and_congr_right fun _ => ⟨?_, ?_⟩
    · rintro ⟨after, before, hsplit, hafter⟩
      refine ⟨before.reverse, after.reverse, ?_, fun p hp => hafter p (List.mem_reverse.1 hp)⟩
      rw [← List.reverse_reverse paths, hsplit]
      simp
    · rintro ⟨before, after, hsplit, hafter⟩
      refine ⟨after.reverse, before.reverse, ?_, fun p hp => hafter p (List.mem_reverse.1 hp)⟩
      rw [hsplit]
      simp

theorem mem_ways_iff_stored {paths way : List Text} :
    way ∈ ways paths ↔ stored paths way ≠ none := by
  rw [mem_ways, stored]
  by_cases hway : way = []
  · simp [hway]
  · simp [hway]

/-- The step of an insertion, at the end of any way. -/
theorem keyAt_insert (index : PrefixIndex) (path : Text) (way : List Text) :
    (index.insert path).keyAt way =
      if way ≠ [] ∧ segments path = way then some path else index.keyAt way := by
  unfold insert
  dsimp only
  by_cases hpath : segments path = []
  · have hno : ¬ (way ≠ [] ∧ segments path = way) := fun h => h.1 (h.2.symm.trans hpath)
    rw [if_pos hpath, if_neg hno]
  · rw [if_neg hpath]
    refine (PathNode.keyAt_insert path (segments path) way index.root).trans ?_
    by_cases hway : way = segments path
    · rw [if_pos hway, if_pos ⟨hway ▸ hpath, hway.symm⟩]
    · rw [if_neg hway, if_neg fun h => hway h.2.symm]
      rfl

/-- The step of an insertion, for the counter: it moves only where nothing was kept. -/
theorem size_insert (index : PrefixIndex) (path : Text) :
    (index.insert path).size =
      if segments path ≠ [] ∧ index.keyAt (segments path) = none then index.size + 1
      else index.size := by
  unfold insert
  dsimp only
  by_cases hpath : segments path = []
  · rw [if_pos hpath, if_neg fun h => h.1 hpath]
  · rw [if_neg hpath]
    simp [hpath]

theorem ofList_append (paths : List Text) (path : Text) :
    ofList (paths ++ [path]) = (ofList paths).insert path := by
  rw [ofList, List.foldl_append]
  rfl

theorem keyAt_ofList (paths way : List Text) : (ofList paths).keyAt way = stored paths way := by
  induction paths using List.reverseRecOn with
  | nil =>
    have hempty : stored [] way = none := by simp [stored]
    rw [hempty]
    exact PathNode.keyAt_leaf way
  | append_singleton paths path ih => rw [ofList_append, keyAt_insert, stored_append, ih]

theorem ways_append (paths : List Text) (path : Text) :
    ways (paths ++ [path]) =
      if segments path = [] then ways paths else Insert.insert (segments path) (ways paths) := by
  ext way
  by_cases hpath : segments path = []
  · rw [if_pos hpath, mem_ways, mem_ways]
    simp only [List.mem_append, List.mem_singleton]
    refine and_congr_right fun hway => ⟨?_, fun ⟨p, hp, h⟩ => ⟨p, Or.inl hp, h⟩⟩
    rintro ⟨p, hp | rfl, h⟩
    · exact ⟨p, hp, h⟩
    · exact absurd (h.symm.trans hpath) hway
  · rw [if_neg hpath, Finset.mem_insert, mem_ways, mem_ways]
    simp only [List.mem_append, List.mem_singleton]
    constructor
    · rintro ⟨hway, p, hp | rfl, h⟩
      · exact Or.inr ⟨hway, p, hp, h⟩
      · exact Or.inl h.symm
    · rintro (rfl | ⟨hway, p, hp, h⟩)
      · exact ⟨hpath, path, Or.inr rfl, rfl⟩
      · exact ⟨hway, p, Or.inl hp, h⟩

/-- The counter counts lists of segments: a path that replaces another one is not counted again. -/
theorem size_ofList (paths : List Text) : (ofList paths).size = (ways paths).card := by
  induction paths using List.reverseRecOn with
  | nil => rfl
  | append_singleton paths path ih =>
    rw [ofList_append, size_insert, keyAt_ofList, ih, ways_append]
    by_cases hpath : segments path = []
    · rw [if_pos hpath, if_neg fun h => h.1 hpath]
    · rw [if_neg hpath]
      by_cases hkept : stored paths (segments path) = none
      · have hnew : segments path ∉ ways paths := fun h => mem_ways_iff_stored.1 h hkept
        rw [if_pos ⟨hpath, hkept⟩, Finset.card_insert_of_notMem hnew]
      · have hold : segments path ∈ ways paths := mem_ways_iff_stored.2 hkept
        rw [if_neg fun h => hkept h.2, Finset.insert_eq_of_mem hold]

theorem contains_ofList (paths : List Text) (path : Text) :
    (ofList paths).contains path = true ↔ segments path ∈ ways paths := by
  rw [mem_ways_iff_stored, contains, keyAt_ofList]
  by_cases hpath : segments path = []
  · simp [hpath, stored]
  · simp [hpath, Option.isSome_iff_ne_none]

theorem longestPrefix_eq_none {paths : List Text} {path : Text} :
    (ofList paths).longestPrefix path = none ↔ ∀ way ∈ ways paths, ¬ way <+: segments path := by
  rw [longestPrefix, PathNode.longest_eq_none]
  constructor
  · intro h way hway hstart
    refine mem_ways_iff_stored.1 hway ?_
    rw [← keyAt_ofList]
    exact h way (mem_ways.1 hway).1 hstart
  · intro h start hne hstart
    by_contra hkept
    refine h start (mem_ways_iff_stored.2 ?_) hstart
    rw [← keyAt_ofList]
    exact hkept

theorem longestPrefix_eq_some {paths : List Text} {path key : Text} :
    (ofList paths).longestPrefix path = some key ↔
      ∃ way, stored paths way = some key ∧ way <+: segments path ∧
        ∀ other ∈ ways paths, other <+: segments path → other.length ≤ way.length := by
  rw [longestPrefix, PathNode.longest_eq_some]
  refine exists_congr fun way => ?_
  have hkey : PathNode.keyAt way (ofList paths).root = stored paths way := keyAt_ofList paths way
  rw [hkey]
  constructor
  · rintro ⟨-, hstart, hstored, hmax⟩
    refine ⟨hstored, hstart, fun other hother hprefix => ?_⟩
    by_contra hlt
    refine mem_ways_iff_stored.1 hother ?_
    rw [← keyAt_ofList]
    exact hmax other hprefix (Nat.lt_of_not_le hlt)
  · rintro ⟨hstored, hstart, hmax⟩
    refine ⟨(stored_eq_some.1 hstored).1, hstart, hstored, fun other hprefix hlt => ?_⟩
    by_contra hkept
    have hother : other ∈ ways paths := by
      rw [mem_ways_iff_stored, ← keyAt_ofList]
      exact hkept
    exact Nat.not_le_of_lt hlt (hmax other hother hprefix)

/-- **The index is a finite map on segments.** After any run of insertions the tree keeps exactly
    the `stored` paths and counts the different lists of segments that it keeps them under. It
    contains a value when that is a text whose segments were inserted, and the longest indexed
    start of a path is the path stored under the most segments that the path starts with. -/
theorem ofList_refines_stored (paths : List Text) :
    (∀ way, (ofList paths).keyAt way = stored paths way) ∧
    (ofList paths).size = (ways paths).card ∧
    (∀ v, (ofList paths).containsValue v = true ↔
      ∃ k, v = .text k ∧ segments k ≠ [] ∧ ∃ p ∈ paths, segments p = segments k) ∧
    ∀ path,
      (∀ key, (ofList paths).longestPrefix path = some key ↔
        ∃ way, stored paths way = some key ∧ way <+: segments path ∧
          ∀ other ∈ ways paths, other <+: segments path → other.length ≤ way.length) ∧
      ((ofList paths).longestPrefix path = none ↔
        ∀ way ∈ ways paths, ¬ way <+: segments path) := by
  refine ⟨keyAt_ofList paths, size_ofList paths, fun v => ?_,
    fun path => ⟨fun key => longestPrefix_eq_some, longestPrefix_eq_none⟩⟩
  cases v with
  | text k =>
    rw [containsValue, contains_ofList, mem_ways]
    exact ⟨fun h => ⟨k, rfl, h⟩, fun ⟨k', hk, h⟩ => Json.text.inj hk ▸ h⟩
  | null | bool _ | int _ | float _ | list _ | object _ => simp [containsValue]

/-- A longer spelling of the same segments replaces the first one and is given back as it is. -/
example : (ofList ["a/b", "a", "/a//b/"]).longestPrefix "a/b/c" = some "/a//b/" := by
  decide +kernel

end PrefixIndex

/-! ## Declared roots -/

/-- Of the roots, in the order in which they are declared, the one that a path falls under: the
    path starts with its segments and with no more segments of another root. Of roots with the same
    segments the last one counts. -/
structure IsLongestRoot (roots : List Text) (path root : Text) : Prop where
  nonempty : segments root ≠ []
  covers : segments root <+: segments path
  longest : ∀ r ∈ roots, segments r <+: segments path →
    (segments r).length ≤ (segments root).length
  last : ∃ before after, roots = before ++ root :: after ∧
    ∀ r ∈ after, segments r ≠ segments root

theorem PrefixIndex.longestPrefix_ofList {roots : List Text} {path root : Text} :
    (ofList roots).longestPrefix path = some root ↔ IsLongestRoot roots path root := by
  rw [longestPrefix_eq_some]
  constructor
  · rintro ⟨way, hstored, hcovers, hmax⟩
    obtain ⟨hway, rfl, hlast⟩ := stored_eq_some.1 hstored
    refine ⟨hway, hcovers, fun r hr hprefix => ?_, hlast⟩
    by_cases hempty : segments r = []
    · simp [hempty]
    · exact hmax _ (mem_ways.2 ⟨hempty, r, hr, rfl⟩) hprefix
  · rintro ⟨hne, hcovers, hmax, hlast⟩
    refine ⟨segments root, stored_eq_some.2 ⟨hne, rfl, hlast⟩, hcovers, ?_⟩
    intro other hother hprefix
    obtain ⟨-, r, hr, rfl⟩ := mem_ways.1 hother
    exact hmax r hr hprefix

end LockFit
