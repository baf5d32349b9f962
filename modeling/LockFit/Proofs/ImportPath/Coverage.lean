import LockFit.Proofs.ImportPath.Spelling
import LockFit.Proofs.Satisfaction.PrefixIndex

/-
  Two ways to say that a root covers a path.
  By its text, a root covers the paths that go on from it with a slash; in an index of roots, the
  paths whose segments start with its own. What is covered by text is always covered by segments
  (`Under.segments_prefix`). The other direction needs both to be written plainly, since doubled
  slashes count for the text and not for the segments: for segments joined with single slashes, with
  any slashes at the end of the root, the two agree (`covers_iff_indexed`).
-/

namespace LockFit

open ImportPath Text

/-! ## An index of one root -/

namespace PrefixIndex

/-- An index of one root finds that root, for the paths that start with its segments. -/
theorem longestPrefix_singleton {root path key : Text} :
    (ofList [root]).longestPrefix path = some key ↔
      key = root ∧ segments root ≠ [] ∧ segments root <+: segments path := by
  rw [longestPrefix_ofList]
  constructor
  · intro h
    obtain ⟨before, after, hsplit, -⟩ := h.last
    have hkey : key ∈ [root] := by simp [hsplit]
    obtain rfl := List.mem_singleton.1 hkey
    exact ⟨rfl, h.nonempty, h.covers⟩
  · rintro ⟨rfl, hne, hcovers⟩
    refine ⟨hne, hcovers, fun r hr _ => ?_, [], [], rfl, by simp⟩
    rw [List.mem_singleton.1 hr]

theorem longestPrefix_singleton_ne_none {root path : Text} (hne : segments root ≠ []) :
    (ofList [root]).longestPrefix path ≠ none ↔ segments root <+: segments path := by
  rw [Option.ne_none_iff_exists']
  constructor
  · rintro ⟨key, hkey⟩
    exact (longestPrefix_singleton.1 hkey).2.2
  · exact fun hcovers => ⟨root, longestPrefix_singleton.2 ⟨rfl, hne, hcovers⟩⟩

end PrefixIndex

/-! ## Segments joined with single slashes -/

namespace ImportPath

variable {root way : List Text}

/-- Nothing is dropped from a text that ends in a segment. -/
theorem IsSegment.dropSlashes_append {name : Text} (h : IsSegment name) (start : Text) :
    dropSlashes (start ++ name) = start ++ name := by
  have hname : name.toList ≠ [] := fun hnil => h.1 (Text.toList_inj.1 hnil)
  have hlast : ∀ c ∈ (start ++ name).toList.getLast?, (c == '/') = false := by
    intro c hc
    rw [Text.toList_append, List.getLast?_append_of_ne_nil _ hname] at hc
    have hmem : c ∈ name.toList := List.mem_of_getLast? hc
    exact beq_false_of_ne fun hslash => h.2 (hslash ▸ hmem)
  apply Text.toList_inj.1
  rw [dropSlashes, toList_dropEnd, dropEndWhile_eq_self hlast]

theorem dropSlashes_intercalate (h : ∀ s ∈ way, IsSegment s) :
    dropSlashes (Text.intercalate "/" way) = Text.intercalate "/" way := by
  rcases List.eq_nil_or_concat' way with rfl | ⟨parents, name, rfl⟩
  · rfl
  · have hname : IsSegment name := h name (by simp)
    have hends : ∃ start, Text.intercalate "/" (parents ++ [name]) = start ++ name := by
      by_cases hparents : parents = []
      · exact ⟨"", by simp [hparents]⟩
      · refine ⟨Text.intercalate "/" parents ++ "/", ?_⟩
        rw [Text.intercalate_append_of_ne_nil hparents (List.cons_ne_nil name []),
          Text.intercalate_singleton]
    obtain ⟨start, hstart⟩ := hends
    rw [hstart, hname.dropSlashes_append]

/-- A root of joined segments, with any slashes at its end, covers by its text what it covers by its
    segments. -/
theorem under_intercalate (hne : root ≠ []) (hroot : ∀ s ∈ root, IsSegment s)
    (hway : ∀ s ∈ way, IsSegment s) (n : Nat) :
    Under (Text.intercalate "/" root ++ slashes n) (Text.intercalate "/" way) ↔ root <+: way := by
  constructor
  · intro hunder
    have hprefix := hunder.segments_prefix
    rwa [segments_append_slashes, segments_intercalate hroot, segments_intercalate hway] at hprefix
  · rintro ⟨rest, rfl⟩
    have hdrop : dropSlashes (Text.intercalate "/" root ++ slashes n) =
        Text.intercalate "/" root := by
      rw [dropSlashes_append_slashes, dropSlashes_intercalate hroot]
    rw [Under, hdrop]
    by_cases hrest : rest = []
    · exact Or.inl (by rw [hrest, List.append_nil])
    · exact Or.inr ⟨Text.intercalate "/" rest, Text.intercalate_append_of_ne_nil hne hrest⟩

/-- A sibling whose name goes on from the last segment is another segment in its place. -/
theorem not_prefix_sibling {more : Text} (hmore : more ≠ "") (parents : List Text)
    (name : Text) (rest : List Text) :
    ¬ parents ++ [name] <+: parents ++ (name ++ more) :: rest := by
  rw [List.prefix_append_right_inj, List.cons_prefix_cons]
  rintro ⟨hname, -⟩
  refine hmore (Text.toList_inj.1 ?_)
  have hchars : name.toList = name.toList ++ more.toList := by
    rw [← Text.toList_append, ← hname]
  simpa using hchars

/-- **Covering by text and covering by segments agree.** Let root and path be segments joined with
    single slashes, and let the root have at least one segment and any number of slashes at its
    end. Then the text of the root covers that of the path exactly if an index of the root alone
    finds it for the path, and exactly if the segments of the path start with those of the root. So
    neither lets a root cover a sibling whose name only starts with the last segment of the
    root. -/
theorem covers_iff_indexed (hne : root ≠ []) (hroot : ∀ s ∈ root, IsSegment s)
    (hway : ∀ s ∈ way, IsSegment s) (n : Nat) :
    let key := Text.intercalate "/" root ++ slashes n
    let path := Text.intercalate "/" way
    (covers key path = true ↔ (PrefixIndex.ofList [key]).longestPrefix path ≠ none) ∧
    ((PrefixIndex.ofList [key]).longestPrefix path ≠ none ↔ segments key <+: segments path) ∧
    (segments key = root ∧ segments path = way) ∧
    ∀ (parents : List Text) (name more : Text) (rest : List Text),
      root = parents ++ [name] → more ≠ "" → way = parents ++ (name ++ more) :: rest →
      covers key path = false ∧ (PrefixIndex.ofList [key]).longestPrefix path = none := by
  intro key path
  have hkey : segments key = root := by
    rw [segments_append_slashes, segments_intercalate hroot]
  have hpath : segments path = way := segments_intercalate hway
  have hcovers : covers key path = true ↔ root <+: way :=
    covers_iff.trans (under_intercalate hne hroot hway n)
  have hindexed : (PrefixIndex.ofList [key]).longestPrefix path ≠ none ↔ root <+: way := by
    rw [PrefixIndex.longestPrefix_singleton_ne_none (hkey.trans_ne hne), hkey, hpath]
  refine ⟨hcovers.trans hindexed.symm, ?_, ⟨hkey, hpath⟩, ?_⟩
  · rw [hindexed, hkey, hpath]
  · rintro parents name more rest hsplit hmore hsibling
    have hnot : ¬ root <+: way := by
      rw [hsplit, hsibling]
      exact not_prefix_sibling hmore parents name rest
    exact ⟨Bool.eq_false_iff.2 fun h => hnot (hcovers.1 h),
      not_not.1 fun h => hnot (hindexed.1 h)⟩

/-- A root with slashes at its end covers a path two segments further down, and nothing under the
    sibling whose name goes on from its own. -/
theorem covers_iff_indexed_sibling :
    let key := Text.intercalate "/" ["a.b", "c"] ++ slashes 2
    let path := Text.intercalate "/" ["a.b", "c", "d", "e"]
    let sibling := Text.intercalate "/" ["a.b", "cc", "d"]
    (covers key path = true ∧ (PrefixIndex.ofList [key]).longestPrefix path ≠ none) ∧
    covers key sibling = false ∧ (PrefixIndex.ofList [key]).longestPrefix sibling = none := by
  intro key path sibling
  have hne : (["a.b", "c"] : List Text) ≠ [] := List.cons_ne_nil _ _
  have hroot : ∀ s ∈ (["a.b", "c"] : List Text), IsSegment s := by decide +kernel
  have hway : ∀ s ∈ (["a.b", "c", "d", "e"] : List Text), IsSegment s := by decide +kernel
  have hsibling : ∀ s ∈ (["a.b", "cc", "d"] : List Text), IsSegment s := by decide +kernel
  have hcovers : covers key path = true := by decide +kernel
  obtain ⟨hindexed, -⟩ := covers_iff_indexed hne hroot hway 2
  obtain ⟨-, -, -, hnot⟩ := covers_iff_indexed hne hroot hsibling 2
  exact ⟨⟨hcovers, hindexed.1 hcovers⟩,
    hnot ["a.b"] "c" "c" ["d"] rfl (by decide) (by decide +kernel)⟩

end ImportPath

end LockFit
