import LockFit.Proofs.ImportPath.Segments

/-
  Paths as they are written.
  A `Spelling` is a path part by part: the slashes at its start, then its segments, each with the
  slashes behind it, of which only the last segment can do without. Its segments are what is read
  from it (`Spelling.segments_text`), and every text is a spelling (`exists_spelling`), so reading
  says of each text what it can be taken for (`segments_eq_iff_spelling`). `segments_spelled` adds
  what an index of paths rests on: segments that are joined again are read as they were, and what
  is appended behind a slash leaves them as a start.
-/

namespace LockFit.ImportPath

open Text

/-! ## Segments -/

/-- A text that can be a segment: not empty, and without a slash. -/
def IsSegment (s : Text) : Prop := s ≠ "" ∧ Code.scalar '/' ∉ s.toList

instance (s : Text) : Decidable (IsSegment s) := inferInstanceAs (Decidable (_ ∧ _))

theorem isSegment_of_mem_segments {path s : Text} (h : s ∈ segments path) : IsSegment s := by
  obtain ⟨hpiece, hne⟩ := List.mem_filter.1 h
  exact ⟨of_decide_eq_true hne, notMem_of_mem_split hpiece⟩

/-- Segments that are joined with single slashes are read as they were. -/
theorem segments_intercalate {way : List Text} (h : ∀ s ∈ way, IsSegment s) :
    segments (Text.intercalate "/" way) = way := by
  by_cases hway : way = []
  · rw [hway, Text.intercalate_nil, segments_empty]
  · have hpieces : split '/' (Text.intercalate "/" way) = way :=
      split_intercalate hway fun s hs => (h s hs).2
    rw [segments, hpieces]
    exact List.filter_eq_self.2 fun s hs => decide_eq_true (h s hs).1

/-- A text that can be a segment is its own and only one. -/
theorem IsSegment.segments_eq {s : Text} (h : IsSegment s) : segments s = [s] := by
  have hone : segments (Text.intercalate "/" [s]) = [s] := segments_intercalate (by simpa using h)
  rwa [Text.intercalate_singleton] at hone

/-! ## Spellings -/

/-- The segments one after the other, each with so many slashes behind it. -/
def writeParts : List (Text × Nat) → Text
  | [] => ""
  | (s, n) :: parts => s ++ slashes n ++ writeParts parts

/-- A path as it is written: any number of slashes at the start, then the segments, with at least
    one slash between two of them and any number behind the last. -/
structure Spelling where
  lead : Nat
  parts : List (Text × Nat)
  segment : ∀ part ∈ parts, IsSegment part.1
  apart : parts.IsChain fun part _ => 0 < part.2

namespace Spelling

/-- The segments that are written. -/
def way (w : Spelling) : List Text := w.parts.map Prod.fst

/-- The spelling as a text. -/
def text (w : Spelling) : Text := slashes w.lead ++ writeParts w.parts

end Spelling

theorem segments_writeParts {parts : List (Text × Nat)}
    (hsegment : ∀ part ∈ parts, IsSegment part.1)
    (hapart : parts.IsChain fun part _ => 0 < part.2) :
    segments (writeParts parts) = parts.map Prod.fst := by
  -- on the slashes that keep the segments apart: behind the last segment there may be none
  induction hapart with
  | nil => rw [writeParts, segments_empty, List.map_nil]
  | singleton part =>
    have hs : segments part.1 = [part.1] := (hsegment part List.mem_cons_self).segments_eq
    rw [writeParts, writeParts, Text.append_empty, segments_append_slashes, hs, List.map_cons,
      List.map_nil]
  | @cons_cons part next parts hgap _ ih =>
    have hs : segments part.1 = [part.1] := (hsegment part List.mem_cons_self).segments_eq
    have hrest := ih fun part hpart => hsegment part (List.mem_cons_of_mem _ hpart)
    rw [writeParts, segments_append_slashes_append hgap, hs, hrest, List.singleton_append,
      ← List.map_cons]

/-- What is written is what is read. -/
theorem Spelling.segments_text (w : Spelling) : segments w.text = w.way := by
  rw [text, segments_slashes_append, segments_writeParts w.segment w.apart, way]

/-- A piece without a slash can be written in front of a spelling, with a slash between the two. An
    empty piece adds the slash to those at the start. -/
theorem Spelling.exists_behind {piece : Text} (h : Code.scalar '/' ∉ piece.toList) (w : Spelling) :
    ∃ w' : Spelling, w'.text = piece ++ "/" ++ w.text := by
  by_cases hempty : piece = ""
  · refine ⟨{ w with lead := w.lead + 1 }, ?_⟩
    apply Text.toList_inj.1
    simp [text, slashes, hempty, List.replicate_succ]
  · -- the slashes at the start now stand behind the piece, with one more
    have hsegment : ∀ part ∈ (piece, w.lead + 1) :: w.parts, IsSegment part.1 :=
      List.forall_mem_cons.2 ⟨⟨hempty, h⟩, w.segment⟩
    have hapart : ((piece, w.lead + 1) :: w.parts).IsChain fun part _ => 0 < part.2 := by
      have hrest := w.apart
      cases hparts : w.parts with
      | nil => exact .singleton _
      | cons next parts => exact .cons_cons (Nat.succ_pos w.lead) (hparts ▸ hrest)
    refine ⟨⟨0, _, hsegment, hapart⟩, ?_⟩
    apply Text.toList_inj.1
    simp [text, writeParts, slashes, List.replicate_succ]

theorem exists_spelling_intercalate {pieces : List Text} (hne : pieces ≠ [])
    (h : ∀ piece ∈ pieces, Code.scalar '/' ∉ piece.toList) :
    ∃ w : Spelling, w.text = Text.intercalate "/" pieces := by
  induction pieces with
  | nil => exact absurd rfl hne
  | cons piece pieces ih =>
    obtain ⟨hpiece, hpieces⟩ := List.forall_mem_cons.1 h
    cases pieces with
    | nil =>
      by_cases hempty : piece = ""
      · exact ⟨⟨0, [], by simp, .nil⟩, by simp [Spelling.text, writeParts, slashes_zero, hempty]⟩
      · refine ⟨⟨0, [(piece, 0)], by simpa using ⟨hempty, hpiece⟩, .singleton _⟩, ?_⟩
        simp [Spelling.text, writeParts, slashes_zero]
    | cons next pieces =>
      obtain ⟨w, hw⟩ := ih (List.cons_ne_nil next pieces) hpieces
      obtain ⟨w', hw'⟩ := w.exists_behind hpiece
      exact ⟨w', by rw [hw', hw, Text.intercalate_cons_cons]⟩

/-- Every text is a spelling. -/
theorem exists_spelling (path : Text) : ∃ w : Spelling, w.text = path := by
  obtain ⟨w, hw⟩ := exists_spelling_intercalate (split_ne_nil '/' path)
    fun _ => notMem_of_mem_split
  exact ⟨w, hw.trans (intercalate_split '/' path)⟩

/-- Two slashes at the start, three between the segments and one at the end. -/
example : (Spelling.mk 2 [("a.b", 3), ("c", 1)] (by decide) (by simp)).text = "//a.b///c/" := by
  decide +kernel

/-- The segments of a text are those that it is a spelling of. -/
theorem segments_eq_iff_spelling {path : Text} {way : List Text} :
    segments path = way ↔ ∃ w : Spelling, w.text = path ∧ w.way = way := by
  constructor
  · rintro rfl
    obtain ⟨w, rfl⟩ := exists_spelling path
    exact ⟨w, rfl, w.segments_text.symm⟩
  · rintro ⟨w, rfl, rfl⟩
    exact w.segments_text

/-- **Segments are what stands between the slashes.** A text has the segments of a list exactly if
    it is the list written with slashes: at least one between two segments, and any number at the
    start and at the end. Slashes at the ends may be taken away first. The segments of a text are
    not empty and have no slash in them, joined with single slashes they are read again as they
    were, and whatever is appended to the text behind a slash, its segments still come first. -/
theorem segments_spelled :
    (∀ path way, segments path = way ↔ ∃ w : Spelling, w.text = path ∧ w.way = way) ∧
    ∀ path,
      segments (stripSlashes path) = segments path ∧
      (∀ s ∈ segments path, IsSegment s) ∧
      segments (Text.intercalate "/" (segments path)) = segments path ∧
      ∀ rest, segments path <+: segments (path ++ "/" ++ rest) := by
  refine ⟨fun path way => segments_eq_iff_spelling, fun path => ⟨?_, ?_, ?_, ?_⟩⟩
  · exact segments_stripSlashes path
  · exact fun s hs => isSegment_of_mem_segments hs
  · exact segments_intercalate fun s hs => isSegment_of_mem_segments hs
  · exact segments_prefix_append_slash path

end LockFit.ImportPath
