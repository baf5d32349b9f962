import LockFit.Proofs.Constraint.Grammar
import LockFit.Proofs.Constraint.SameVersion

/-
  Pinned tags beside ranges of one release.
  A comparison may have any version behind its operator: a version that is spelled there, with
  blanks around it, is a comparison with its numbers, of which none is left out
  (`Range.ofText_comparison`). A version alone is a pin on the tag (`Constraint.ofText_of_accepts`).
  The pin asks for more than the range `==` of the same version: the pre-release tag has to be the
  same as well (`Constraint.pin_iff_equal_range`).
-/

namespace LockFit

open Text Semver

/-! ## A version behind an operator -/

namespace Semver.Spelling

/-- The comparison that has the version behind its operator and some blanks. -/
def comparison (s : Spelling) (op : Operator) {gap : List Code}
    (hgap : ∀ c ∈ gap, isBlank c = true) : Comparator.Spelling where
  op := op
  gap := gap
  marked := s.marked
  major := s.major
  minor := some s.minor
  patch := some s.patch
  preRelease := s.preRelease
  build := s.build
  gap_blank := hgap
  major_numeral := s.major_numeral
  minor_numeral := by simpa using s.minor_numeral
  patch_numeral := by simpa using s.patch_numeral
  minor_of_patch := by simp
  preRelease_tag := s.preRelease_tag
  build_tag := s.build_tag

variable {s : Spelling} {op : Operator} {gap : List Code} {hgap : ∀ c ∈ gap, isBlank c = true}

theorem chars_comparison : (s.comparison op hgap).chars = op.chars ++ (gap ++ s.chars) := by
  rw [chars, releaseChars_append]
  rfl

/-- None of the numbers is left out, so the comparison is with those of the version. -/
theorem comparator_comparison : (s.comparison op hgap).comparator = ⟨op, s.number, true⟩ := rfl

theorem isShort_comparison (h : s.reading.IsShort) : (s.comparison op hgap).IsShort := by
  obtain ⟨hmajor, hminor, hpatch⟩ := h
  refine ⟨hmajor, ?_, ?_⟩
  · rintro _ ⟨⟩
    exact hminor
  · rintro _ ⟨⟩
    exact hpatch

/-- No comma stands in a version. -/
theorem comma_notMem_chars (s : Spelling) : Code.scalar ',' ∉ s.chars := by
  have hne : ∀ c ∈ s.chars, c ≠ ',' := by
    refine s.forall_mem_chars (by decide) (by decide) ?_ ?_ (by decide) (by decide)
    · rintro _ hdigit rfl
      exact absurd hdigit (by decide)
    · rintro _ htag rfl
      exact absurd htag (by decide)
  exact fun h => hne ',' h rfl

theorem chars_ne_nil (s : Spelling) : s.chars ≠ [] := by
  simp [chars, releaseChars]

end Semver.Spelling

namespace Operator

/-- An operator begins with neither a blank nor a star. -/
theorem chars_eq_cons (op : Operator) :
    ∃ c rest, op.chars = c :: rest ∧ isBlank c = false ∧ c ≠ '*' := by
  cases op <;> exact ⟨_, _, rfl, by decide, by decide⟩

theorem comma_notMem_chars (op : Operator) : Code.scalar ',' ∉ op.chars := by
  cases op <;> decide

end Operator

namespace Range

theorem trimChars_comparison {s : Semver.Spelling} {op : Operator} {gap after : List Code}
    (hafter : ∀ c ∈ after, isBlank c = true) :
    trimChars (op.chars ++ (gap ++ (s.chars ++ after))) = op.chars ++ (gap ++ s.chars) := by
  have hsplit : op.chars ++ (gap ++ (s.chars ++ after)) =
      [] ++ ((op.chars ++ (gap ++ s.chars)) ++ after) := by simp
  rw [hsplit, trimChars_surround (by simp) hafter]
  refine trimChars_eq_self (fun c hc => ?_) fun c hc => ?_
  · -- the text starts with the operator
    obtain ⟨d, rest, hop, hblank, -⟩ := op.chars_eq_cons
    rw [hop] at hc
    rw [← Option.some.inj hc]
    exact hblank
  · -- and ends with the version
    obtain ⟨d, hd⟩ : ∃ d, s.chars.getLast? = some d :=
      ⟨_, List.getLast?_eq_some_getLast s.chars_ne_nil⟩
    rw [List.getLast?_append, List.getLast?_append, hd] at hc
    rw [← Option.some.inj hc]
    exact s.isBlank_of_mem_chars d (List.mem_of_mem_getLast? hd)

variable {text : Text} {s : Semver.Spelling}

/-- An operator in front of a version, with or without blanks around it, is one piece. -/
theorem pieces_comparison (hs : s.chars = trimChars text.toList) (op : Operator) :
    ∃ (gap : List Code) (hgap : ∀ c ∈ gap, isBlank c = true),
      trimChars (Text.ofList op.chars ++ text).toList = (s.comparison op hgap).chars ∧
      pieces (Text.ofList op.chars ++ text) = [(s.comparison op hgap).chars] := by
  obtain ⟨gap, after, htext, hgap, hafter⟩ := exists_surround text.toList
  rw [← hs] at htext
  have hraw : (Text.ofList op.chars ++ text).toList =
      op.chars ++ (gap ++ (s.chars ++ after)) := by
    rw [Text.toList_append, Text.toList_ofList, htext]
  have hcomma : Code.scalar ',' ∉ (Text.ofList op.chars ++ text).toList := by
    rw [hraw]
    simp only [List.mem_append, not_or]
    exact ⟨op.comma_notMem_chars, comma_notMem_of_blank hgap, s.comma_notMem_chars,
      comma_notMem_of_blank hafter⟩
  have htrim : trimChars (Text.ofList op.chars ++ text).toList =
      (s.comparison op hgap).chars := by
    rw [hraw, trimChars_comparison hafter, Semver.Spelling.chars_comparison]
  have hne : (s.comparison op hgap).chars ≠ [] := by
    simp [Semver.Spelling.chars_comparison, s.chars_ne_nil]
  exact ⟨gap, hgap, htrim, by rw [pieces_of_comma hcomma (by rwa [htrim]), htrim]⟩

/-- An operator in front of a version makes a range of one comparison, which is with the numbers of
    the version. -/
theorem ofText_comparison (hs : s.chars = trimChars text.toList) (hshort : s.reading.IsShort)
    (op : Operator) : ∃ r p, ofText (Text.ofList op.chars ++ text) = .ok r ∧
      r.comparators = [⟨op, s.number, true⟩] ∧
      pieces (Text.ofList op.chars ++ text) = [p] ∧ readPiece p = .ok ⟨op, s.number, true⟩ := by
  obtain ⟨gap, hgap, htrim, hpieces⟩ := pieces_comparison hs op
  have hpiece : readPiece (s.comparison op hgap).chars = .ok ⟨op, s.number, true⟩ := by
    rw [Comparator.Spelling.readPiece_chars (Semver.Spelling.isShort_comparison hshort),
      Semver.Spelling.comparator_comparison]
  have hstar : trimChars (Text.ofList op.chars ++ text).toList ≠ [Code.scalar '*'] := by
    rw [htrim, Semver.Spelling.chars_comparison]
    intro h
    obtain ⟨c, rest, hop, -, hstar⟩ := op.chars_eq_cons
    rw [hop] at h
    exact hstar (List.cons_eq_cons.1 h).1
  have hread : readComparators (Text.ofList op.chars ++ text) = .ok [⟨op, s.number, true⟩] := by
    rw [readComparators_eq_ok hstar, hpieces]
    exact ⟨by simp, .cons hpiece .nil⟩
  obtain ⟨r, hr⟩ := ofText_isOk.2 ⟨_, hread⟩
  have hreads := r.reads
  rw [ofText_raw hr, hread] at hreads
  exact ⟨r, _, hr, (Except.ok.inj hreads).symm, hpieces, hpiece⟩

end Range

/-! ## A version alone -/

namespace Version

/-- The pre-release tag of a version, if it has one. -/
def preRelease? (v : Version) : Option (List Code) := v.reading?.bind Semver.Reading.preRelease

theorem preRelease?_eq {v : Version} {s : Spelling} (hkind : v.kind = .semver)
    (hs : s.chars = trimChars v.text.toList) : v.preRelease? = s.preRelease := by
  rw [preRelease?, reading?_eq_some.2 ⟨hkind, s, hs, rfl⟩]
  rfl

/-- A text that is a version makes a tag, which has the pre-release tag of the version. -/
theorem ofKind_spelling {text : Text} {s : Spelling} (hs : s.chars = trimChars text.toList) :
    ∃ tag, ofKind text .semver = .ok tag ∧ tag.preRelease? = s.preRelease :=
  have haccepts := accepts_iff.2 ⟨s, hs⟩
  ⟨⟨text, .semver, fun _ => haccepts⟩, dif_pos fun _ => haccepts, preRelease?_eq rfl hs⟩

end Version

namespace Constraint

/-- A version without any operator is a pin on the tag. -/
theorem ofText_of_accepts {text : Text} (h : Semver.accepts text = true) :
    ∃ hrule, ofText text = .ok (.exact ⟨trim text, .semver, hrule⟩) :=
  ⟨_, ofText_tag (Semver.accepts_trim.trans h)⟩

/-- The answer of a pin on a tag: the same numbers and the same pre-release tag. -/
theorem pin_allows {pin v : Version} {s t : Semver.Spelling}
    (hpin : pin.identity? = some (.ok s.identity)) (hv : v.identity? = some (.ok t.identity)) :
    ∃ pinned, (exact pin).allows v = .ok pinned ∧
      (pinned = true ↔ t.number = s.number ∧ t.preRelease = s.preRelease) := by
  refine ⟨decide (t.identity = s.identity), ?_, ?_⟩
  · rw [allows, sameVersion, hpin, hv]
    rfl
  · rw [decide_eq_true_eq, Semver.Spelling.identity_eq_iff]

/-- The answer of a range `==` of one comparison: the same numbers. -/
theorem equal_range_allows {r : Range} {v : Version} {m n : ReleaseNumber} {given : Bool}
    (hr : r.comparators = [⟨.equal, m, given⟩]) (hv : v.number? = some (.ok n)) :
    ∃ ranged, (range r).allows v = .ok ranged ∧ (ranged = true ↔ n = m) := by
  refine ⟨decide (n = m), ?_, decide_eq_true_iff⟩
  rw [allows, hv]
  simp [bind, Except.bind, pure, Except.pure, Range.allows, hr, Comparator.allows]

/-- **Pins and ranges of one version.** A version behind any of the operators makes a range of one
    comparison, with the numbers of the version and none of them left out. The version alone is a
    pin, and the tags that it allows are those of the range `==` of the version that have the same
    pre-release tag as well. -/
theorem pin_iff_equal_range (text : Text) (haccepts : Semver.accepts text = true)
    (hshort : ∀ r, Semver.read? text = some r → r.IsShort) :
    (∀ op : Operator, ∃ (r : Range) (p : List Code) (n : ReleaseNumber),
      Range.ofText (Text.ofList op.chars ++ text) = .ok r ∧
      Range.pieces (Text.ofList op.chars ++ text) = [p] ∧
      Semver.number text = .ok n ∧ Range.readPiece p = .ok ⟨op, n, true⟩) ∧
    (∃ (pin : Constraint) (r : Range) (tag : Version), ofText text = .ok pin ∧
      Range.ofText ("==" ++ text) = .ok r ∧ Version.ofKind text .semver = .ok tag ∧
      ∀ v : Version, v.kind = .semver → v.IsReadable →
        ∃ pinned ranged, pin.allows v = .ok pinned ∧ (range r).allows v = .ok ranged ∧
          (pinned = true ↔ ranged = true ∧ v.preRelease? = tag.preRelease?)) := by
  obtain ⟨s, hs⟩ := accepts_iff.1 haccepts
  have hread : Semver.read? text = some s.reading := read?_eq_some.2 ⟨s, hs, rfl⟩
  have hsShort := hshort s.reading hread
  constructor
  · intro op
    obtain ⟨r, p, hr, -, hpieces, hpiece⟩ := Range.ofText_comparison hs hsShort op
    refine ⟨r, p, s.number, hr, hpieces, ?_, hpiece⟩
    rw [Semver.number, hread]
    dsimp only
    rw [Semver.Spelling.number_reading hsShort]
  · obtain ⟨r, -, hr, hcomparators, -⟩ := Range.ofText_comparison hs hsShort .equal
    obtain ⟨hrule, hpin⟩ := ofText_of_accepts haccepts
    obtain ⟨tag, htag, htagPre⟩ := Version.ofKind_spelling hs
    refine ⟨_, r, tag, hpin, hr, htag, ?_⟩
    intro v hkind hv
    obtain ⟨i, hi⟩ := hv.exists_identity hkind
    obtain ⟨-, t, ht, -, rfl⟩ := Version.identity?_eq_ok.1 hi
    have hpinned : Version.identity? ⟨trim text, .semver, hrule⟩ = some (.ok s.identity) :=
      Version.identity?_eq_ok.2 ⟨rfl, s, by rw [toList_trim, trimChars_idem, hs], hsShort, rfl⟩
    obtain ⟨pinned, hpinnedAnswer, hpinnedIff⟩ := pin_allows hpinned hi
    obtain ⟨ranged, hrangedAnswer, hrangedIff⟩ :=
      equal_range_allows hcomparators (Version.number?_of_identity? hi)
    refine ⟨pinned, ranged, hpinnedAnswer, hrangedAnswer, ?_⟩
    rw [hpinnedIff, hrangedIff, Version.preRelease?_eq hkind ht, htagPre]
    rfl

/-- A version with a mark, both tags and blanks at both ends, and a release without any. -/
theorem pin_iff_equal_range_tagged :
    Semver.accepts " v1.2.3-rc+b\n" = true ∧ (Version.ofText "1.2.3").IsReadable ∧
    (∃ r p n, Range.ofText ("^" ++ " v1.2.3-rc+b\n") = .ok r ∧
      Range.pieces ("^" ++ " v1.2.3-rc+b\n") = [p] ∧
      Semver.number " v1.2.3-rc+b\n" = .ok n ∧ Range.readPiece p = .ok ⟨.caret, n, true⟩) ∧
    ∃ pin r tag, ofText " v1.2.3-rc+b\n" = .ok pin ∧
      Range.ofText ("==" ++ " v1.2.3-rc+b\n") = .ok r ∧
      Version.ofKind " v1.2.3-rc+b\n" .semver = .ok tag ∧
      ∃ pinned ranged, pin.allows (Version.ofText "1.2.3") = .ok pinned ∧
        (range r).allows (Version.ofText "1.2.3") = .ok ranged ∧
        (pinned = true ↔ ranged = true ∧
          (Version.ofText "1.2.3").preRelease? = tag.preRelease?) := by
  have haccepts : Semver.accepts " v1.2.3-rc+b\n" = true := by decide +kernel
  have hread : (Version.ofText "1.2.3").IsReadable :=
    Version.isReadable_of_length (by rw [Version.text_ofText]; decide)
  obtain ⟨hranges, pin, r, tag, hpin, hr, htag, hanswers⟩ :=
    pin_iff_equal_range " v1.2.3-rc+b\n" haccepts fun _ => isShort_of_length (by decide)
  exact ⟨haccepts, hread, hranges .caret, pin, r, tag, hpin, hr, htag, hanswers _ rfl hread⟩

end Constraint

end LockFit
