import LockFit.Proofs.Constraint.Pieces
import LockFit.Proofs.Constraint.Spelling

/-
  The grammar of ranges.
  If no number is too long to be read, a text makes a range exactly if it is a star or has a piece
  and all its pieces are spelled comparisons, and fails for its form otherwise
  (`Range.ofText_grammar`). That holds of all texts that are not longer than the longest number
  (`Range.hasShortNumbers_of_length`).
-/

namespace LockFit

open Text Semver

/-! ## Ranges -/

namespace Range

open Comparator

/-- No number in a comparison of the text is too long to be read. -/
def HasShortNumbers (raw : Text) : Prop :=
  ∀ p ∈ pieces raw, ∀ s : Spelling, s.chars = p → s.IsShort

variable {raw : Text}

theorem sublist_of_mem_splitChars {sep : Code} {p cs : List Code} (h : p ∈ splitChars sep cs) :
    p.Sublist cs := by
  induction cs generalizing p with
  | nil =>
    rw [splitChars, List.mem_singleton] at h
    rw [h]
  | cons c cs ih =>
    rw [splitChars] at h
    split at h
    · rcases List.mem_cons.1 h with rfl | hp
      · exact List.nil_sublist _
      · exact (ih hp).cons c
    · split at h
      · rw [List.mem_singleton.1 h]
        exact (List.nil_sublist cs).cons_cons c
      · rename_i piece more hsplit
        rw [hsplit] at ih
        rcases List.mem_cons.1 h with rfl | hp
        · exact (ih List.mem_cons_self).cons_cons c
        · exact (ih (List.mem_cons_of_mem piece hp)).cons c

theorem length_le_of_mem_pieces {p : List Code} (h : p ∈ pieces raw) : p.length ≤ raw.length := by
  obtain ⟨q, hq, rfl⟩ := List.mem_map.1 (List.mem_of_mem_filter h)
  rw [← Text.length_toList]
  exact ((sublist_trimChars q).trans (sublist_of_mem_splitChars hq)).length_le

/-- A text that is itself short has no long number. -/
theorem hasShortNumbers_of_length (h : raw.length ≤ digitLimit) : HasShortNumbers raw := by
  rintro p hp s rfl
  have hlength := (length_le_of_mem_pieces hp).trans h
  simp only [Spelling.chars, Spelling.bodyChars, List.length_append] at hlength
  refine ⟨by omega, ?_, ?_⟩
  · intro n hn
    rw [Option.mem_def.1 hn, behind, List.length_cons] at hlength
    omega
  · intro n hn
    rw [Option.mem_def.1 hn, behind, List.length_cons] at hlength
    omega

theorem readPiece_isOk_of_short {p : List Code} (h : ∀ s : Spelling, s.chars = p → s.IsShort) :
    (∃ c, readPiece p = .ok c) ↔ ∃ s : Spelling, s.chars = p := by
  constructor
  · intro hread
    obtain ⟨r, hr, -⟩ := readPiece_isOk.1 hread
    obtain ⟨s, hs, -⟩ := readChars_eq_some.1 hr
    exact ⟨s, hs⟩
  · rintro ⟨s, rfl⟩
    exact ⟨_, Spelling.readPiece_chars (h s rfl)⟩

/-- A text with numbers that can be read does not fail with one. -/
theorem HasShortNumbers.not_overlong (h : HasShortNumbers raw) : ¬ Overlong raw := by
  rintro ⟨before, p, after, hpieces, -, r, hr, hlong⟩
  have hmem : p ∈ pieces raw := by simp [hpieces]
  obtain ⟨s, hs, rfl⟩ := readChars_eq_some.1 hr
  exact hlong (Spelling.isShort_reading.2 (h p hmem s hs))

/-- A text with numbers that can be read makes a range exactly if it is a star or has a piece and
    all its pieces are spellings. -/
theorem HasShortNumbers.ofText_isOk (h : HasShortNumbers raw) : (∃ r, ofText raw = .ok r) ↔
    trim raw = "*" ∨ pieces raw ≠ [] ∧ ∀ p ∈ pieces raw, ∃ s : Spelling, s.chars = p := by
  rw [trim_eq_star]
  by_cases hstar : trimChars raw.toList = [Code.scalar '*']
  · rw [Range.ofText_isOk]
    simp [readComparators, hstar]
  · rw [ofText_isOk_of_ne_star hstar, or_iff_right hstar]
    exact and_congr_right fun _ => forall₂_congr fun p hp => readPiece_isOk_of_short (h p hp)

/-- A text that makes no range fails for its form. -/
theorem HasShortNumbers.fails (h : HasShortNumbers raw) :
    (∃ r, ofText raw = .ok r) ∨ ∃ e, ofText raw = .error e ∧ ¬ e.IsNumeral := by
  rw [← not_failsWith_iff]
  by_cases hstar : trimChars raw.toList = [Code.scalar '*']
  · obtain ⟨r, hr⟩ := h.ofText_isOk.2 (Or.inl (trim_eq_star.2 hstar))
    rw [hr]
    exact not_failsWith_ok
  · rw [ofText_failsWith_numeral hstar]
    exact h.not_overlong

/-- **The grammar of ranges.** A text in which no number is too long to be read makes a range
    exactly if it is a star or has a piece and all its pieces are comparisons, and fails for its
    form otherwise. A piece is a comparison in one way only and is read as what is meant by it, and
    reading an accepted text again for a release does not fail and gives the answer of its range. -/
theorem ofText_grammar (raw : Text) (hshort : HasShortNumbers raw) :
    ((∃ r, ofText raw = .ok r) ↔
      trim raw = "*" ∨ pieces raw ≠ [] ∧ ∀ p ∈ pieces raw, ∃ s : Spelling, s.chars = p) ∧
    ((∃ r, ofText raw = .ok r) ∨ ∃ e, ofText raw = .error e ∧ ¬ e.IsNumeral) ∧
    (∀ p ∈ pieces raw, ∀ s : Spelling, s.chars = p →
      readPiece p = .ok s.comparator ∧ ∀ t : Spelling, t.chars = p → t = s) ∧
    (∀ r, ofText raw = .ok r → ∀ n, allowsAgain raw n = .ok (r.allows n)) := by
  refine ⟨hshort.ofText_isOk, hshort.fails, ?_, ?_⟩
  · rintro p hp s rfl
    exact ⟨Spelling.readPiece_chars (hshort _ hp s rfl), fun t ht => Spelling.chars_inj ht⟩
  · intro r hr n
    rw [← ofText_raw hr]
    exact allowsAgain_eq_allows r n

/-- Blanks may stand around the pieces and behind their operators. -/
theorem ofText_grammar_spaced : HasShortNumbers " ^v0.1-a.2 , ~ 2+b" ∧
    ∃ r, ofText " ^v0.1-a.2 , ~ 2+b" = .ok r := by
  have hshort : HasShortNumbers " ^v0.1-a.2 , ~ 2+b" := hasShortNumbers_of_length (by decide)
  have hpieces : pieces " ^v0.1-a.2 , ~ 2+b" =
      [Text.toList "^v0.1-a.2", Text.toList "~ 2+b"] := by decide +kernel
  have hcaret : Comparator.readChars (Text.toList "^v0.1-a.2") =
      some ⟨.caret, ['0'], some ['1'], none, some ['a', '.', '2'], none⟩ := by decide +kernel
  have htilde : Comparator.readChars (Text.toList "~ 2+b") =
      some ⟨.tilde, ['2'], none, none, none, some ['b']⟩ := by decide +kernel
  refine ⟨hshort, (ofText_grammar _ hshort).1.2 (Or.inr ⟨by simp [hpieces], ?_⟩)⟩
  obtain ⟨s, hs, -⟩ := readChars_eq_some.1 hcaret
  obtain ⟨t, ht, -⟩ := readChars_eq_some.1 htilde
  rw [hpieces, List.forall_mem_cons, List.forall_mem_singleton]
  exact ⟨⟨s, hs⟩, ⟨t, ht⟩⟩

end Range

end LockFit
