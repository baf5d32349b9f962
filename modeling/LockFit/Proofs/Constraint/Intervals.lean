import LockFit.Constraint.Basic
import LockFit.Proofs.Constraint.Pieces
import LockFit.Proofs.Constraint.Spelling
import LockFit.Proofs.Text.Split
import Mathlib.Data.Prod.Lex
import Mathlib.Order.Interval.Set.Basic
import Mathlib.Order.Lattice.Nat

/-
  Ranges as sets of releases.
  The numbers of a release are a triple of naturals, and the order of releases is the lexicographic
  order of their triples (`ReleaseNumber.before_iff`, `atMost_iff`). A comparison denotes a set of
  triples: a point, all but a point, a half-line, or for the caret and the tilde an interval that
  ends before the next release with a greater minor or major number (`Comparator.releases`). The
  releases that pass a comparison are those in its set (`Comparator.allows_iff_mem`). What stands
  between two commas spells a comparison or is blank, and the releases in a range are those in the
  sets of all the comparisons that are spelled (`Range.allows_iff_spelled`).
-/

namespace LockFit

/-! ## The order of releases -/

namespace ReleaseNumber

/-- The numbers as a triple, of which the first counts most. -/
def triple (n : ReleaseNumber) : ℕ ×ₗ ℕ ×ₗ ℕ := toLex (n.major, toLex (n.minor, n.patch))

variable {a b n t : ReleaseNumber}

theorem triple_inj : a.triple = b.triple ↔ a = b := by
  cases a
  cases b
  simp [triple]

theorem before_iff : a.before b = true ↔ a.triple < b.triple := by
  simp only [before, triple, Prod.Lex.toLex_lt_toLex, Bool.or_eq_true, Bool.and_eq_true,
    decide_eq_true_eq]

theorem atMost_iff : a.atMost b = true ↔ a.triple ≤ b.triple := by
  rw [atMost, Bool.not_eq_true', ← Bool.not_eq_true, before_iff, not_lt]

/-- The first release with the same major number. -/
def majorStart (t : ReleaseNumber) : ReleaseNumber := ⟨t.major, 0, 0⟩

/-- The first release with a greater major number. -/
def nextMajor (t : ReleaseNumber) : ReleaseNumber := ⟨t.major + 1, 0, 0⟩

/-- The first release with the same major and a greater minor number. -/
def nextMinor (t : ReleaseNumber) : ReleaseNumber := ⟨t.major, t.minor + 1, 0⟩

/-! ## Intervals -/

theorem mem_Ico_nextMajor :
    n.triple ∈ Set.Ico t.triple t.nextMajor.triple ↔ n.major = t.major ∧ t.triple ≤ n.triple := by
  simp only [Set.mem_Ico, triple, nextMajor, Prod.Lex.toLex_le_toLex, Prod.Lex.toLex_lt_toLex]
  omega

theorem mem_Ico_nextMinor : n.triple ∈ Set.Ico t.triple t.nextMinor.triple ↔
    n.major = t.major ∧ n.minor = t.minor ∧ t.triple ≤ n.triple := by
  simp only [Set.mem_Ico, triple, nextMinor, Prod.Lex.toLex_le_toLex, Prod.Lex.toLex_lt_toLex]
  omega

theorem mem_Ico_major :
    n.triple ∈ Set.Ico t.majorStart.triple t.nextMajor.triple ↔ n.major = t.major := by
  simp only [Set.mem_Ico, triple, majorStart, nextMajor, Prod.Lex.toLex_le_toLex,
    Prod.Lex.toLex_lt_toLex]
  omega

end ReleaseNumber

/-! ## Comparisons -/

namespace Comparator

/-- The releases that a comparison denotes. Below 1.0.0 a caret keeps the minor number, if one is
    written, and a tilde does so everywhere; otherwise both keep the major number. -/
def releases (c : Comparator) : Set (ℕ ×ₗ ℕ ×ₗ ℕ) :=
  let t := c.target
  match c.op with
  | .equal => {t.triple}
  | .unequal => {t.triple}ᶜ
  | .atLeast => Set.Ici t.triple
  | .atMost => Set.Iic t.triple
  | .above => Set.Ioi t.triple
  | .below => Set.Iio t.triple
  | .caret =>
    if t.major = 0 ∧ c.minorGiven then Set.Ico t.triple t.nextMinor.triple
    else Set.Ico t.triple t.nextMajor.triple
  | .tilde =>
    if c.minorGiven then Set.Ico t.triple t.nextMinor.triple
    else Set.Ico t.majorStart.triple t.nextMajor.triple

variable {c : Comparator} {n : ReleaseNumber}

/-- The caret keeps the major number, and below 1.0.0 a minor number that is written. -/
theorem allows_caret (h : c.op = .caret) : c.allows n = true ↔
    n.major = c.target.major ∧ c.target.triple ≤ n.triple ∧
      (c.target.major = 0 ∧ c.minorGiven = true → n.minor = c.target.minor) := by
  rw [allows, h]
  simp only [Bool.and_eq_true, Bool.or_eq_true, Bool.not_eq_true', ← Bool.not_eq_true,
    decide_eq_true_eq, ReleaseNumber.atMost_iff, and_assoc, ← imp_iff_not_or]

/-- The tilde keeps the major number and a minor number that is written. -/
theorem allows_tilde (h : c.op = .tilde) : c.allows n = true ↔
    n.major = c.target.major ∧
      (c.minorGiven = true → n.minor = c.target.minor ∧ c.target.triple ≤ n.triple) := by
  rw [allows, h]
  simp only [Bool.and_eq_true, Bool.or_eq_true, Bool.not_eq_true', ← Bool.not_eq_true,
    decide_eq_true_eq, ReleaseNumber.atMost_iff, ← imp_iff_not_or]

/-- A release passes a comparison exactly if it is one of those that the comparison denotes. -/
theorem allows_iff_mem : c.allows n = true ↔ n.triple ∈ c.releases := by
  cases hop : c.op with
  | equal => simp [allows, releases, hop, ReleaseNumber.triple_inj]
  | unequal => simp [allows, releases, hop, ReleaseNumber.triple_inj]
  | atLeast => simp [allows, releases, hop, ReleaseNumber.atMost_iff]
  | atMost => simp [allows, releases, hop, ReleaseNumber.atMost_iff]
  | above => simp [allows, releases, hop, ReleaseNumber.before_iff]
  | below => simp [allows, releases, hop, ReleaseNumber.before_iff]
  | caret =>
    rw [allows_caret hop, releases, hop]
    dsimp only
    split
    · rename_i hminor
      rw [ReleaseNumber.mem_Ico_nextMinor, imp_iff_right hminor]
      exact and_congr_right fun _ => and_comm
    · rename_i hmajor
      rw [ReleaseNumber.mem_Ico_nextMajor]
      exact and_congr_right fun _ => and_iff_left fun h => absurd h hmajor
  | tilde =>
    rw [allows_tilde hop, releases, hop]
    dsimp only
    split
    · rename_i hgiven
      rw [ReleaseNumber.mem_Ico_nextMinor, imp_iff_right hgiven]
    · rename_i hleft
      rw [ReleaseNumber.mem_Ico_major]
      exact and_iff_left fun h => absurd h hleft

end Comparator

/-! ## Ranges -/

namespace Range

open Text Comparator

/-- Of a piece that is read, the releases that pass are those that its spelling denotes. -/
theorem readPiece_allows_iff {p : List Code} (h : ∃ c, readPiece p = .ok c) {n : ReleaseNumber} :
    (∃ c, readPiece p = .ok c ∧ c.allows n = true) ↔
      ∃ s : Spelling, s.chars = p ∧ n.triple ∈ s.comparator.releases := by
  obtain ⟨reading, hreading, hshort⟩ := readPiece_isOk.1 h
  obtain ⟨s, rfl, rfl⟩ := readChars_eq_some.1 hreading
  have hread : readPiece s.chars = .ok s.comparator :=
    Spelling.readPiece_chars (Spelling.isShort_reading.1 hshort)
  constructor
  · rintro ⟨c, hc, hn⟩
    obtain rfl : s.comparator = c := Except.ok.inj (hread.symm.trans hc)
    exact ⟨s, rfl, allows_iff_mem.1 hn⟩
  · rintro ⟨t, ht, hn⟩
    obtain rfl := Spelling.chars_inj ht
    exact ⟨_, hread, allows_iff_mem.2 hn⟩

theorem forall_mem_pieces {raw : Text} {P : List Code → Prop} :
    (∀ p ∈ pieces raw, P p) ↔
      ∀ part ∈ raw.toList.splitOn (Code.scalar ','), trimChars part = [] ∨ P (trimChars part) := by
  simp [pieces, splitChars_eq_splitOn, List.mem_filter, or_iff_not_imp_left]

/-- A release is in a range exactly if the range is a star, or each part between commas is blank or
    spells a comparison that denotes the release. -/
theorem allows_iff_spelled {r : Range} {n : ReleaseNumber} : r.allows n = true ↔
    trim r.raw = "*" ∨ ∀ part ∈ r.raw.toList.splitOn (Code.scalar ','), trimChars part = [] ∨
      ∃ s : Spelling, s.chars = trimChars part ∧ n.triple ∈ s.comparator.releases := by
  rw [trim_eq_star, allows_iff_pieces]
  by_cases hstar : trimChars r.raw.toList = [Code.scalar '*']
  · simp [hstar]
  · rw [or_iff_right hstar, or_iff_right hstar]
    have hread := ((ofText_isOk_of_ne_star hstar).1 ⟨r, ofText_eq_ok.2 rfl⟩).2
    exact (forall₂_congr fun p hp => readPiece_allows_iff (hread p hp)).trans forall_mem_pieces

end Range

/-- **What a range allows.** Of the tags whose numbers can be read, a range allows those whose
    numbers lie in the sets of all comparisons that are spelled between its commas, and all of them
    if it is a star. It allows no branch and no other revision. -/
theorem Constraint.range_allows (r : Range) (v : Version) :
    (∀ n, v.number? = some (.ok n) → ∃ allowed, (Constraint.range r).allows v = .ok allowed ∧
      (allowed = true ↔ Text.trim r.raw = "*" ∨
        ∀ part ∈ r.raw.toList.splitOn (Code.scalar ','), Text.trimChars part = [] ∨
          ∃ s : Comparator.Spelling, s.chars = Text.trimChars part ∧
            n.triple ∈ s.comparator.releases)) ∧
    (v.kind = .branch ∨ v.kind = .revision → (Constraint.range r).allows v = .ok false) := by
  constructor
  · intro n hn
    refine ⟨r.allows n, ?_, Range.allows_iff_spelled⟩
    rw [allows, hn]
    rfl
  · intro hkind
    have hnone : v.number? = Option.none := by
      unfold Version.number? Version.reading?
      rcases hkind with hkind | hkind
      · rw [hkind, Option.map_none]
      · rw [hkind, Option.map_none]
    rw [allows, hnone]

end LockFit
