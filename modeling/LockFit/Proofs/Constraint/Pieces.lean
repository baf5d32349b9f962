import LockFit.Constraint.Range
import LockFit.Proofs.Outcome

/-
  A range is its pieces.
  A range keeps the comparisons that were read when it was made. They are what its pieces are read
  as, one comparison for each piece in order (`forall₂_pieces`), so a release is in the range
  exactly if every piece is read as a comparison that it passes (`allows_iff_pieces`). The pieces
  may as well be read again for every release, up to the first one that shuts it out
  (`allowsAgain`): no piece fails to be read then, and the answer is the same
  (`allowsAgain_eq_allows`).
-/

namespace LockFit.Range

open Text

/-! ## What was read -/

theorem ofText_isOk {raw : Text} :
    (∃ r, ofText raw = .ok r) ↔ ∃ cs, readComparators raw = .ok cs := by
  unfold ofText
  split
  · rename_i cs hread
    simp [hread]
  · rename_i e hread
    simp [hread]

/-- A range keeps the text that it is made from. -/
theorem ofText_raw {raw : Text} {r : Range} (h : ofText raw = .ok r) : r.raw = raw := by
  unfold ofText at h
  split at h
  · rw [← Except.ok.inj h]
  · cases h

/-- Exactly the texts that are accepted are the texts of ranges. -/
theorem ofText_eq_ok {raw : Text} {r : Range} : ofText raw = .ok r ↔ r.raw = raw := by
  constructor
  · exact ofText_raw
  · intro h
    have hread : readComparators raw = .ok r.comparators := by
      rw [← h]
      exact r.reads
    obtain ⟨s, hs⟩ := ofText_isOk.2 ⟨_, hread⟩
    rw [hs, eq_of_raw ((ofText_raw hs).trans h.symm)]

/-- No comma is a blank. -/
theorem comma_notMem_of_blank {cs : List Code} (h : ∀ c ∈ cs, isBlank c = true) :
    Code.scalar ',' ∉ cs :=
  fun hc => absurd (h ',' hc) (by decide)

theorem trim_eq_star {raw : Text} : trim raw = "*" ↔ trimChars raw.toList = [Code.scalar '*'] := by
  rw [← Text.toList_inj, toList_trim]
  rfl

/-- A text other than the star makes a range exactly if it has a piece and every piece is read. -/
theorem readComparators_eq_ok {raw : Text} (h : trimChars raw.toList ≠ [Code.scalar '*'])
    {cs : List Comparator} : readComparators raw = .ok cs ↔
      pieces raw ≠ [] ∧ List.Forall₂ (fun p c => readPiece p = .ok c) (pieces raw) cs := by
  rw [readComparators, if_neg h]
  split
  · rename_i hnil
    simp [hnil]
  · rename_i hne
    simp [hne, mapM_eq_ok]

/-- The same for the range that is made. -/
theorem ofText_isOk_of_ne_star {raw : Text} (h : trimChars raw.toList ≠ [Code.scalar '*']) :
    (∃ r, ofText raw = .ok r) ↔ pieces raw ≠ [] ∧ ∀ p ∈ pieces raw, ∃ c, readPiece p = .ok c := by
  rw [ofText_isOk]
  simp only [readComparators_eq_ok h, ← mapM_eq_ok, exists_and_left, mapM_isOk]

variable {r : Range}

theorem comparators_of_star (h : trimChars r.raw.toList = [Code.scalar '*']) :
    r.comparators = [] := by
  have hreads := r.reads
  rw [readComparators, if_pos h] at hreads
  exact (Except.ok.inj hreads).symm

theorem forall₂_pieces (h : trimChars r.raw.toList ≠ [Code.scalar '*']) :
    List.Forall₂ (fun p c => readPiece p = .ok c) (pieces r.raw) r.comparators :=
  ((readComparators_eq_ok h).1 r.reads).2

/-! ## Releases in a range -/

theorem all_iff_forall_pieces {ps : List (List Code)} {cs : List Comparator}
    (h : List.Forall₂ (fun p c => readPiece p = .ok c) ps cs) (n : ReleaseNumber) :
    (cs.all fun c => c.allows n) = true ↔
      ∀ p ∈ ps, ∃ c, readPiece p = .ok c ∧ c.allows n = true := by
  induction h with
  | nil => simp
  | cons hread _ ih => simp [hread, ih]

/-- A release is in a range exactly if every piece is read as a comparison that it passes. -/
theorem allows_iff_pieces {n : ReleaseNumber} : r.allows n = true ↔
    trimChars r.raw.toList = [Code.scalar '*'] ∨
      ∀ p ∈ pieces r.raw, ∃ c, readPiece p = .ok c ∧ c.allows n = true := by
  by_cases hstar : trimChars r.raw.toList = [Code.scalar '*']
  · simp [allows, comparators_of_star hstar, hstar]
  · rw [or_iff_right hstar, allows, all_iff_forall_pieces (forall₂_pieces hstar)]

/-- The answer of pieces that are read one after the other, up to the first one that shuts the
    release out. -/
def admits (n : ReleaseNumber) : List (List Code) → Except ConstraintError Bool
  | [] => .ok true
  | p :: ps => do
    let c ← readPiece p
    if c.allows n then admits n ps else return false

/-- The answer of a range that is read again for the release. -/
def allowsAgain (raw : Text) (n : ReleaseNumber) : Except ConstraintError Bool :=
  if trimChars raw.toList = [Code.scalar '*'] then .ok true else admits n (pieces raw)

theorem admits_eq_all {ps : List (List Code)} {cs : List Comparator}
    (h : List.Forall₂ (fun p c => readPiece p = .ok c) ps cs) (n : ReleaseNumber) :
    admits n ps = .ok (cs.all fun c => c.allows n) := by
  induction h with
  | nil => rfl
  | @cons p c ps cs hread _ ih =>
    rw [admits, hread, List.all_cons]
    change (if c.allows n then admits n ps else .ok false) = _
    cases c.allows n with
    | true => rw [if_pos rfl, ih, Bool.true_and]
    | false => rw [if_neg Bool.false_ne_true, Bool.false_and]

/-- Reading a range again never fails and does not change its answer. -/
theorem allowsAgain_eq_allows (r : Range) (n : ReleaseNumber) :
    allowsAgain r.raw n = .ok (r.allows n) := by
  rw [allowsAgain, allows]
  split
  · rename_i hstar
    rw [comparators_of_star hstar, List.all_nil]
  · rename_i hstar
    exact admits_eq_all (forall₂_pieces hstar) n

end LockFit.Range
