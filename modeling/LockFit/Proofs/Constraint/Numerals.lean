import LockFit.Proofs.Constraint.Answers
import LockFit.Proofs.Constraint.Forms
import LockFit.Proofs.Constraint.Pieces

/-
  Rules with a number that is too long to be read.
  A text is read as a range piece by piece, and the first piece that is no comparison, or whose
  numbers cannot be read, decides how that ends. `Range.Overlong` says that a number does: the piece
  is a well-formed comparison, and so are the pieces before it, with numbers that can be read. It
  is the only way in which a text fails to be a rule without being malformed
  (`Constraint.ofText_failsWith_numeral`), since a text in another form does not start with a
  comparison (`Range.StartsWithComparison.isPlain`).
-/

namespace LockFit

open Text

/-- The failure is that of a numeral and says nothing against the form of the text. -/
def ConstraintError.IsNumeral (e : ConstraintError) : Prop := ∃ cause, e = .numeral cause

/-! ## One comparison -/

namespace Comparator

/-- None of the numbers has too many digits. -/
def Reading.IsShort (r : Reading) : Prop :=
  r.major.length ≤ digitLimit ∧ (r.minor.getD ['0']).length ≤ digitLimit ∧
    (r.patch.getD ['0']).length ≤ digitLimit

theorem Reading.comparator_isOk {r : Reading} : (∃ c, r.comparator = .ok c) ↔ r.IsShort := by
  rw [IsShort, ← readNumeral_isOk, ← readNumeral_isOk, ← readNumeral_isOk]
  simp only [comparator, bind_isOk, pure, Except.pure, Except.ok.injEq, exists_eq', and_true,
    exists_and_right]

/-- A comparison starts with the first character of an operator. -/
theorem readChars_eq_none {c : Code} (h : c ∉ [Code.scalar '=', '!', '>', '<', '^', '~'])
    (cs : List Code) : readChars (c :: cs) = none := by
  have hnone : takeOperator (c :: cs) = none := by
    simp only [List.mem_cons, List.not_mem_nil, or_false, not_or] at h
    unfold takeOperator
    split <;> simp_all
  rw [readChars, hnone]
  rfl

end Comparator

/-! ## The pieces of a range -/

namespace Range

open Comparator

theorem readPiece_isOk {piece : List Code} :
    (∃ c, readPiece piece = .ok c) ↔ ∃ r, readChars piece = some r ∧ r.IsShort := by
  rw [readPiece]
  cases readChars piece with
  | none => simp
  | some r =>
    simp only [Option.some.injEq, exists_eq_left', ← Reading.comparator_isOk]
    cases r.comparator with
    | ok c => simp
    | error e => simp

theorem readPiece_failsWith_numeral {piece : List Code} :
    FailsWith ConstraintError.IsNumeral (readPiece piece) ↔
      ∃ r, readChars piece = some r ∧ ¬ r.IsShort := by
  rw [readPiece]
  cases readChars piece with
  | none => simp [ConstraintError.IsNumeral]
  | some r =>
    simp only [Option.some.injEq, exists_eq_left', ← Reading.comparator_isOk]
    cases r.comparator with
    | ok c => simp
    | error e => simp [ConstraintError.IsNumeral]

/-- Some piece is a comparison with a number of too many digits, and all pieces before it are
    comparisons with numbers that can be read. -/
def Overlong (raw : Text) : Prop :=
  ∃ before piece after, pieces raw = before ++ piece :: after ∧
    (∀ b ∈ before, ∃ r, readChars b = some r ∧ r.IsShort) ∧
    ∃ r, readChars piece = some r ∧ ¬ r.IsShort

/-- The first piece is a comparison, whether or not its numbers can be read. -/
def StartsWithComparison (raw : Text) : Prop :=
  ∃ first rest, pieces raw = first :: rest ∧ readChars first ≠ none

theorem Overlong.startsWithComparison {raw : Text} (h : Overlong raw) :
    StartsWithComparison raw := by
  obtain ⟨before, piece, after, hpieces, hbefore, r, hr, -⟩ := h
  cases before with
  | nil => exact ⟨piece, after, hpieces, by simp [hr]⟩
  | cons b before =>
    obtain ⟨s, hs, -⟩ := hbefore b List.mem_cons_self
    exact ⟨b, before ++ piece :: after, hpieces, by simp [hs]⟩

/-- So it is in a text that makes a range and is no star. -/
theorem startsWithComparison {r : Range} (h : trimChars r.raw.toList ≠ [Code.scalar '*']) :
    StartsWithComparison r.raw := by
  obtain ⟨hne, hread⟩ := (readComparators_eq_ok h).1 r.reads
  obtain ⟨first, rest, hpieces⟩ := List.exists_cons_of_ne_nil hne
  rw [hpieces, List.forall₂_cons_left_iff] at hread
  obtain ⟨c, cs, hfirst, -, -⟩ := hread
  obtain ⟨reading, hreading, -⟩ := readPiece_isOk.1 ⟨c, hfirst⟩
  exact ⟨first, rest, hpieces, by simp [hreading]⟩

theorem trimChars_cons {c : Code} (h : isBlank c = false) (cs : List Code) :
    ∃ tail, trimChars (c :: cs) = c :: tail := by
  have hstart : (c :: cs).dropWhile isBlank = c :: cs :=
    List.dropWhile_cons_of_neg (by simp [h])
  have hprefix := dropEndWhile_prefix isBlank (c :: cs)
  have hne : dropEndWhile isBlank (c :: cs) ≠ [] := by
    intro hnil
    rw [dropEndWhile, List.reverse_eq_nil_iff, List.dropWhile_eq_nil_iff] at hnil
    exact absurd (hnil c (by simp)) (by simp [h])
  rw [trimChars, hstart]
  obtain ⟨d, tail, htail⟩ := List.exists_cons_of_ne_nil hne
  rw [htail] at hprefix
  obtain rfl : d = c := (List.cons_prefix_cons.1 hprefix).1
  exact ⟨tail, htail⟩

/-- A text that starts with neither a blank nor a comma has a first piece with that start. -/
theorem pieces_cons {raw : Text} {c : Code} {cs : List Code} (h : raw.toList = c :: cs)
    (hcomma : c ≠ ',') (hblank : isBlank c = false) :
    ∃ tail rest, pieces raw = (c :: tail) :: rest := by
  obtain ⟨piece, more, -, hsplit⟩ := exists_splitOn_cons cs hcomma
  obtain ⟨tail, htail⟩ := trimChars_cons hblank piece
  refine ⟨tail, (more.map trimChars).filter fun piece => !piece.isEmpty, ?_⟩
  rw [pieces, splitChars_eq_splitOn, h, hsplit, List.map_cons, htail]
  exact List.filter_cons_of_pos rfl

/-- A text without commas has one piece. -/
theorem pieces_of_comma {raw : Text} (hcomma : Code.scalar ',' ∉ raw.toList)
    (hne : trimChars raw.toList ≠ []) : pieces raw = [trimChars raw.toList] := by
  rw [pieces, splitChars_eq_splitOn, List.splitOn_eq_singleton hcomma, List.map_singleton]
  exact List.filter_cons_of_pos (by simpa using hne)

/-- No comparison comes first where another character does. -/
theorem not_startsWithComparison {raw : Text} {c : Code} {cs : List Code}
    (h : raw.toList = c :: cs) (hcomma : c ≠ ',') (hblank : isBlank c = false)
    (hstart : c ∉ [Code.scalar '=', '!', '>', '<', '^', '~']) : ¬ StartsWithComparison raw := by
  intro hcomparison
  obtain ⟨tail, rest, hpieces⟩ := pieces_cons h hcomma hblank
  obtain ⟨first, more, hfirst, hread⟩ := hcomparison
  obtain ⟨rfl, -⟩ := List.cons_eq_cons.1 (hpieces.symm.trans hfirst)
  exact hread (readChars_eq_none hstart tail)

/-- A range that does not stand for all releases fails with a numeral exactly if it is overlong. -/
theorem ofText_failsWith_numeral {raw : Text} (hstar : trimChars raw.toList ≠ [Code.scalar '*']) :
    FailsWith ConstraintError.IsNumeral (ofText raw) ↔ Overlong raw := by
  have hread : FailsWith ConstraintError.IsNumeral (ofText raw) ↔
      FailsWith ConstraintError.IsNumeral (readComparators raw) := by
    unfold ofText
    split
    · rename_i h
      simp [h]
    · rename_i h
      simp [h]
  rw [hread, readComparators, if_neg hstar]
  split
  · rename_i hnil
    simp [Overlong, hnil, ConstraintError.IsNumeral]
  · rw [failsWith_mapM]
    simp only [readPiece_isOk, readPiece_failsWith_numeral]
    rfl

end Range

/-! ## Rules of other forms -/

namespace Range

variable {rule : Text}

/-- A trimmed text that starts with a comparison begins with a comma or with an operator. -/
theorem StartsWithComparison.head (h : StartsWithComparison rule) (htrim : trim rule = rule) :
    ∃ c cs, rule.toList = c :: cs ∧ c ∈ [Code.scalar ',', '=', '!', '>', '<', '^', '~'] := by
  cases hchars : rule.toList with
  | nil =>
    obtain ⟨first, rest, hpieces, -⟩ := h
    have hempty : rule = "" := Text.toList_inj.1 hchars
    rw [hempty] at hpieces
    cases hpieces
  | cons c cs =>
    refine ⟨c, cs, rfl, ?_⟩
    by_contra hother
    obtain ⟨hcomma, hstart⟩ : c ≠ ',' ∧ c ∉ [Code.scalar '=', '!', '>', '<', '^', '~'] := by
      rwa [List.mem_cons, not_or] at hother
    have hhead : c ∈ (trimChars rule.toList).head? := by
      rw [← toList_trim, htrim, hchars]
      rfl
    exact not_startsWithComparison hchars hcomma (head?_trimChars c hhead) hstart h

/-- So it is in none of the other forms. A lone `!` begins with an operator but is no comparison. -/
theorem StartsWithComparison.isPlain (h : StartsWithComparison rule) (htrim : trim rule = rule) :
    Constraint.IsPlain rule := by
  obtain ⟨c, cs, hchars, hc⟩ := h.head htrim
  have hmem {d : Code} {ds : List Code} (hother : rule.toList = d :: ds) :
      d ∈ [Code.scalar ',', '=', '!', '>', '<', '^', '~'] := by
    obtain ⟨rfl, -⟩ := List.cons_eq_cons.1 (hchars.symm.trans hother)
    exact hc
  refine ⟨?_, ?_, ?_, ?_, ?_, ?_⟩
  · intro hempty
    rw [hempty] at hchars
    cases hchars
  · intro hstar
    have hhead : rule.toList = .scalar '*' :: [] := by rw [hstar]; rfl
    exact absurd (hmem hhead) (by decide)
  · rintro rfl
    obtain ⟨first, rest, hpieces, hread⟩ := h
    cases hpieces
    exact hread rfl
  · intro rest hbranch
    have hhead : rule.toList = .scalar 'b' :: ("ranch:" ++ rest).toList := by rw [hbranch]; simp
    exact absurd (hmem hhead) (by decide)
  · intro rest hrevision
    have hhead : rule.toList = .scalar 'r' :: ("ev:" ++ rest).toList := by rw [hrevision]; simp
    exact absurd (hmem hhead) (by decide)
  · intro hsemver
    obtain ⟨d, tail, hd, hstarts⟩ := Semver.startsVersion_of_accepts hsemver
    rw [htrim] at hd
    have hall : [Code.scalar ',', '=', '!', '>', '<', '^', '~'].all
        (fun c => !Semver.startsVersion c) = true := by decide
    have hnot := List.all_eq_true.1 hall d (hmem hd)
    rw [hstarts] at hnot
    exact Bool.false_ne_true hnot

end Range

namespace Constraint

variable {text : Text}

/-- No rule of another form fails with a numeral. -/
theorem not_failsWith_numeral (h : ¬ IsPlain (trim text)) :
    ¬ FailsWith ConstraintError.IsNumeral (ofText text) := by
  cases form (trim text) with
  | any hany =>
    rw [ofText_any hany]
    exact not_failsWith_ok
  | none hnone =>
    rw [ofText_none hnone]
    exact not_failsWith_ok
  | branch rest hbranch =>
    rw [ofText_branch hbranch]
    split
    · simp [ConstraintError.IsNumeral]
    · exact not_failsWith_ok
  | revision rest hrevision =>
    rw [ofText_revision hrevision]
    split
    · simp [ConstraintError.IsNumeral]
    · exact not_failsWith_ok
  | tag hsemver =>
    rw [ofText_tag hsemver]
    exact not_failsWith_ok
  | plain hplain => exact absurd hplain h

/-- A rule fails with a numeral exactly if it is an overlong range. -/
theorem ofText_failsWith_numeral (text : Text) :
    FailsWith ConstraintError.IsNumeral (ofText text) ↔ Range.Overlong (trim text) := by
  have htrim : trim (trim text) = trim text := trim_idem text
  by_cases hplain : IsPlain (trim text)
  · rw [ofText_plain hplain, failsWith_map]
    refine Range.ofText_failsWith_numeral fun hstar => hplain.ne_star ?_
    rw [← htrim]
    exact Range.trim_eq_star.2 hstar
  · have hshort : ¬ Range.Overlong (trim text) := fun hlong =>
      hplain (hlong.startsWithComparison.isPlain htrim)
    exact iff_of_false (not_failsWith_numeral hplain) hshort

end Constraint

/-! ## A rule that is overlong -/

namespace Range

/-- A comparison whose only number has one digit more than are read. -/
def caretOnes : List Code := .scalar '^' :: Semver.ones (digitLimit + 1)

theorem trimChars_caretOnes : trimChars caretOnes = caretOnes := by
  refine trimChars_eq_self (fun c hc => ?_) (fun c hc => ?_)
  · rw [← Option.some.inj hc]
    decide
  · have hlast : caretOnes.getLast? = some (.scalar '1') := by
      rw [caretOnes, Semver.ones, List.getLast?_cons, List.getLast?_replicate]
      rfl
    rw [← Option.some.inj (hlast.symm.trans hc)]
    decide

theorem pieces_caretOnes : pieces (Text.ofList caretOnes) = [caretOnes] := by
  have hcomma : Code.scalar ',' ∉ (Text.ofList caretOnes).toList := by
    simp [caretOnes, Semver.ones]
  rw [pieces_of_comma hcomma, Text.toList_ofList, trimChars_caretOnes]
  rw [Text.toList_ofList, trimChars_caretOnes]
  simp [caretOnes]

theorem readChars_caretOnes : Comparator.readChars caretOnes =
    some ⟨.caret, Semver.ones (digitLimit + 1), none, none, none, none⟩ := by
  have hstart : Semver.dropMark ((Semver.ones (digitLimit + 1)).dropWhile isBlank) =
      Semver.ones (digitLimit + 1) := rfl
  rw [Comparator.readChars, caretOnes, Comparator.takeOperator]
  simp only [Option.bind_eq_bind, Option.bind_some, hstart, Semver.takeNumber_ones]
  rfl

theorem overlong_caretOnes : Overlong (trim (Text.ofList caretOnes)) := by
  have htrim : trim (Text.ofList caretOnes) = Text.ofList caretOnes := by
    rw [trim, Text.toList_ofList, trimChars_caretOnes]
  rw [htrim]
  refine ⟨[], caretOnes, [], pieces_caretOnes, by simp, _, readChars_caretOnes, ?_⟩
  intro hshort
  have hmajor := hshort.1
  rw [Semver.ones, List.length_replicate] at hmajor
  exact Nat.not_succ_le_self digitLimit hmajor

end Range

end LockFit
