import LockFit.Constraint.Basic
import LockFit.Proofs.Outcome

/-
  When a rule has an answer for a version.
  A rule reads the numbers of a version, or of two, and fails when one of them has too many digits.
  `allows_isOk` says when: a range needs the numbers of every tag that it is held against, a pinned
  tag those of the other tag and its own, and no other rule reads any. A version is accepted
  without reading its numbers, so there are versions for which rules have no answer
  (`Version.number?_tooLong`).
-/

namespace LockFit

open Text

/-! ## Numbers of a tag -/

/-- None of the numbers has too many digits. -/
def Semver.Reading.IsShort (r : Semver.Reading) : Prop :=
  r.major.length ≤ digitLimit ∧ r.minor.length ≤ digitLimit ∧ r.patch.length ≤ digitLimit

theorem readNumeral_isOk {digits : List Code} :
    (∃ n, readNumeral digits = .ok n) ↔ digits.length ≤ digitLimit := by
  unfold readNumeral
  split
  · simp [*]
  · simp [*]

theorem Semver.Reading.number_isOk {r : Semver.Reading} :
    (∃ n, r.number = .ok n) ↔ r.IsShort := by
  rw [IsShort, ← readNumeral_isOk, ← readNumeral_isOk, ← readNumeral_isOk]
  simp only [number, bind_isOk, pure, Except.pure, Except.ok.injEq, exists_eq', and_true,
    exists_and_right]

theorem Semver.Reading.identity_isOk {r : Semver.Reading} :
    (∃ i, r.identity = .ok i) ↔ r.IsShort := by
  rw [← number_isOk]
  simp only [identity, bind_isOk, pure, Except.pure, Except.ok.injEq, exists_eq', and_true]

/-- The numbers of the version can be read; a version that is no tag has none. -/
def Version.IsReadable (v : Version) : Prop := ∀ r, v.reading? = some r → r.IsShort

/-! ## Rules -/

namespace Constraint

/-- The numbers that the rule compares for the version can be read. -/
def Answers (rule : Constraint) (v : Version) : Prop :=
  match rule with
  | .exact wanted =>
    v.kind = .semver → wanted.kind = .semver → v.IsReadable ∧ wanted.IsReadable
  | .range _ => v.IsReadable
  | .branch _ | .any | .none => True

theorem sameVersion_isOk {wanted found : Version} :
    (∃ b, sameVersion wanted found = .ok b) ↔ (Constraint.exact wanted).Answers found := by
  have htag (v : Version) : v.kind = .semver ↔ ∃ r, v.reading? = some r := by
    rw [← v.reading?_isSome, Option.isSome_iff_exists]
  simp only [sameVersion, Answers, Version.identity?, Version.IsReadable, htag]
  cases found.reading? with
  | none => simp
  | some f =>
    cases wanted.reading? with
    | none => simp
    | some w =>
      simp only [Option.map_some, bind_isOk, pure, Except.pure, Except.ok.injEq, Option.some.injEq,
        exists_eq', forall_eq', forall_const, and_true, exists_and_right,
        ← Semver.Reading.identity_isOk]

/-- A rule has an answer for a version exactly if it can read the numbers that it compares. -/
theorem allows_isOk (rule : Constraint) (v : Version) :
    (∃ b, rule.allows v = .ok b) ↔ rule.Answers v := by
  cases rule with
  | exact wanted => exact sameVersion_isOk
  | range interval =>
    simp only [allows, Answers, Version.number?, Version.IsReadable]
    cases v.reading? with
    | none => simp
    | some r =>
      simp only [Option.map_some, bind_isOk, pure, Except.pure, Except.ok.injEq, Option.some.injEq,
        exists_eq', forall_eq', and_true, ← Semver.Reading.number_isOk]
  | branch name => simp [allows, Answers]
  | any => simp [allows, Answers]
  | none => simp [allows, Answers]

end Constraint

/-! ## A tag that is accepted and cannot be read -/

/-- So many ones. -/
def Semver.ones (n : Nat) : List Code := List.replicate n '1'

/-- A release whose patch number is written with one more than so many ones. -/
def Semver.onesText (n : Nat) : List Code := '1' :: '.' :: '0' :: '.' :: ones (n + 1)

theorem Semver.trimChars_onesText (n : Nat) : trimChars (onesText n) = onesText n := by
  have hstart : (onesText n).dropWhile isBlank = onesText n :=
    List.dropWhile_cons_of_neg (by decide)
  have hreverse : (onesText n).reverse =
      Code.scalar '1' :: (ones n ++ [Code.scalar '.', '0', '.', '1']) := by
    calc (onesText n).reverse
        = ([Code.scalar '1', '.', '0', '.'] ++ ones (n + 1)).reverse := rfl
      _ = (ones (n + 1)).reverse ++ [Code.scalar '.', '0', '.', '1'] := List.reverse_append
      _ = _ := by rw [ones, List.reverse_replicate, List.replicate_succ, List.cons_append, ones]
  rw [trimChars, hstart, dropEndWhile, hreverse, List.dropWhile_cons_of_neg (by decide), ← hreverse,
    List.reverse_reverse]

theorem Semver.takeNumber_ones (n : Nat) : takeNumber (ones (n + 1)) = some (ones (n + 1), []) := by
  have hone : isDigit '1' = true := by decide
  simp [ones, List.replicate_succ, takeNumber, isAsciiNonzero, hone]

theorem Semver.read?_onesText (n : Nat) : Semver.read? (Text.ofList (onesText n)) =
    some ⟨[Code.scalar '1'], [Code.scalar '0'], ones (n + 1), none, none⟩ := by
  have hmajor (cs : List Code) :
      takeNumber (.scalar '1' :: .scalar '.' :: cs) =
        some ([Code.scalar '1'], .scalar '.' :: cs) := by
    have hdot : isDigit '.' = false := by decide
    simp [takeNumber, isAsciiNonzero, hdot]
  have hminor (cs : List Code) : takeNumber (.scalar '0' :: cs) =
      some ([Code.scalar '0'], cs) := rfl
  have hmark (cs : List Code) : dropMark (.scalar '1' :: cs) = .scalar '1' :: cs := rfl
  have hdot (cs : List Code) : afterDot (.scalar '.' :: cs) = some cs := rfl
  have htags : takeTags [] = some (none, none) := rfl
  rw [read?, Text.toList_ofList, trimChars_onesText, onesText, readChars]
  simp only [hmark, hmajor, hminor, takeNumber_ones, hdot, htags, Option.bind_eq_bind,
    Option.bind_some, Option.pure_def]

/-- A tag whose last number has one digit more than are read. -/
def Version.tooLong : Version :=
  ⟨Text.ofList (Semver.onesText digitLimit), .semver, fun _ => by
    rw [Semver.accepts, Semver.read?_onesText]
    rfl⟩

theorem Version.number?_tooLong : tooLong.number? = some (.error ⟨4301⟩) := by
  have hlength : (Semver.ones (digitLimit + 1)).length = 4301 := by
    rw [Semver.ones, List.length_replicate]
    rfl
  have hpatch : readNumeral (Semver.ones (digitLimit + 1)) = .error ⟨4301⟩ := by
    rw [readNumeral, hlength]
    rfl
  have hreading : tooLong.reading? =
      some ⟨[Code.scalar '1'], [Code.scalar '0'], Semver.ones (digitLimit + 1), none, none⟩ :=
    Semver.read?_onesText digitLimit
  rw [number?, hreading, Option.map_some, Semver.Reading.number, hpatch]
  rfl

end LockFit
