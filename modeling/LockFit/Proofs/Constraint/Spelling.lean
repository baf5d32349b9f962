import LockFit.Proofs.Constraint.Numerals
import LockFit.Proofs.Version.Numeral

/-
  Comparisons as they are written.
  A comparison is an operator, blanks, the mark of a version, one to three numbers with dots between
  them and the two tags, of which only the operator and the first number have to be there. A
  `Comparator.Spelling` is such a comparison part by part. A text is read as a comparison exactly if
  it is a spelling (`Comparator.readChars_eq_some`), and it is only one (`Spelling.chars_inj`): the
  readers leave no choice, since nothing that may follow a part could also go on with it.
-/

namespace LockFit

open Text Semver

/-! ## Operators -/

/-- An operator as it is written. -/
def Operator.chars : Operator → List Code
  | .equal => ['=', '=']
  | .unequal => ['!', '=']
  | .atLeast => ['>', '=']
  | .atMost => ['<', '=']
  | .above => ['>']
  | .below => ['<']
  | .caret => ['^']
  | .tilde => ['~']

namespace Comparator

/-- An operator is taken in its longest spelling. -/
theorem takeOperator_eq_some {cs rest : List Code} {op : Operator} :
    takeOperator cs = some (op, rest) ↔
      cs = op.chars ++ rest ∧ (op = .above ∨ op = .below → rest.head? ≠ some '=') := by
  constructor
  · intro h
    unfold takeOperator at h
    split at h <;> cases h <;> refine ⟨rfl, ?_⟩
    case h_5 hlong | h_6 hlong =>
      rintro - hhead
      obtain ⟨tail, rfl⟩ := List.head?_eq_some_iff.1 hhead
      exact hlong tail rfl
    all_goals simp
  · rintro ⟨rfl, hnot⟩
    cases op with
    | above | below =>
      cases rest with
      | nil => rfl
      | cons c rest =>
        have hc : c ≠ '=' := fun h => hnot (by simp) (by rw [h]; rfl)
        simp [Operator.chars, takeOperator, hc]
    | _ => rfl

/-! ## Numbers behind the first -/

theorem takeFurther_dot_eq_some {cs rest : List Code} {number : Option (List Code)} :
    takeFurther (.scalar '.' :: cs) = some (number, rest) ↔
      ∃ n, number = some n ∧ takeNumber cs = some (n, rest) := by
  rw [takeFurther, Option.map_eq_some_iff]
  constructor
  · rintro ⟨⟨n, rest'⟩, hn, heq⟩
    obtain ⟨rfl, rfl⟩ := Prod.mk.inj heq
    exact ⟨n, rfl, hn⟩
  · rintro ⟨n, rfl, hn⟩
    exact ⟨_, hn, rfl⟩

/-- A further number stands behind a dot. -/
theorem takeFurther_eq_some {cs rest : List Code} {number : Option (List Code)} :
    takeFurther cs = some (number, rest) ↔ cs = behind '.' number ++ rest ∧
      (∀ n ∈ number, IsNumeral n ∧ (n = [Code.scalar '0'] ∨ NoDigit rest)) ∧
      (number = none → rest.head? ≠ some '.') := by
  by_cases hdot : ∃ tail, cs = .scalar '.' :: tail
  · obtain ⟨tail, rfl⟩ := hdot
    rw [takeFurther_dot_eq_some]
    simp only [takeNumber_eq_some]
    constructor
    · rintro ⟨n, rfl, rfl, hn, hrest⟩
      exact ⟨rfl, by simp [hn, hrest], by simp⟩
    · rintro ⟨heq, hnumber, hrest⟩
      cases number with
      | none =>
        have hhead := hrest rfl
        rw [behind, List.nil_append] at heq
        rw [← heq] at hhead
        exact absurd rfl hhead
      | some n => exact ⟨n, rfl, (List.cons_eq_cons.1 heq).2, hnumber n rfl⟩
  · have hskip : takeFurther cs = some (none, cs) := by
      unfold takeFurther
      split
      · rename_i tail
        exact absurd ⟨tail, rfl⟩ hdot
      · rfl
    rw [hskip, Option.some.injEq, Prod.mk.injEq]
    constructor
    · rintro ⟨rfl, rfl⟩
      refine ⟨rfl, by simp, fun _ hhead => hdot ?_⟩
      obtain ⟨tail, rfl⟩ := List.head?_eq_some_iff.1 hhead
      exact ⟨tail, rfl⟩
    · rintro ⟨heq, -, -⟩
      cases number with
      | none => exact ⟨rfl, heq⟩
      | some n => exact absurd ⟨_, heq⟩ hdot

/-! ## Comparisons -/

/-- The parts of a comparison as it is written, each of its form. -/
@[ext]
structure Spelling where
  op : Operator
  gap : List Code
  marked : Bool
  major : List Code
  minor : Option (List Code)
  patch : Option (List Code)
  preRelease : Option (List Code)
  build : Option (List Code)
  gap_blank : ∀ c ∈ gap, isBlank c = true
  major_numeral : IsNumeral major
  minor_numeral : ∀ n ∈ minor, IsNumeral n
  patch_numeral : ∀ n ∈ patch, IsNumeral n
  minor_of_patch : minor = none → patch = none
  preRelease_tag : ∀ tag ∈ preRelease, IsTag tag
  build_tag : ∀ tag ∈ build, IsTag tag

namespace Spelling

/-- What stands behind the numbers. -/
def tagChars (s : Spelling) : List Code := behind '-' s.preRelease ++ behind '+' s.build

/-- What stands behind the operator, the blanks and the mark. -/
def bodyChars (s : Spelling) : List Code :=
  s.major ++ (behind '.' s.minor ++ (behind '.' s.patch ++ s.tagChars))

/-- The spelling as a text. -/
def chars (s : Spelling) : List Code :=
  s.op.chars ++ (s.gap ++ (markChars s.marked ++ s.bodyChars))

/-- The parts that are read. -/
def reading (s : Spelling) : Reading :=
  ⟨s.op, s.major, s.minor, s.patch, s.preRelease, s.build⟩

/-- What follows the mark starts with a digit from the first number. -/
theorem head?_bodyChars (s : Spelling) :
    ∀ c ∈ s.bodyChars.head?, c ≠ '=' ∧ c ≠ 'v' ∧ isBlank c = false := by
  intro c hc
  have hdigit := s.major_numeral.head?_append _ c hc
  refine ⟨?_, ?_, isBlank_of_isDigit hdigit⟩
  · rintro rfl
    exact absurd hdigit (by decide)
  · rintro rfl
    exact absurd hdigit (by decide)

theorem head?_markChars (s : Spelling) :
    ∀ c ∈ (markChars s.marked ++ s.bodyChars).head?, c ≠ '=' ∧ isBlank c = false := by
  intro c hc
  cases hmarked : s.marked with
  | true =>
    rw [hmarked] at hc
    obtain rfl : 'v' = c := Option.some.inj hc
    decide
  | false =>
    rw [hmarked] at hc
    exact ⟨(s.head?_bodyChars c hc).1, (s.head?_bodyChars c hc).2.2⟩

theorem head?_gap (s : Spelling) :
    (s.gap ++ (markChars s.marked ++ s.bodyChars)).head? ≠ some '=' := by
  intro hc
  cases hgap : s.gap with
  | nil =>
    rw [hgap] at hc
    exact (s.head?_markChars _ hc).1 rfl
  | cons d gap =>
    rw [hgap] at hc
    obtain rfl : d = '=' := Option.some.inj hc
    exact absurd (s.gap_blank '=' (by simp [hgap])) (by decide)

/-- The blanks end where the mark or the first number begins. -/
theorem span_gap (s : Spelling) :
    (s.gap ++ (markChars s.marked ++ s.bodyChars)).takeWhile isBlank = s.gap ∧
      (s.gap ++ (markChars s.marked ++ s.bodyChars)).dropWhile isBlank =
        markChars s.marked ++ s.bodyChars :=
  span_append s.gap_blank fun c hc => (s.head?_markChars c hc).2

theorem noDigit_tagChars (s : Spelling) : NoDigit s.tagChars :=
  noDigit_tags s.preRelease s.build

theorem noDigit_patch (s : Spelling) : NoDigit (behind '.' s.patch ++ s.tagChars) :=
  noDigit_behind (by decide) _ s.noDigit_tagChars

theorem noDigit_minor (s : Spelling) :
    NoDigit (behind '.' s.minor ++ (behind '.' s.patch ++ s.tagChars)) :=
  noDigit_behind (by decide) _ s.noDigit_patch

theorem head?_tagChars (s : Spelling) : s.tagChars.head? ≠ some '.' := by
  rw [tagChars]
  cases s.preRelease with
  | some tag => simp [behind]
  | none =>
    cases s.build with
    | some tag => simp [behind]
    | none => simp [behind]

end Spelling

/-- A patch number is only read behind a minor number. -/
def takePatch (minor : Option (List Code)) (cs : List Code) :
    Option (Option (List Code) × List Code) :=
  if minor.isSome then takeFurther cs else some (none, cs)

theorem readChars_eq_bind (cs : List Code) : readChars cs =
    (takeOperator cs).bind fun o =>
      (takeNumber (dropMark (o.2.dropWhile isBlank))).bind fun major =>
        (takeFurther major.2).bind fun minor =>
          (takePatch minor.1 minor.2).bind fun patch =>
            (takeTags patch.2).bind fun tags =>
              some ⟨o.1, major.1, minor.1, patch.1, tags.1, tags.2⟩ := by
  simp only [readChars, takePatch, Option.bind_eq_bind, Option.pure_def]
  refine congrArg _ (funext fun o => congrArg _ (funext fun major =>
    congrArg _ (funext fun minor => ?_)))
  split <;> rfl

theorem takePatch_eq_some {minor patch : Option (List Code)} {cs rest : List Code} :
    takePatch minor cs = some (patch, rest) ↔ cs = behind '.' patch ++ rest ∧
      (∀ n ∈ patch, IsNumeral n ∧ (n = [Code.scalar '0'] ∨ NoDigit rest)) ∧
      (minor = none → patch = none) ∧ (minor ≠ none → patch = none → rest.head? ≠ some '.') := by
  rw [takePatch]
  cases minor with
  | some n => simp [takeFurther_eq_some]
  | none =>
    rw [if_neg (by simp), Option.some.injEq, Prod.mk.injEq]
    constructor
    · rintro ⟨rfl, rfl⟩
      simp [behind]
    · rintro ⟨rfl, -, hpatch, -⟩
      rw [hpatch rfl]
      exact ⟨rfl, rfl⟩

/-- A text is read as a comparison exactly if it is a spelling, and then as its parts. -/
theorem readChars_eq_some {cs : List Code} {r : Reading} :
    readChars cs = some r ↔ ∃ s : Spelling, s.chars = cs ∧ s.reading = r := by
  rw [readChars_eq_bind]
  simp only [Option.bind_eq_some_iff]
  constructor
  · rintro ⟨⟨op, cs₁⟩, hop, ⟨major, cs₂⟩, hmajor, ⟨minor, cs₃⟩, hminor, ⟨patch, cs₄⟩, hpatch,
      ⟨preRelease, build⟩, htags, heq⟩
    dsimp only at hmajor hminor hpatch htags heq
    obtain rfl := Option.some.inj heq
    -- each reader took a part from the front of what the one before it had left
    obtain ⟨rfl, -⟩ := takeOperator_eq_some.1 hop
    obtain ⟨marked, hmark⟩ := exists_mark (cs₁.dropWhile isBlank)
    obtain ⟨hbody, hnumeral, -⟩ := takeNumber_eq_some.1 hmajor
    obtain ⟨rfl, hminors, -⟩ := takeFurther_eq_some.1 hminor
    obtain ⟨rfl, hpatches, hnone, -⟩ := takePatch_eq_some.1 hpatch
    obtain ⟨rfl, hpre, hbuild⟩ := takeTags_eq_some.1 htags
    have hchars : op.chars ++ (cs₁.takeWhile isBlank ++ (markChars marked ++ (major ++
        (behind '.' minor ++ (behind '.' patch ++
          (behind '-' preRelease ++ behind '+' build)))))) = op.chars ++ cs₁ := by
      rw [← hbody, ← hmark, List.takeWhile_append_dropWhile]
    exact ⟨{ op, gap := cs₁.takeWhile isBlank, marked, major, minor, patch, preRelease, build
             gap_blank := fun c hc => List.mem_takeWhile_imp hc
             major_numeral := hnumeral
             minor_numeral := fun n hn => (hminors n hn).1
             patch_numeral := fun n hn => (hpatches n hn).1
             minor_of_patch := hnone
             preRelease_tag := hpre
             build_tag := hbuild }, hchars, rfl⟩
  · rintro ⟨s, rfl, rfl⟩
    -- each reader stops where its part ends, since the next one starts in another way
    have hmark := dropMark_append s.marked fun c hc => (s.head?_bodyChars c hc).2.1
    have hminor : s.minor = none →
        (behind '.' s.patch ++ s.tagChars).head? ≠ some '.' := by
      intro hnone
      rw [s.minor_of_patch hnone]
      exact s.head?_tagChars
    refine ⟨_, takeOperator_eq_some.2 ⟨rfl, fun _ => s.head?_gap⟩, ?_⟩
    dsimp only
    rw [s.span_gap.2, hmark]
    refine ⟨_, takeNumber_eq_some.2 ⟨rfl, s.major_numeral, Or.inr s.noDigit_minor⟩, ?_⟩
    refine ⟨_, takeFurther_eq_some.2
      ⟨rfl, fun n hn => ⟨s.minor_numeral n hn, Or.inr s.noDigit_patch⟩, hminor⟩, ?_⟩
    refine ⟨_, takePatch_eq_some.2
      ⟨rfl, fun n hn => ⟨s.patch_numeral n hn, Or.inr s.noDigit_tagChars⟩, s.minor_of_patch,
        fun _ _ => s.head?_tagChars⟩, ?_⟩
    exact ⟨_, takeTags_eq_some.2 ⟨rfl, s.preRelease_tag, s.build_tag⟩, rfl⟩

/-! ## One spelling for each text -/

namespace Spelling

theorem readChars_chars (s : Spelling) : readChars s.chars = some s.reading :=
  readChars_eq_some.2 ⟨s, rfl, rfl⟩

/-- A text is spelled in one way only. -/
theorem chars_inj {s t : Spelling} (h : s.chars = t.chars) : s = t := by
  -- a reading forgets the blanks and the mark alone, and these stand in front of equal texts
  have hreading : s.reading = t.reading := by
    rw [← Option.some.injEq, ← s.readChars_chars, ← t.readChars_chars, h]
  obtain ⟨hop, hmajor, hminor, hpatch, hpre, hbuild⟩ := Reading.mk.inj hreading
  have hbody : s.bodyChars = t.bodyChars := by
    rw [bodyChars, bodyChars, tagChars, tagChars, hmajor, hminor, hpatch, hpre, hbuild]
  have hrest : s.gap ++ (markChars s.marked ++ s.bodyChars) =
      t.gap ++ (markChars t.marked ++ t.bodyChars) := by
    rw [chars, chars, hop] at h
    exact List.append_cancel_left h
  have hgap : s.gap = t.gap := by rw [← s.span_gap.1, hrest, t.span_gap.1]
  have hmarked : s.marked = t.marked := by
    rw [hgap, hbody] at hrest
    exact markChars_inj (List.append_cancel_right (List.append_cancel_left hrest))
  exact Spelling.ext hop hgap hmarked hmajor hminor hpatch hpre hbuild

/-- None of the numbers has too many digits. -/
def IsShort (s : Spelling) : Prop :=
  s.major.length ≤ digitLimit ∧ (∀ n ∈ s.minor, n.length ≤ digitLimit) ∧
    ∀ n ∈ s.patch, n.length ≤ digitLimit

theorem isShort_reading {s : Spelling} : s.reading.IsShort ↔ s.IsShort := by
  have hlimit (number : Option (List Code)) :
      (number.getD ['0']).length ≤ digitLimit ↔ ∀ n ∈ number, n.length ≤ digitLimit := by
    cases number with
    | none => simp [digitLimit]
    | some n => simp
  rw [Reading.IsShort, IsShort, ← hlimit, ← hlimit, reading]

/-- The comparison that is meant: the operator, the values of the numbers with zeros for those that
    are left out, and whether there is a second number. -/
def comparator (s : Spelling) : Comparator :=
  ⟨s.op, ⟨decimalValue s.major, (s.minor.map decimalValue).getD 0,
    (s.patch.map decimalValue).getD 0⟩, s.minor.isSome⟩

theorem readNumeral_getD {number : Option (List Code)} (h : ∀ n ∈ number, n.length ≤ digitLimit) :
    readNumeral (number.getD ['0']) = .ok ((number.map decimalValue).getD 0) := by
  cases number with
  | none => rfl
  | some n => exact readNumeral_eq_ok (h n rfl)

/-- A spelling with numbers that can be read is read as the comparison that is meant. -/
theorem readPiece_chars {s : Spelling} (h : s.IsShort) :
    Range.readPiece s.chars = .ok s.comparator := by
  obtain ⟨hmajor, hminor, hpatch⟩ := h
  have hread : s.reading.comparator = .ok s.comparator := by
    rw [Reading.comparator, reading, readNumeral_eq_ok hmajor, readNumeral_getD hminor,
      readNumeral_getD hpatch]
    rfl
  rw [Range.readPiece, s.readChars_chars]
  dsimp only
  rw [hread]

end Spelling

end Comparator

end LockFit
