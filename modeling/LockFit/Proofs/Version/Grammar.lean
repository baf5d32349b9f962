import LockFit.Proofs.Text.Trim
import LockFit.Version.Semver
import Mathlib.Data.List.TakeWhile

/-
  The parts of written versions.
  A number is a lone zero, or a digit from one to nine with digits of any script behind it; a tag is
  made of letters, digits, hyphens and dots. What a reader takes from a text is such a part, and it
  is taken whenever it stands there and cannot go on: `takeNumber_eq_some` and `takeTags_eq_some`
  say both at once. So a text has one way to be taken apart.
-/

namespace LockFit.Semver

open Text

/-! ## Numbers -/

/-- A number as it is written. -/
inductive IsNumeral : List Code → Prop
  | zero : IsNumeral ['0']
  | other {c : Code} {cs : List Code} (hfirst : isAsciiNonzero c = true)
    (hrest : ∀ d ∈ cs, isDigit d = true) : IsNumeral (c :: cs)

/-- The text does not start with a digit. -/
def NoDigit (cs : List Code) : Prop := ∀ c ∈ cs.head?, isDigit c = false

theorem isAsciiNonzero_zero : isAsciiNonzero '0' = false := by decide

theorem span_append {p : Code → Bool} {cs rest : List Code} (h : ∀ c ∈ cs, p c = true)
    (hrest : ∀ c ∈ rest.head?, p c = false) :
    (cs ++ rest).takeWhile p = cs ∧ (cs ++ rest).dropWhile p = rest := by
  have htake : rest.takeWhile p = [] := by
    cases rest with
    | nil => rfl
    | cons c rest => exact List.takeWhile_cons_of_neg (by simp [hrest c rfl])
  rw [List.takeWhile_append_of_pos h, List.dropWhile_append_of_pos h, htake, List.append_nil,
    dropWhile_eq_self hrest]
  exact ⟨rfl, rfl⟩

/-- A number is taken as far as it goes. -/
theorem takeNumber_eq_some {cs n rest : List Code} : takeNumber cs = some (n, rest) ↔
    cs = n ++ rest ∧ IsNumeral n ∧ (n = [Code.scalar '0'] ∨ NoDigit rest) := by
  constructor
  · intro h
    cases cs with
    | nil => cases h
    | cons c cs =>
      rw [takeNumber] at h
      split at h
      · rename_i hzero
        obtain ⟨rfl, rfl⟩ := Prod.mk.inj (Option.some.inj h)
        exact ⟨by rw [hzero]; rfl, .zero, Or.inl rfl⟩
      · split at h
        · rename_i hfirst
          obtain ⟨rfl, rfl⟩ := Prod.mk.inj (Option.some.inj h)
          refine ⟨?_, .other hfirst fun d hd => List.mem_takeWhile_imp hd,
            Or.inr head?_dropWhile⟩
          rw [List.cons_append, List.takeWhile_append_dropWhile]
        · cases h
  · rintro ⟨rfl, hn, hrest⟩
    cases hn with
    | zero => rfl
    | @other c cs hfirst hdigits =>
      have hzero : c ≠ '0' := by
        rintro rfl
        rw [isAsciiNonzero_zero] at hfirst
        cases hfirst
      have hnot : NoDigit rest := hrest.resolve_left fun h => hzero (List.cons_eq_cons.1 h).1
      obtain ⟨htake, hdrop⟩ := span_append hdigits hnot
      rw [List.cons_append, takeNumber, if_neg hzero, if_pos hfirst, htake, hdrop]

theorem noDigit_nil : NoDigit [] := by simp [NoDigit]

/-! ## Parts behind marks -/

/-- A part behind its mark, or nothing. -/
def behind (mark : Code) : Option (List Code) → List Code
  | none => []
  | some part => mark :: part

/-- A mark that is no digit ends a number, and so does what follows if there is no mark. -/
theorem noDigit_behind {mark : Code} (hmark : isDigit mark = false) (part : Option (List Code))
    {rest : List Code} (hrest : NoDigit rest) : NoDigit (behind mark part ++ rest) := by
  cases part with
  | none => exact hrest
  | some part =>
    intro c hc
    rw [← Option.some.inj hc]
    exact hmark

/-- The tags of a version begin with their marks, so they end a number. -/
theorem noDigit_tags (preRelease build : Option (List Code)) :
    NoDigit (behind '-' preRelease ++ behind '+' build) := by
  have hbuild : NoDigit (behind '+' build ++ []) := noDigit_behind (by decide) _ noDigit_nil
  rw [List.append_nil] at hbuild
  exact noDigit_behind (by decide) _ hbuild

/-! ## The mark of a version -/

/-- The mark of a version, or nothing. -/
def markChars (marked : Bool) : List Code := if marked then ['v'] else []

theorem exists_mark (cs : List Code) : ∃ marked, cs = markChars marked ++ dropMark cs := by
  unfold dropMark
  split
  · exact ⟨true, rfl⟩
  · exact ⟨false, rfl⟩

theorem markChars_inj {a b : Bool} (h : markChars a = markChars b) : a = b := by
  cases a with
  | true =>
    cases b with
    | true => rfl
    | false => cases h
  | false =>
    cases b with
    | true => cases h
    | false => rfl

theorem dropMark_append {cs : List Code} (marked : Bool) (h : ∀ c ∈ cs.head?, c ≠ 'v') :
    dropMark (markChars marked ++ cs) = cs := by
  cases marked with
  | true => rfl
  | false =>
    cases cs with
    | nil => rfl
    | cons c cs =>
      change dropMark (c :: cs) = c :: cs
      unfold dropMark
      split
      · rename_i heq
        exact absurd (List.cons_eq_cons.1 heq).1 (h c rfl)
      · rfl

/-! ## Tags -/

/-- A tag as it is written. -/
def IsTag (tag : List Code) : Prop := tag ≠ [] ∧ ∀ c ∈ tag, isTagChar c = true

theorem isTagChar_plus : isTagChar '+' = false := by decide

theorem takeBuild_eq_some {cs : List Code} {build : Option (List Code)} :
    takeBuild cs = some build ↔ cs = behind '+' build ∧ ∀ tag ∈ build, IsTag tag := by
  unfold takeBuild
  split
  · cases build with
    | none => simp [behind]
    | some tag => simp [behind]
  · rename_i tag
    cases build with
    | none => simp [behind]
    | some tag' =>
      simp only [behind, IsTag, Option.mem_some_iff, forall_eq']
      constructor
      · intro h
        split at h
        · rename_i hall
          obtain rfl := Option.some.inj (Option.some.inj h)
          simpa using hall
        · cases h
      · rintro ⟨heq, hne, hall⟩
        obtain rfl := (List.cons_eq_cons.1 heq).2
        exact if_pos (by simpa using ⟨hne, hall⟩)
  · rename_i hnil hplus
    refine iff_of_false (by simp) ?_
    rintro ⟨rfl, -⟩
    cases build with
    | none => exact hnil rfl
    | some tag => exact hplus tag rfl

/-- Build metadata stops a tag in front of it. -/
theorem head?_behind_plus (build : Option (List Code)) :
    ∀ c ∈ (behind '+' build).head?, isTagChar c = false := by
  cases build with
  | none => simp [behind]
  | some tag => simp [behind, isTagChar_plus]

/-- Behind a hyphen stands a tag, which goes on up to the build metadata. -/
theorem takeTags_minus_eq_some {cs : List Code} {preRelease build : Option (List Code)} :
    takeTags ('-' :: cs) = some (preRelease, build) ↔ ∃ tag, preRelease = some tag ∧
      cs = tag ++ behind '+' build ∧ IsTag tag ∧ ∀ t ∈ build, IsTag t := by
  rw [takeTags]
  constructor
  · intro h
    split at h
    · cases h
    · rename_i hne
      obtain ⟨b, hb, heq⟩ := Option.map_eq_some_iff.1 h
      obtain ⟨rfl, rfl⟩ := Prod.mk.inj heq
      obtain ⟨hrest, hbuild⟩ := takeBuild_eq_some.1 hb
      refine ⟨_, rfl, ?_, ⟨by simpa using hne, fun c hc => List.mem_takeWhile_imp hc⟩, hbuild⟩
      rw [← hrest, List.takeWhile_append_dropWhile]
  · rintro ⟨tag, rfl, rfl, ⟨hne, hall⟩, hbuild⟩
    obtain ⟨htake, hdrop⟩ := span_append hall (head?_behind_plus build)
    rw [htake, hdrop, if_neg (by simpa using hne), takeBuild_eq_some.2 ⟨rfl, hbuild⟩]
    rfl

/-- The tags at the end of a text are all that is left of it. -/
theorem takeTags_eq_some {cs : List Code} {preRelease build : Option (List Code)} :
    takeTags cs = some (preRelease, build) ↔
      cs = behind '-' preRelease ++ behind '+' build ∧
      (∀ tag ∈ preRelease, IsTag tag) ∧ ∀ tag ∈ build, IsTag tag := by
  by_cases hminus : ∃ tail, cs = .scalar '-' :: tail
  · obtain ⟨tail, rfl⟩ := hminus
    rw [takeTags_minus_eq_some]
    constructor
    · rintro ⟨tag, rfl, rfl, htag, hbuild⟩
      exact ⟨rfl, by simpa using htag, hbuild⟩
    · rintro ⟨heq, hpre, hbuild⟩
      cases preRelease with
      | none =>
        cases build with
        | none => cases heq
        | some tag => cases heq
      | some tag => exact ⟨tag, rfl, (List.cons_eq_cons.1 heq).2, hpre tag rfl, hbuild⟩
  · have hskip : takeTags cs = (takeBuild cs).map fun build => (none, build) := by
      unfold takeTags
      split
      · rename_i tail
        exact absurd ⟨tail, rfl⟩ hminus
      · rfl
    rw [hskip, Option.map_eq_some_iff]
    constructor
    · rintro ⟨b, hb, heq⟩
      obtain ⟨rfl, rfl⟩ := Prod.mk.inj heq
      obtain ⟨hrest, hbuild⟩ := takeBuild_eq_some.1 hb
      exact ⟨hrest, by simp, hbuild⟩
    · rintro ⟨heq, -, hbuild⟩
      cases preRelease with
      | none => exact ⟨build, takeBuild_eq_some.2 ⟨heq, hbuild⟩, rfl⟩
      | some tag => exact absurd ⟨_, heq⟩ hminus

end LockFit.Semver
