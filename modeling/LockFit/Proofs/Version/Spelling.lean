import LockFit.Proofs.Constraint.Answers
import LockFit.Proofs.Version.Numeral
import LockFit.Version.Basic

/-
  Semantic versions as they are written.
  A `Semver.Spelling` is a version part by part: the mark, three numbers with dots between them and
  the two tags, of which the numbers have to be there. A text is read as a version exactly if it is
  a spelling (`readChars_eq_some`), and it is only one (`Spelling.chars_inj`). The spelling of a tag
  gives its numbers and its release, if they are not too long to be read
  (`Version.number?_eq_ok`, `Version.identity?_eq_ok`).
-/

namespace LockFit

open Text

namespace Semver

/-! ## Characters of versions -/

theorem toNat_of_isTagChar {c : Code} (h : isTagChar c = true) : 45 ≤ c.toNat ∧ c.toNat ≤ 122 := by
  simp only [isTagChar, isAsciiLetter, isAsciiDigit, Bool.or_eq_true, Bool.and_eq_true,
    decide_eq_true_eq] at h
  have hrange : ((97 ≤ c.toNat ∧ c.toNat ≤ 122 ∨ 65 ≤ c.toNat ∧ c.toNat ≤ 90) ∨
      48 ≤ c.toNat ∧ c.toNat ≤ 57) ∨ c.toNat = 45 ∨ c.toNat = 46 := by
    rcases h with (h | rfl) | rfl
    · exact Or.inl h
    · exact Or.inr (Or.inl rfl)
    · exact Or.inr (Or.inr rfl)
  omega

theorem isBlank_of_isTagChar {c : Code} (h : isTagChar c = true) : isBlank c = false := by
  have hrange := toNat_of_isTagChar h
  simp [isBlank, blankRanges, inRanges]
  omega

theorem afterDot_eq_some {cs rest : List Code} :
    afterDot cs = some rest ↔ cs = .scalar '.' :: rest := by
  unfold afterDot
  split
  · simp
  · rename_i hdot
    simpa using hdot rest

/-! ## Versions part by part -/

/-- The parts of a semantic version as it is written, each of its form. -/
@[ext]
structure Spelling where
  marked : Bool
  major : List Code
  minor : List Code
  patch : List Code
  preRelease : Option (List Code)
  build : Option (List Code)
  major_numeral : IsNumeral major
  minor_numeral : IsNumeral minor
  patch_numeral : IsNumeral patch
  preRelease_tag : ∀ tag ∈ preRelease, IsTag tag
  build_tag : ∀ tag ∈ build, IsTag tag

namespace Spelling

/-- The numbers with the dots between them and the pre-release tag. -/
def releaseChars (s : Spelling) : List Code :=
  s.major ++ .scalar '.' :: (s.minor ++ .scalar '.' :: (s.patch ++ behind '-' s.preRelease))

/-- The spelling as a text. -/
def chars (s : Spelling) : List Code :=
  markChars s.marked ++ (s.releaseChars ++ behind '+' s.build)

/-- The parts that are read. -/
def reading (s : Spelling) : Reading := ⟨s.major, s.minor, s.patch, s.preRelease, s.build⟩

theorem releaseChars_append (s : Spelling) (rest : List Code) : s.releaseChars ++ rest =
    s.major ++ .scalar '.' ::
      (s.minor ++ .scalar '.' :: (s.patch ++ (behind '-' s.preRelease ++ rest))) := by
  simp [releaseChars]

/-- What follows the mark starts with a digit, so it is no second mark. -/
theorem head?_releaseChars (s : Spelling) (rest : List Code) :
    ∀ c ∈ (s.releaseChars ++ rest).head?, isDigit c = true := by
  rw [releaseChars_append]
  exact s.major_numeral.head?_append _

theorem dropMark_chars (s : Spelling) :
    dropMark s.chars = s.releaseChars ++ behind '+' s.build := by
  refine dropMark_append s.marked fun c hc => ?_
  rintro rfl
  exact absurd (s.head?_releaseChars _ 'v' hc) (by decide)

end Spelling

theorem readChars_eq_bind (cs : List Code) : readChars cs =
    (takeNumber (dropMark cs)).bind fun major =>
      (afterDot major.2).bind fun cs =>
        (takeNumber cs).bind fun minor =>
          (afterDot minor.2).bind fun cs =>
            (takeNumber cs).bind fun patch =>
              (takeTags patch.2).bind fun tags =>
                some ⟨major.1, minor.1, patch.1, tags.1, tags.2⟩ := rfl

/-- A text is read as a version exactly if it is a spelling, and then as its parts. -/
theorem readChars_eq_some {cs : List Code} {r : Reading} :
    readChars cs = some r ↔ ∃ s : Spelling, s.chars = cs ∧ s.reading = r := by
  rw [readChars_eq_bind]
  simp only [Option.bind_eq_some_iff, afterDot_eq_some]
  constructor
  · rintro ⟨⟨major, cs₁⟩, hmajor, cs₂, rfl, ⟨minor, cs₃⟩, hminor, cs₄, rfl, ⟨patch, cs₅⟩, hpatch,
      ⟨preRelease, build⟩, htags, heq⟩
    dsimp only at hmajor hminor hpatch htags heq
    obtain rfl := Option.some.inj heq
    -- each reader took a part from the front of what the one before it had left
    obtain ⟨marked, hmark⟩ := exists_mark cs
    obtain ⟨hbody, hmajorForm, -⟩ := takeNumber_eq_some.1 hmajor
    obtain ⟨rfl, hminorForm, -⟩ := takeNumber_eq_some.1 hminor
    obtain ⟨rfl, hpatchForm, -⟩ := takeNumber_eq_some.1 hpatch
    obtain ⟨rfl, hpre, hbuild⟩ := takeTags_eq_some.1 htags
    refine ⟨{ marked, major, minor, patch, preRelease, build
              major_numeral := hmajorForm
              minor_numeral := hminorForm
              patch_numeral := hpatchForm
              preRelease_tag := hpre
              build_tag := hbuild }, ?_, rfl⟩
    rw [hmark, hbody, Spelling.chars, Spelling.releaseChars_append]
  · rintro ⟨s, rfl, rfl⟩
    -- each reader stops where its part ends, since no number goes on with a dot or a tag
    have hdot (cs : List Code) : NoDigit ('.' :: cs) := by
      intro c hc
      rw [← Option.some.inj hc]
      decide
    rw [s.dropMark_chars, s.releaseChars_append]
    refine ⟨_, takeNumber_eq_some.2 ⟨rfl, s.major_numeral, Or.inr (hdot _)⟩, _, rfl, ?_⟩
    refine ⟨_, takeNumber_eq_some.2 ⟨rfl, s.minor_numeral, Or.inr (hdot _)⟩, _, rfl, ?_⟩
    refine ⟨_, takeNumber_eq_some.2 ⟨rfl, s.patch_numeral, Or.inr (noDigit_tags _ _)⟩, ?_⟩
    exact ⟨_, takeTags_eq_some.2 ⟨rfl, s.preRelease_tag, s.build_tag⟩, rfl⟩

/-- A text with or without blanks around it is read as a version exactly if it is a spelling. -/
theorem read?_eq_some {text : Text} {r : Reading} : read? text = some r ↔
    ∃ s : Spelling, s.chars = trimChars text.toList ∧ s.reading = r := readChars_eq_some

theorem accepts_iff {text : Text} : accepts text = true ↔
    ∃ s : Spelling, s.chars = trimChars text.toList := by
  rw [accepts, Option.isSome_iff_exists]
  simp only [read?_eq_some]
  exact ⟨fun ⟨_, s, hs, _⟩ => ⟨s, hs⟩, fun ⟨s, hs⟩ => ⟨_, s, hs, rfl⟩⟩

/-- A text that is itself short has no long number. -/
theorem isShort_of_length {text : Text} {r : Reading} (h : text.length ≤ digitLimit)
    (hr : read? text = some r) : r.IsShort := by
  obtain ⟨s, hs, rfl⟩ := read?_eq_some.1 hr
  have hlength : s.chars.length ≤ digitLimit := by
    rw [hs]
    exact (sublist_trimChars text.toList).length_le.trans (by rwa [Text.length_toList])
  simp only [Spelling.chars, Spelling.releaseChars_append, List.length_append,
    List.length_cons] at hlength
  have hmajor : s.major.length ≤ digitLimit := by omega
  have hminor : s.minor.length ≤ digitLimit := by omega
  have hpatch : s.patch.length ≤ digitLimit := by omega
  exact ⟨hmajor, hminor, hpatch⟩

namespace Spelling

/-! ## One spelling for each text -/

theorem readChars_chars (s : Spelling) : readChars s.chars = some s.reading :=
  readChars_eq_some.2 ⟨s, rfl, rfl⟩

/-- A text is spelled in one way only. -/
theorem chars_inj {s t : Spelling} (h : s.chars = t.chars) : s = t := by
  -- a reading forgets the mark alone, and this stands in front of equal texts
  have hreading : s.reading = t.reading := by
    rw [← Option.some.injEq, ← s.readChars_chars, ← t.readChars_chars, h]
  obtain ⟨hmajor, hminor, hpatch, hpre, hbuild⟩ := Reading.mk.inj hreading
  have hrelease : s.releaseChars = t.releaseChars := by
    rw [releaseChars, releaseChars, hmajor, hminor, hpatch, hpre]
  have hmarked : s.marked = t.marked := by
    rw [chars, chars, hrelease, hbuild] at h
    exact markChars_inj (List.append_cancel_right h)
  exact Spelling.ext hmarked hmajor hminor hpatch hpre hbuild

/-! ## Characters of a spelling -/

theorem forall_mem_behind {P : Code → Prop} {mark : Code} (hmark : P mark)
    (htag : ∀ c, isTagChar c = true → P c) {part : Option (List Code)}
    (h : ∀ tag ∈ part, IsTag tag) : ∀ c ∈ behind mark part, P c := by
  cases part with
  | none => simp [behind]
  | some tag => exact List.forall_mem_cons.2 ⟨hmark, fun c hc => htag c ((h tag rfl).2 c hc)⟩

variable {P : Code → Prop} (hdot : P '.') (hminus : P '-')
  (hdigit : ∀ c, isDigit c = true → P c) (htag : ∀ c, isTagChar c = true → P c)

include hdot hminus hdigit htag

/-- What holds of dots, hyphens, digits and the characters of tags holds of all between the mark
    and the build metadata. -/
theorem forall_mem_releaseChars (s : Spelling) : ∀ c ∈ s.releaseChars, P c := by
  have hnumeral {cs : List Code} (h : IsNumeral cs) : ∀ c ∈ cs, P c :=
    fun c hc => hdigit c (h.isDigit c hc)
  simp only [releaseChars, List.forall_mem_append, List.forall_mem_cons]
  exact ⟨hnumeral s.major_numeral, hdot, hnumeral s.minor_numeral, hdot,
    hnumeral s.patch_numeral, forall_mem_behind hminus htag s.preRelease_tag⟩

theorem forall_mem_chars (s : Spelling) (hmark : P 'v') (hplus : P '+') :
    ∀ c ∈ s.chars, P c := by
  have hmarked : ∀ c ∈ markChars s.marked, P c := by
    cases s.marked with
    | true => exact List.forall_mem_singleton.2 hmark
    | false => simp [markChars]
  simp only [chars, List.forall_mem_append]
  exact ⟨hmarked, s.forall_mem_releaseChars hdot hminus hdigit htag,
    forall_mem_behind hplus htag s.build_tag⟩

omit hdot hminus hdigit htag

/-- No blank stands in a version. -/
theorem isBlank_of_mem_chars (s : Spelling) : ∀ c ∈ s.chars, isBlank c = false :=
  s.forall_mem_chars (by decide) (by decide) (fun _ => isBlank_of_isDigit)
    (fun _ => isBlank_of_isTagChar) (by decide) (by decide)

/-- A version with blanks around it is trimmed to the version. -/
theorem trimChars_chars (s : Spelling) {before after : List Code}
    (hbefore : ∀ c ∈ before, isBlank c = true) (hafter : ∀ c ∈ after, isBlank c = true) :
    trimChars (before ++ (s.chars ++ after)) = s.chars := by
  rw [trimChars_surround hbefore hafter]
  exact trimChars_eq_self (fun c hc => s.isBlank_of_mem_chars c (List.mem_of_mem_head? hc))
    fun c hc => s.isBlank_of_mem_chars c (List.mem_of_mem_getLast? hc)

/-! ## Numbers and releases -/

/-- The numbers that are meant. -/
def number (s : Spelling) : ReleaseNumber :=
  ⟨decimalValue s.major, decimalValue s.minor, decimalValue s.patch⟩

/-- The release that is meant; without a pre-release tag it has the empty one. -/
def identity (s : Spelling) : ReleaseIdentity :=
  ⟨s.number, Text.ofList (s.preRelease.getD [])⟩

theorem number_reading {s : Spelling} (h : s.reading.IsShort) :
    s.reading.number = .ok s.number := by
  obtain ⟨hmajor, hminor, hpatch⟩ := h
  rw [Reading.number, readNumeral_eq_ok hmajor, readNumeral_eq_ok hminor, readNumeral_eq_ok hpatch]
  rfl

theorem identity_reading {s : Spelling} (h : s.reading.IsShort) :
    s.reading.identity = .ok s.identity := by
  rw [Reading.identity, number_reading h]
  rfl

/-- A missing part is told from one that is there, if parts are not empty. -/
theorem getD_nil_inj {p q : Option (List Code)} (hp : p ≠ some []) (hq : q ≠ some []) :
    p.getD [] = q.getD [] ↔ p = q := by
  cases p with
  | none =>
    cases q with
    | none => simp
    | some tag =>
      have htag : tag ≠ [] := fun h => hq (by rw [h])
      simpa using htag.symm
  | some tag =>
    cases q with
    | none =>
      have htag : tag ≠ [] := fun h => hp (by rw [h])
      simpa using htag
    | some other => simp

/-- Two spellings mean one release if they have the same numbers and the same pre-release tag. -/
theorem identity_eq_iff {s t : Spelling} :
    s.identity = t.identity ↔ s.number = t.number ∧ s.preRelease = t.preRelease := by
  have htag (u : Spelling) : u.preRelease ≠ some [] := fun h => (u.preRelease_tag [] h).1 rfl
  rw [identity, identity, ReleaseIdentity.mk.injEq, Text.ofList_inj,
    getD_nil_inj (htag s) (htag t)]

end Spelling

end Semver

/-! ## Tags -/

namespace Version

open Semver

/-- The parts of a version are those of a spelling of its text, which a tag has. -/
theorem reading?_eq_some {v : Version} {r : Semver.Reading} : v.reading? = some r ↔
    v.kind = .semver ∧ ∃ s : Spelling, s.chars = trimChars v.text.toList ∧ s.reading = r := by
  rw [← read?_eq_some, reading?]
  cases v.kind with
  | semver => simp
  | branch => simp
  | revision => simp

/-- A version whose text is itself short has no long number. -/
theorem isReadable_of_length {v : Version} (h : v.text.length ≤ digitLimit) : v.IsReadable := by
  intro r hr
  obtain ⟨-, hspelling⟩ := reading?_eq_some.1 hr
  exact isShort_of_length h (read?_eq_some.2 hspelling)

/-- The numbers of a version are those of its spelling, if they are not too long. -/
theorem number?_eq_ok {v : Version} {n : ReleaseNumber} : v.number? = some (.ok n) ↔
    v.kind = .semver ∧ ∃ s : Spelling, s.chars = trimChars v.text.toList ∧ s.reading.IsShort ∧
      s.number = n := by
  simp only [number?, Option.map_eq_some_iff, reading?_eq_some]
  constructor
  · rintro ⟨r, ⟨hkind, s, hs, rfl⟩, hn⟩
    have hshort := Reading.number_isOk.1 ⟨n, hn⟩
    rw [Spelling.number_reading hshort] at hn
    exact ⟨hkind, s, hs, hshort, Except.ok.inj hn⟩
  · rintro ⟨hkind, s, hs, hshort, rfl⟩
    exact ⟨s.reading, ⟨hkind, s, hs, rfl⟩, Spelling.number_reading hshort⟩

/-- The release of a version is that of its spelling, if its numbers are not too long. -/
theorem identity?_eq_ok {v : Version} {i : ReleaseIdentity} : v.identity? = some (.ok i) ↔
    v.kind = .semver ∧ ∃ s : Spelling, s.chars = trimChars v.text.toList ∧ s.reading.IsShort ∧
      s.identity = i := by
  simp only [identity?, Option.map_eq_some_iff, reading?_eq_some]
  constructor
  · rintro ⟨r, ⟨hkind, s, hs, rfl⟩, hi⟩
    have hshort := Reading.identity_isOk.1 ⟨i, hi⟩
    rw [Spelling.identity_reading hshort] at hi
    exact ⟨hkind, s, hs, hshort, Except.ok.inj hi⟩
  · rintro ⟨hkind, s, hs, hshort, rfl⟩
    exact ⟨s.reading, ⟨hkind, s, hs, rfl⟩, Spelling.identity_reading hshort⟩

end Version

end LockFit
