import LockFit.Proofs.Version.Printed

/-
  Which texts name one release.
  The release text of a version is its text without the blanks around it, one leading `v` and the
  build metadata. Versions with one release text name one release, but a release has more than one
  release text, since a numeral may go on with digits of any script. With its digits replaced by
  those from `0` to `9` a release text is the release as it is printed
  (`Semver.Spelling.chars_canonical`). So releases are the same exactly if their texts are the same
  after this replacement, and also without it if there are no other digits in them
  (`Version.identity_eq_iff_releaseChars`). That condition cannot be left out: the number ten has
  two spellings that are read alike (`Version.identity_scripts`).
-/

namespace LockFit

open Text

namespace Semver

/-- The text of a version without the blanks around it, one leading `v` and the build metadata. -/
def releaseChars (text : Text) : List Code :=
  (dropMark (trimChars text.toList)).takeWhile (· != Code.scalar '+')

/-- The release text of a version has no digits but `0` to `9`. -/
def InAsciiDigits (text : Text) : Prop :=
  ∀ c ∈ releaseChars text, isDigit c = true → isAsciiDigit c = true

/-! ## Release texts -/

theorem isDigit_plus : isDigit '+' = false := by decide

theorem isAsciiDigit_of_isTagChar {c : Code} (h : isTagChar c = true) (hdigit : isDigit c = true) :
    isAsciiDigit c = true := by
  have hrange := toNat_of_isTagChar h
  exact isAsciiDigit_of_isDigit hdigit (by omega)

theorem isTag_of_mem_none : ∀ tag ∈ (none : Option (List Code)), IsTag tag := by simp

namespace Spelling

/-- The release text of a spelling ends where the build metadata begins. -/
theorem releaseChars_of_chars {s : Spelling} {text : Text} (h : s.chars = trimChars text.toList) :
    Semver.releaseChars text = s.releaseChars := by
  have hrelease : ∀ c ∈ s.releaseChars, (c != Code.scalar '+') = true := by
    refine s.forall_mem_releaseChars (by decide) (by decide) (fun c hc => ?_) fun c hc => ?_
    · rw [bne_iff_ne]
      rintro rfl
      rw [isDigit_plus] at hc
      cases hc
    · rw [bne_iff_ne]
      rintro rfl
      rw [isTagChar_plus] at hc
      cases hc
  have hbuild : ∀ c ∈ (behind '+' s.build).head?, (c != Code.scalar '+') = false := by
    cases s.build with
    | none => simp [behind]
    | some tag => simp [behind]
  rw [Semver.releaseChars, ← h, s.dropMark_chars, (span_append hrelease hbuild).1]

/-- The release of a spelling as it is printed, without a mark and without build metadata. -/
def canonical (s : Spelling) : Spelling :=
  print false s.number s.preRelease_tag isTag_of_mem_none

theorem identity_canonical (s : Spelling) : s.canonical.identity = s.identity := by
  rw [canonical, identity_print, identity]

/-- A release text with its digits replaced is the release as it is printed. -/
theorem chars_canonical (s : Spelling) : s.canonical.chars = s.releaseChars.map asciiDigit := by
  have hdot : asciiDigit '.' = Code.scalar '.' := rfl
  have htag : (behind '-' s.preRelease).map asciiDigit = behind '-' s.preRelease := by
    apply map_asciiDigit_eq_self
    exact forall_mem_behind (P := fun c => isDigit c = true → isAsciiDigit c = true) (by decide)
      (fun _ => isAsciiDigit_of_isTagChar) s.preRelease_tag
  calc s.canonical.chars
      = s.canonical.releaseChars := List.append_nil _
    _ = decimal s.number.major ++ Code.scalar '.' :: (decimal s.number.minor ++ Code.scalar '.' ::
          (decimal s.number.patch ++ behind '-' s.preRelease)) := rfl
    _ = s.releaseChars.map asciiDigit := by
      simp only [releaseChars, List.map_append, List.map_cons, hdot, htag, number,
        s.major_numeral.map_asciiDigit, s.minor_numeral.map_asciiDigit,
        s.patch_numeral.map_asciiDigit]

/-- Two spellings mean one release exactly if it is printed in one way. -/
theorem identity_eq_iff_canonical {s t : Spelling} :
    s.identity = t.identity ↔ s.canonical.chars = t.canonical.chars := by
  constructor
  · intro h
    obtain ⟨hnumber, hpre⟩ := identity_eq_iff.1 h
    have hcanonical : s.canonical = t.canonical := by
      refine Spelling.ext rfl ?_ ?_ ?_ hpre rfl <;> simp only [canonical, print, hnumber]
    rw [hcanonical]
  · intro h
    rw [← s.identity_canonical, chars_inj h, t.identity_canonical]

end Spelling

end Semver

/-! ## Releases -/

namespace Version

open Semver

variable {v w : Version} {i j : ReleaseIdentity}

/-- Tags name one release exactly if their release texts are the same with their digits replaced. -/
theorem identity_eq_iff_map (hv : v.identity? = some (.ok i)) (hw : w.identity? = some (.ok j)) :
    i = j ↔ (releaseChars v.text).map asciiDigit = (releaseChars w.text).map asciiDigit := by
  obtain ⟨-, s, hs, -, rfl⟩ := identity?_eq_ok.1 hv
  obtain ⟨-, t, ht, -, rfl⟩ := identity?_eq_ok.1 hw
  rw [Spelling.releaseChars_of_chars hs, Spelling.releaseChars_of_chars ht, ← s.chars_canonical,
    ← t.chars_canonical, Spelling.identity_eq_iff_canonical]

/-- **Which texts name one release.** Two tags whose numbers can be read name one release exactly if
    their texts, without the blanks around them, one leading `v` and the build metadata, are the
    same up to the scripts of their digits. If the digits in them are `0` to `9`, the texts have to
    be the same as they are. -/
theorem identity_eq_iff_releaseChars (v w : Version) (i j : ReleaseIdentity)
    (hv : v.identity? = some (.ok i)) (hw : w.identity? = some (.ok j)) :
    (i = j ↔ (releaseChars v.text).map asciiDigit = (releaseChars w.text).map asciiDigit) ∧
    (releaseChars v.text = releaseChars w.text → i = j) ∧
    (InAsciiDigits v.text → InAsciiDigits w.text →
      (i = j ↔ releaseChars v.text = releaseChars w.text)) := by
  have hmap := identity_eq_iff_map hv hw
  refine ⟨hmap, fun h => hmap.2 (by rw [h]), fun hvDigits hwDigits => ?_⟩
  rw [hmap, map_asciiDigit_eq_self hvDigits, map_asciiDigit_eq_self hwDigits]

/-- Blanks, a mark and build metadata make no other release. -/
theorem identity_eq_iff_releaseChars_marked :
    (ofText " v1.2.3-rc.1+b7").identity? = some (.ok ⟨⟨1, 2, 3⟩, "rc.1"⟩) ∧
      (ofText "1.2.3-rc.1").identity? = some (.ok ⟨⟨1, 2, 3⟩, "rc.1"⟩) ∧
      InAsciiDigits " v1.2.3-rc.1+b7" ∧ InAsciiDigits "1.2.3-rc.1" ∧
      releaseChars " v1.2.3-rc.1+b7" = releaseChars "1.2.3-rc.1" := by
  have hv : (ofText " v1.2.3-rc.1+b7").identity? = some (.ok ⟨⟨1, 2, 3⟩, "rc.1"⟩) := rfl
  have hw : (ofText "1.2.3-rc.1").identity? = some (.ok ⟨⟨1, 2, 3⟩, "rc.1"⟩) := rfl
  have hdigits (text : Text)
      (h : ((releaseChars text).all fun c => !isDigit c || isAsciiDigit c) = true) :
      InAsciiDigits text := by
    intro c hc hdigit
    simpa [hdigit] using List.all_eq_true.1 h c hc
  have hvDigits := hdigits " v1.2.3-rc.1+b7" (by decide +kernel)
  have hwDigits := hdigits "1.2.3-rc.1" (by decide +kernel)
  exact ⟨hv, hw, hvDigits, hwDigits,
    ((identity_eq_iff_releaseChars _ _ _ _ hv hw).2.2 hvDigits hwDigits).1 rfl⟩

/-- A release with two release texts: the number ten, written with a digit of another script. -/
theorem identity_scripts :
    (ofText "1.1\u0660.0").identity? = some (.ok ⟨⟨1, 10, 0⟩, ""⟩) ∧
      (ofText "1.10.0").identity? = some (.ok ⟨⟨1, 10, 0⟩, ""⟩) ∧
      releaseChars "1.1\u0660.0" ≠ releaseChars "1.10.0" :=
  ⟨rfl, rfl, by decide +kernel⟩

end Version

end LockFit
