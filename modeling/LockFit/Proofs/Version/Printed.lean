import LockFit.Proofs.Version.Spelling

/-
  Versions that are printed and read back.
  A release is printed with its numbers in decimal digits, with a mark or without one, with either
  tag or without it. What is printed is a spelling (`Semver.Spelling.print`) with the same numbers
  (`Semver.Spelling.number_print`), so reading gives back what was printed
  (`Version.semver_grammar`).
-/

namespace LockFit

open Text Semver

/-- No number has more digits than are read. -/
def ReleaseNumber.IsShort (n : ReleaseNumber) : Prop :=
  (decimal n.major).length ≤ digitLimit ∧ (decimal n.minor).length ≤ digitLimit ∧
    (decimal n.patch).length ≤ digitLimit

namespace Semver.Spelling

variable {preRelease build : Option (List Code)}

/-- A release as it is printed. -/
def print (marked : Bool) (n : ReleaseNumber) (hpre : ∀ tag ∈ preRelease, IsTag tag)
    (hbuild : ∀ tag ∈ build, IsTag tag) : Spelling where
  marked := marked
  major := decimal n.major
  minor := decimal n.minor
  patch := decimal n.patch
  preRelease := preRelease
  build := build
  major_numeral := isNumeral_decimal n.major
  minor_numeral := isNumeral_decimal n.minor
  patch_numeral := isNumeral_decimal n.patch
  preRelease_tag := hpre
  build_tag := hbuild

variable {marked : Bool} {n : ReleaseNumber} {hpre : ∀ tag ∈ preRelease, IsTag tag}
  {hbuild : ∀ tag ∈ build, IsTag tag}

/-- A printed release has the numbers that were printed. -/
theorem number_print : (print marked n hpre hbuild).number = n := by
  rw [number, print, decimalValue_decimal, decimalValue_decimal, decimalValue_decimal]

theorem identity_print :
    (print marked n hpre hbuild).identity = ⟨n, Text.ofList (preRelease.getD [])⟩ := by
  rw [identity, number_print]
  rfl

end Semver.Spelling

namespace Version

@[simp] theorem text_ofText (text : Text) : (ofText text).text = text := by
  unfold ofText
  split <;> rfl

theorem ofText_of_accepts {text : Text} (h : Semver.accepts text = true) :
    ofText text = ⟨text, .semver, fun _ => h⟩ := dif_pos h

/-- A text that is a short spelling with blanks around it makes a tag with the numbers and the
    release of the spelling. -/
theorem ofText_spelling {text : Text} {s : Spelling} (hs : s.chars = trimChars text.toList)
    (hshort : s.reading.IsShort) : (ofText text).kind = .semver ∧
      (ofText text).number? = some (.ok s.number) ∧
      (ofText text).identity? = some (.ok s.identity) := by
  rw [ofText_of_accepts (accepts_iff.2 ⟨s, hs⟩)]
  exact ⟨rfl, number?_eq_ok.2 ⟨rfl, s, hs, hshort, rfl⟩,
    identity?_eq_ok.2 ⟨rfl, s, hs, hshort, rfl⟩⟩

/-- **The grammar of semantic versions.** A text is accepted exactly if it is a spelling without the
    blanks around it, and then it is only one and is read as its parts. A release that is printed,
    with any tags and with any blanks around it, makes a tag with the numbers and the release that
    were printed, if none of the numbers has more digits than are read. -/
theorem semver_grammar (text : Text) :
    (Semver.accepts text = true ↔ ∃ s : Spelling, s.chars = (trim text).toList) ∧
    (∀ s : Spelling, s.chars = (trim text).toList →
      Semver.read? text = some s.reading ∧
        ∀ t : Spelling, t.chars = (trim text).toList → t = s) ∧
    (∀ (marked : Bool) (n : ReleaseNumber) (preRelease build : Option (List Code))
      (hpre : ∀ tag ∈ preRelease, IsTag tag) (hbuild : ∀ tag ∈ build, IsTag tag)
      (before after : List Code), n.IsShort →
      (∀ c ∈ before, isBlank c = true) → (∀ c ∈ after, isBlank c = true) →
      text.toList = before ++ ((Spelling.print marked n hpre hbuild).chars ++ after) →
      (ofText text).kind = .semver ∧ (ofText text).text = text ∧
        (ofText text).number? = some (.ok n) ∧
        (ofText text).identity? = some (.ok ⟨n, Text.ofList (preRelease.getD [])⟩)) := by
  rw [toList_trim]
  refine ⟨accepts_iff, ?_, ?_⟩
  · intro s hs
    exact ⟨read?_eq_some.2 ⟨s, hs, rfl⟩, fun t ht => Spelling.chars_inj (ht.trans hs.symm)⟩
  · intro marked n preRelease build hpre hbuild before after hshort hbefore hafter htext
    have hchars : (Spelling.print marked n hpre hbuild).chars = trimChars text.toList := by
      rw [htext, Spelling.trimChars_chars _ hbefore hafter]
    have hread := ofText_spelling hchars hshort
    rw [Spelling.number_print, Spelling.identity_print] at hread
    exact ⟨hread.1, text_ofText text, hread.2⟩

/-- A mark, both tags and blanks of two sorts. -/
theorem semver_grammar_tagged : ReleaseNumber.IsShort ⟨1, 20, 3⟩ ∧
    (ofText "\u00a0v1.20.3-rc.1+b7\n").number? = some (.ok ⟨1, 20, 3⟩) ∧
    (ofText "\u00a0v1.20.3-rc.1+b7\n").identity? = some (.ok ⟨⟨1, 20, 3⟩, "rc.1"⟩) := by
  have hshort : ReleaseNumber.IsShort ⟨1, 20, 3⟩ := ⟨by decide, by decide, by decide⟩
  have htag (tag : List Code) (h : (!tag.isEmpty && tag.all isTagChar) = true) :
      ∀ t ∈ some tag, IsTag t := by
    rintro _ ⟨⟩
    simpa [IsTag] using h
  have hread := (semver_grammar "\u00a0v1.20.3-rc.1+b7\n").2.2 true ⟨1, 20, 3⟩ _ _
    (htag ['r', 'c', '.', '1'] (by decide)) (htag ['b', '7'] (by decide)) ['\u00a0'] ['\n'] hshort
    (List.forall_mem_singleton.2 (by decide)) (List.forall_mem_singleton.2 (by decide)) rfl
  exact ⟨hshort, hread.2.2⟩

end Version

end LockFit
