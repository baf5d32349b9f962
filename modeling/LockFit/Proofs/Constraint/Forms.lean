import LockFit.Constraint.Basic
import LockFit.Proofs.Text.Split
import LockFit.Proofs.Text.Trim

/-
  The forms of a rule.
  A trimmed text may stand for every version or for none, name a branch or a revision, be a tag, or
  be plain: in none of these forms, so that it is read as a range. Every text has a form
  (`Constraint.form`). The forms start in different ways, so no text has two of them, and what is
  made of a text follows from its form alone, in whatever order the forms are tried
  (`Constraint.ofText_any` and so on).
-/

namespace LockFit

open Text

/-! ## How a version starts -/

namespace Semver

/-- The character is the mark of a version or the first digit of a number. -/
def startsVersion (c : Code) : Bool := c = 'v' || c = '0' || isAsciiNonzero c

theorem startsVersion_of_readChars {cs : List Code} {r : Reading} (h : readChars cs = some r) :
    ∃ c rest, cs = c :: rest ∧ startsVersion c = true := by
  cases cs with
  | nil => cases h
  | cons c rest =>
    refine ⟨c, rest, rfl, ?_⟩
    by_contra hother
    obtain ⟨⟨hmark, hzero⟩, hdigit⟩ : (c ≠ 'v' ∧ c ≠ '0') ∧ ¬ isAsciiNonzero c = true := by
      simpa only [startsVersion, Bool.or_eq_true, decide_eq_true_eq, not_or] using hother
    have hdrop : dropMark (c :: rest) = c :: rest := by
      unfold dropMark
      split
      · rename_i heq
        exact absurd (List.cons_eq_cons.1 heq).1 hmark
      · rfl
    have hnone : takeNumber (c :: rest) = none := by
      rw [takeNumber, if_neg hzero, if_neg hdigit]
    rw [readChars, hdrop, hnone] at h
    cases h

/-- A text that is a version starts as one, behind the blanks. -/
theorem startsVersion_of_accepts {text : Text} (h : accepts text = true) :
    ∃ c rest, (trim text).toList = c :: rest ∧ startsVersion c = true := by
  obtain ⟨r, hr⟩ := Option.isSome_iff_exists.1 h
  rw [toList_trim]
  exact startsVersion_of_readChars hr

/-- Blanks around a version do not count. -/
theorem accepts_trim {text : Text} : accepts (trim text) = accepts text := by
  rw [accepts, read?, toList_trim, trimChars_idem]
  rfl

end Semver

namespace Constraint

/-! ## Forms -/

/-- The text is in none of the other forms. -/
structure IsPlain (rule : Text) : Prop where
  ne_empty : rule ≠ ""
  ne_star : rule ≠ "*"
  ne_bang : rule ≠ "!"
  ne_branch : ∀ rest, rule ≠ "branch:" ++ rest
  ne_revision : ∀ rest, rule ≠ "rev:" ++ rest
  not_accepts : ¬ Semver.accepts rule = true

inductive Form (rule : Text) : Prop
  | any : rule = "" ∨ rule = "*" → Form rule
  | none : rule = "!" → Form rule
  | branch (rest : Text) : rule = "branch:" ++ rest → Form rule
  | revision (rest : Text) : rule = "rev:" ++ rest → Form rule
  | tag : Semver.accepts rule = true → Form rule
  | plain : IsPlain rule → Form rule

/-- Every text has a form. -/
theorem form (rule : Text) : Form rule := by
  by_contra h
  refine h (.plain ⟨?_, ?_, ?_, ?_, ?_, ?_⟩)
  · exact fun hempty => h (.any (Or.inl hempty))
  · exact fun hstar => h (.any (Or.inr hstar))
  · exact fun hbang => h (.none hbang)
  · exact fun rest hbranch => h (.branch rest hbranch)
  · exact fun rest hrevision => h (.revision rest hrevision)
  · exact fun hsemver => h (.tag hsemver)

/-! ## What is made of each form -/

variable {text rest : Text}

/-- What begins with another character is not the text for every version or for none. -/
theorem ne_mark_of_head {rule : Text} {c : Code} {cs : List Code} (h : rule.toList = c :: cs)
    (hstar : c ≠ '*') (hbang : c ≠ '!') : rule ≠ "" ∧ rule ≠ "*" ∧ rule ≠ "!" := by
  refine ⟨?_, ?_, ?_⟩
  · rintro rfl
    cases h
  · rintro rfl
    exact hstar (List.cons_eq_cons.1 h).1.symm
  · rintro rfl
    exact hbang (List.cons_eq_cons.1 h).1.symm

theorem ofText_any (h : trim text = "" ∨ trim text = "*") : ofText text = .ok .any := by
  rw [ofText]
  dsimp only
  exact if_pos (by simpa using h)

theorem ofText_none (h : trim text = "!") : ofText text = .ok .none := by
  rw [ofText, h]
  rfl

theorem ofText_branch (h : trim text = "branch:" ++ rest) : ofText text =
    if trim rest = "" then .error (.emptyBranch text) else .ok (.branch (trim rest)) := by
  have hhead : (trim text).toList = .scalar 'b' :: ("ranch:" ++ rest).toList := by
    rw [h]
    simp
  obtain ⟨hempty, hstar, hbang⟩ := ne_mark_of_head hhead (by decide) (by decide)
  rw [ofText]
  dsimp only
  rw [if_neg (by simp [hempty, hstar]), if_neg hbang, afterStart?_eq_some.2 h]

theorem ofText_revision (h : trim text = "rev:" ++ rest) : ofText text =
    if trim rest = "" then .error (.emptyRevision text)
    else .ok (.exact (Version.revision (trim rest))) := by
  have hhead : (trim text).toList = .scalar 'r' :: ("ev:" ++ rest).toList := by
    rw [h]
    simp
  obtain ⟨hempty, hstar, hbang⟩ := ne_mark_of_head hhead (by decide) (by decide)
  have hbranch : afterStart? "branch:" (trim text) = Option.none :=
    afterStart?_eq_none rfl hhead (by decide)
  rw [ofText]
  dsimp only
  rw [if_neg (by simp [hempty, hstar]), if_neg hbang, hbranch, afterStart?_eq_some.2 h]

/-- A text that starts in the way of no other form is a version or a range. -/
theorem ofText_eq_dite (hempty : trim text ≠ "") (hstar : trim text ≠ "*")
    (hbang : trim text ≠ "!") (hbranch : afterStart? "branch:" (trim text) = Option.none)
    (hrevision : afterStart? "rev:" (trim text) = Option.none) : ofText text =
      if h : Semver.accepts (trim text) = true then .ok (.exact ⟨trim text, .semver, fun _ => h⟩)
      else (Range.ofText (trim text)).map .range := by
  rw [ofText]
  dsimp only
  rw [if_neg (by simp [hempty, hstar]), if_neg hbang, hbranch, hrevision]

/-- A version starts in no way in which another form does. -/
theorem ofText_tag (h : Semver.accepts (trim text) = true) :
    ofText text = .ok (.exact ⟨trim text, .semver, fun _ => h⟩) := by
  obtain ⟨c, rest, hhead, hc⟩ := Semver.startsVersion_of_accepts (Semver.accepts_trim.symm.trans h)
  have hne {d : Code} (hd : Semver.startsVersion d = false) : c ≠ d := by
    rintro rfl
    exact Bool.false_ne_true (hd.symm.trans hc)
  obtain ⟨hempty, hstar, hbang⟩ :=
    ne_mark_of_head hhead (hne (d := '*') (by decide)) (hne (d := '!') (by decide))
  have hbranch : afterStart? "branch:" (trim text) = Option.none :=
    afterStart?_eq_none rfl hhead (hne (by decide)).symm
  have hrevision : afterStart? "rev:" (trim text) = Option.none :=
    afterStart?_eq_none rfl hhead (hne (by decide)).symm
  rw [ofText_eq_dite hempty hstar hbang hbranch hrevision, dif_pos h]

theorem ofText_plain (h : IsPlain (trim text)) :
    ofText text = (Range.ofText (trim text)).map .range := by
  have hbranch : afterStart? "branch:" (trim text) = Option.none :=
    Option.eq_none_iff_forall_ne_some.2 fun rest hrest =>
      h.ne_branch rest (afterStart?_eq_some.1 hrest)
  have hrevision : afterStart? "rev:" (trim text) = Option.none :=
    Option.eq_none_iff_forall_ne_some.2 fun rest hrest =>
      h.ne_revision rest (afterStart?_eq_some.1 hrest)
  rw [ofText_eq_dite h.ne_empty h.ne_star h.ne_bang hbranch hrevision, dif_neg h.not_accepts]

end Constraint

end LockFit
