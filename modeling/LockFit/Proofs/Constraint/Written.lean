import LockFit.Proofs.Constraint.Pins

/-
  Rules as they are written.
  A trimmed text stands for the rule that its form gives (`Constraint.Denotes`), and a text makes a
  rule exactly if it stands for it once it is trimmed (`Constraint.ofText_eq_ok`). So every version
  that is trimmed can be pinned by a text (`Constraint.ofText_pinText`), and a rule that was made
  from a text is made from the text that is shown for it as well, unless it is a pin on a revision,
  which is shown without the word that says so (`Constraint.ofText_text`).
-/

namespace LockFit

open Text

namespace Constraint

/-! ## What a text stands for -/

/-- The rules that trimmed texts stand for. -/
inductive Denotes : Text → Constraint → Prop
  | empty : Denotes "" .any
  | star : Denotes "*" .any
  | bang : Denotes "!" .none
  | branch {rest : Text} : trim rest ≠ "" → Denotes ("branch:" ++ rest) (.branch (trim rest))
  | revision {rest : Text} : trim rest ≠ "" →
      Denotes ("rev:" ++ rest) (.exact (Version.revision (trim rest)))
  | tag {rule : Text} (h : Semver.accepts rule = true) :
      Denotes rule (.exact ⟨rule, .semver, fun _ => h⟩)
  | range {r : Range} : r.raw ≠ "*" → Denotes r.raw (.range r)

variable {text : Text} {c : Constraint}

theorem denotes_of_ofText (h : ofText text = .ok c) : Denotes (trim text) c := by
  cases form (trim text) with
  | any hany =>
    rw [ofText_any hany] at h
    obtain rfl := Except.ok.inj h
    rcases hany with hany | hany
    · rw [hany]
      exact .empty
    · rw [hany]
      exact .star
  | none hnone =>
    rw [ofText_none hnone] at h
    obtain rfl := Except.ok.inj h
    rw [hnone]
    exact .bang
  | branch rest hbranch =>
    rw [ofText_branch hbranch] at h
    split at h
    · cases h
    · rename_i hname
      obtain rfl := Except.ok.inj h
      rw [hbranch]
      exact .branch hname
  | revision rest hrevision =>
    rw [ofText_revision hrevision] at h
    split at h
    · cases h
    · rename_i hid
      obtain rfl := Except.ok.inj h
      rw [hrevision]
      exact .revision hid
  | tag hsemver =>
    rw [ofText_tag hsemver] at h
    obtain rfl := Except.ok.inj h
    exact .tag hsemver
  | plain hplain =>
    rw [ofText_plain hplain] at h
    obtain ⟨r, hr, rfl⟩ := map_eq_ok.1 h
    have hraw : r.raw = trim text := Range.ofText_raw hr
    rw [← hraw]
    exact .range (by rw [hraw]; exact hplain.ne_star)

/-- A range starts with a comparison, as no text in another form does. -/
theorem ofText_range {r : Range} (hrule : trim text = r.raw) (hstar : r.raw ≠ "*") :
    ofText text = .ok (.range r) := by
  have hplain : IsPlain (trim text) := by
    have htrim : trim r.raw = r.raw := by rw [← hrule, trim_idem]
    have hcomparison : Range.StartsWithComparison r.raw := by
      refine Range.startsWithComparison fun h => hstar ?_
      rw [← htrim]
      exact Range.trim_eq_star.2 h
    rw [hrule]
    exact hcomparison.isPlain htrim
  rw [ofText_plain hplain, Range.ofText_eq_ok.2 hrule.symm]
  rfl

/-- A text makes a rule exactly if it stands for it, without the blanks around it. -/
theorem ofText_eq_ok : ofText text = .ok c ↔ Denotes (trim text) c := by
  constructor
  · exact denotes_of_ofText
  · intro h
    generalize hrule : trim text = rule at h
    cases h with
    | empty => exact ofText_any (Or.inl hrule)
    | star => exact ofText_any (Or.inr hrule)
    | bang => exact ofText_none hrule
    | branch hname => rw [ofText_branch hrule, if_neg hname]
    | revision hid => rw [ofText_revision hrule, if_neg hid]
    | tag hsemver =>
      subst hrule
      exact ofText_tag hsemver
    | range hstar => exact ofText_range hrule hstar

end Constraint

/-! ## Texts that pin a version -/

/-- The text of a rule that is to allow the version alone. -/
def Version.pinText (v : Version) : Text :=
  match v.kind with
  | .semver => v.text
  | .branch => "branch:" ++ v.text
  | .revision => "rev:" ++ v.text

namespace Constraint

variable {v w : Version}

theorem ofText_pinText_branch (hne : v.text ≠ "") (htrim : trim v.text = v.text)
    (hkind : v.kind = .branch) : ofText v.pinText = .ok (.branch v.text) := by
  have htext : v.pinText = "branch:" ++ v.text := by rw [Version.pinText, hkind]
  have hrule : trim v.pinText = "branch:" ++ v.text := by
    have hstart : ("branch:" : Text).toList = Code.scalar 'b' :: Text.toList "ranch:" := rfl
    rw [htext, trim_append hstart (by decide) hne htrim]
  have hname : trim v.text ≠ "" := by rwa [htrim]
  rw [ofText_branch hrule, if_neg hname, htrim]

/-- A tag is pinned by its text, a revision behind the word that says what it is. -/
theorem ofText_pinText_exact (hne : v.text ≠ "") (htrim : trim v.text = v.text)
    (hkind : v.kind ≠ .branch) : ofText v.pinText = .ok (.exact v) := by
  cases htag : v.kind with
  | semver =>
    have hrule : trim v.pinText = v.text := by rw [Version.pinText, htag, htrim]
    have hv : (⟨v.text, .semver, fun _ => v.reads htag⟩ : Version) = v :=
      Version.eq_of_text_kind rfl htag.symm
    rw [ofText_eq_ok, hrule, ← hv]
    exact .tag (v.reads htag)
  | branch => exact absurd htag hkind
  | revision =>
    have htext : v.pinText = "rev:" ++ v.text := by rw [Version.pinText, htag]
    have hrule : trim v.pinText = "rev:" ++ v.text := by
      have hstart : ("rev:" : Text).toList = Code.scalar 'r' :: Text.toList "ev:" := rfl
      rw [htext, trim_append hstart (by decide) hne htrim]
    have hid : trim v.text ≠ "" := by rwa [htrim]
    have hv : Version.revision v.text = v := Version.eq_of_text_kind rfl htag.symm
    rw [ofText_revision hrule, if_neg hid, htrim, hv]

/-- **Every version can be pinned.** A version whose text is not empty, has no blanks around it and
    no number that is too long to be read is pinned by a text: the rule is made, has an answer for
    every version that can be read, and allows those of the same kind that are the same release or,
    if they are no tags, have the same text. -/
theorem ofText_pinText (v : Version) (hne : v.text ≠ "") (htrim : trim v.text = v.text)
    (hread : v.IsReadable) : ∃ pin, ofText v.pinText = .ok pin ∧
      ∀ w : Version, w.IsReadable → ∃ allowed, pin.allows w = .ok allowed ∧
        (allowed = true ↔ w.kind = v.kind ∧ (v.kind = .semver → w.identity? = v.identity?) ∧
          (v.kind ≠ .semver → w.text = v.text)) := by
  by_cases hkind : v.kind = .branch
  · refine ⟨_, ofText_pinText_branch hne htrim hkind, ?_⟩
    intro w hw
    refine ⟨_, rfl, ?_⟩
    simp [hkind]
  · refine ⟨_, ofText_pinText_exact hne htrim hkind, ?_⟩
    intro w hw
    have hanswers : (exact v).IsReadable := hread
    obtain ⟨allowed, hallowed⟩ := hanswers.answers hw
    refine ⟨allowed, hallowed, ?_⟩
    rw [← Version.named_eq_iff hread hw, ← allows_exact hread hw, hallowed, Except.ok.injEq]

/-- A branch with a name that reads as a pin on a revision. -/
theorem ofText_pinText_lookalike : ∃ pin, ofText "branch:rev:1.2.3" = .ok pin ∧
    pin.allows (Version.branch "rev:1.2.3") = .ok true ∧
    pin.allows (Version.revision "1.2.3") = .ok false := by
  obtain ⟨pin, hpin, hanswers⟩ := ofText_pinText (Version.branch "rev:1.2.3") (by decide)
    (by decide +kernel) (Version.isReadable_of_length (by decide))
  obtain ⟨yes, hyes, hyesIff⟩ := hanswers (Version.branch "rev:1.2.3")
    (Version.isReadable_of_length (by decide))
  obtain ⟨no, hno, hnoIff⟩ := hanswers (Version.revision "1.2.3")
    (Version.isReadable_of_length (by decide))
  refine ⟨pin, hpin, ?_, ?_⟩
  · rw [hyes, hyesIff.2 ⟨rfl, fun _ => rfl, fun _ => rfl⟩]
  · have hother : no ≠ true := fun h => absurd (hnoIff.1 h).1 (by decide)
    rw [hno, Bool.eq_false_iff.2 hother]

/-! ## Texts that are shown for a rule -/

variable {rule : Text}

theorem Denotes.text (h : Denotes rule c) (hrule : trim rule = rule)
    (hc : ∀ v, c = .exact v → v.kind ≠ .revision) : Denotes (trim c.text) c := by
  cases h with
  | empty => exact .star
  | star => exact .star
  | bang => exact .bang
  | @branch rest hname =>
    have htrimmed : trim ("branch:" ++ trim rest) = "branch:" ++ trim rest :=
      trim_append rfl (by decide) hname (trim_idem rest)
    have hdenotes : Denotes ("branch:" ++ trim rest) (.branch (trim (trim rest))) :=
      .branch (by rwa [trim_idem])
    rw [trim_idem] at hdenotes
    rw [Constraint.text, htrimmed]
    exact hdenotes
  | revision hid => exact absurd rfl (hc _ rfl)
  | tag hsemver =>
    rw [Constraint.text, hrule]
    exact .tag hsemver
  | range hstar =>
    rw [Constraint.text, hrule]
    exact .range hstar

/-- What follows the word for a revision is shorter than the text. -/
theorem not_denotes_revision (id : Text) :
    ¬ Denotes (trim id) (.exact (Version.revision id)) := by
  intro h
  generalize hrule : trim id = rule at h
  generalize hc : exact (Version.revision id) = c at h
  cases h with
  | empty | star | bang | branch | range => cases hc
  | tag hsemver =>
    have hkind := congrArg Version.kind (exact.inj hc)
    cases hkind
  | @revision rest hid =>
    have hrest : id = trim rest := congrArg Version.text (exact.inj hc)
    have hlength : (trim id).length = ("rev:" : Text).length + rest.length := by
      rw [hrule, Text.length_append]
    have hlong : (trim rest).length ≤ rest.length := length_trim_le rest
    have hshort : (trim id).length ≤ id.length := length_trim_le id
    rw [hlength, hrest] at hshort
    have hword : ("rev:" : Text).length = 4 := by decide
    omega

/-- **What is shown for a rule.** A rule that is made from a text is made from the text that is
    shown for it as well, exactly if it is no pin on a revision. -/
theorem ofText_text (text : Text) (c : Constraint) (h : ofText text = .ok c) :
    ofText c.text = .ok c ↔ ∀ v, c = .exact v → v.kind ≠ .revision := by
  have hdenotes := denotes_of_ofText h
  rw [ofText_eq_ok]
  constructor
  · intro hshown v hc hkind
    have hv : v = Version.revision v.text := Version.eq_of_text_kind rfl hkind
    rw [hc, hv] at hshown
    exact not_denotes_revision v.text hshown
  · exact hdenotes.text (trim_idem text)

/-- A branch is shown as it may be written, a revision that looks like a tag is not. -/
theorem ofText_text_lookalike :
    (∃ c, ofText " branch:\t* " = .ok c ∧ c.text = "branch:*" ∧ ofText "branch:*" = .ok c) ∧
    ∃ c, ofText "rev:1.0.0" = .ok c ∧ c.text = "1.0.0" ∧ ofText "1.0.0" ≠ .ok c := by
  have hbranch : ofText " branch:\t* " = .ok (.branch "*") := by decide +kernel
  have hrevision : ofText "rev:1.0.0" = .ok (.exact (Version.revision "1.0.0")) := by
    decide +kernel
  constructor
  · exact ⟨.branch "*", hbranch, rfl, (ofText_text _ _ hbranch).2 (by simp)⟩
  · refine ⟨_, hrevision, rfl, fun hshown => ?_⟩
    exact (ofText_text _ _ hrevision).1 hshown _ rfl rfl

end Constraint

end LockFit
