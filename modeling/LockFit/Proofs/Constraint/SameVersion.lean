import LockFit.Proofs.Version.Identity

/-
  Versions that no rule tells apart.
  A pinned version allows a second one if both name the same thing: a tag names its release, any
  other version names itself (`Version.named`). So on the versions whose numbers can be read, being
  allowed by the pin is an equivalence, namely equality of what is named
  (`Constraint.allows_exact`). All that a rule looks at is settled by what a version names: the
  numbers of a tag are those of its release, and a branch names itself. Hence a rule of any sort has
  one answer for versions that name one thing (`Constraint.allows_congr`).
-/

namespace LockFit

open Text

/-! ## What a version names -/

namespace Version

/-- The release of a tag, or the version itself if it is no tag. -/
def named (v : Version) : Except NumeralTooLong (ReleaseIdentity ⊕ Version) :=
  match v.identity? with
  | some release => release.map .inl
  | none => .ok (.inr v)

variable {v w : Version} {i : ReleaseIdentity}

theorem named_of_tag (h : v.identity? = some (.ok i)) : v.named = .ok (.inl i) := by
  rw [named, h]
  rfl

theorem named_of_other (h : v.identity? = none) : v.named = .ok (.inr v) := by
  rw [named, h]

/-- The numbers of a tag are those of its release. -/
theorem number?_of_identity? (h : v.identity? = some (.ok i)) :
    v.number? = some (.ok i.number) := by
  obtain ⟨hkind, s, hs, hshort, rfl⟩ := identity?_eq_ok.1 h
  exact number?_eq_ok.2 ⟨hkind, s, hs, hshort, rfl⟩

theorem kind_of_identity? (h : v.identity? = some (.ok i)) : v.kind = .semver :=
  (identity?_eq_ok.1 h).1

/-- A version that can be read is a tag with its release or no tag. -/
theorem IsReadable.identity?_cases (h : v.IsReadable) :
    (∃ i, v.identity? = some (.ok i)) ∨ v.identity? = none := by
  cases hreading : v.reading? with
  | none =>
    rw [identity?, hreading]
    exact Or.inr rfl
  | some r =>
    obtain ⟨i, hi⟩ := Semver.Reading.identity_isOk.2 (h r hreading)
    refine Or.inl ⟨i, ?_⟩
    rw [identity?, hreading, Option.map_some, hi]

/-- A version that names what a tag names is a tag of the same release. -/
theorem identity?_of_named_eq (hw : w.IsReadable) (hv : v.identity? = some (.ok i))
    (h : v.named = w.named) : w.identity? = some (.ok i) := by
  rw [named_of_tag hv] at h
  rcases hw.identity?_cases with ⟨j, hj⟩ | hother
  · rw [named_of_tag hj] at h
    rw [hj, Sum.inl.inj (Except.ok.inj h)]
  · rw [named_of_other hother] at h
    cases Except.ok.inj h

/-- A version that names what no tag names is that version itself. -/
theorem eq_of_named_eq (hw : w.IsReadable) (hv : v.identity? = none) (h : v.named = w.named) :
    v = w := by
  rw [named_of_other hv] at h
  rcases hw.identity?_cases with ⟨j, hj⟩ | hother
  · rw [named_of_tag hj] at h
    cases Except.ok.inj h
  · rw [named_of_other hother] at h
    exact Sum.inr.inj (Except.ok.inj h)

theorem IsReadable.exists_identity (h : v.IsReadable) (hkind : v.kind = .semver) :
    ∃ i, v.identity? = some (.ok i) := by
  obtain ⟨r, hr⟩ := Option.isSome_iff_exists.1 (v.reading?_isSome.2 hkind)
  refine h.identity?_cases.resolve_right fun hnone => ?_
  rw [identity?, hr] at hnone
  cases hnone

/-- Two versions name one thing if they are of one kind and are the same release or, if they are
    no tags, have the same text. -/
theorem named_eq_iff (hv : v.IsReadable) (hw : w.IsReadable) : v.named = w.named ↔
    w.kind = v.kind ∧ (v.kind = .semver → w.identity? = v.identity?) ∧
      (v.kind ≠ .semver → w.text = v.text) := by
  rcases hv.identity?_cases with ⟨i, hi⟩ | hother
  · have hkind := kind_of_identity? hi
    constructor
    · intro h
      have hj := identity?_of_named_eq hw hi h
      exact ⟨(kind_of_identity? hj).trans hkind.symm, fun _ => hj.trans hi.symm,
        fun hne => absurd hkind hne⟩
    · intro h
      have hj := (h.2.1 hkind).trans hi
      rw [named_of_tag hi, named_of_tag hj]
  · have hkind : v.kind ≠ .semver := by
      intro htag
      obtain ⟨i, hi⟩ := hv.exists_identity htag
      rw [hother] at hi
      cases hi
    constructor
    · intro h
      have heq := eq_of_named_eq hw hother h
      rw [← heq]
      exact ⟨rfl, fun _ => rfl, fun _ => rfl⟩
    · intro h
      rw [eq_of_text_kind (h.2.2 hkind) h.1]

/-- Tags with one release text name one release. -/
theorem named_eq_of_releaseChars (hv : v.IsReadable) (hw : w.IsReadable) (hvTag : v.kind = .semver)
    (hwTag : w.kind = .semver) (h : Semver.releaseChars v.text = Semver.releaseChars w.text) :
    v.named = w.named := by
  obtain ⟨i, hi⟩ := hv.exists_identity hvTag
  obtain ⟨j, hj⟩ := hw.exists_identity hwTag
  rw [named_of_tag hi, named_of_tag hj, (identity_eq_iff_map hi hj).2 (by rw [h])]

end Version

/-! ## Rules -/

namespace Constraint

variable {a b : Version}

/-- The numbers of a pinned tag can be read; those of a range have been. -/
def IsReadable : Constraint → Prop
  | .exact wanted => wanted.IsReadable
  | .range _ | .branch _ | .any | .none => True

/-- A rule whose numbers can be read has an answer for every version with such numbers. -/
theorem IsReadable.answers {rule : Constraint} (h : rule.IsReadable) (ha : a.IsReadable) :
    ∃ allowed, rule.allows a = .ok allowed := by
  rw [allows_isOk]
  cases rule with
  | exact wanted => exact fun _ _ => ⟨ha, h⟩
  | range interval => exact ha
  | branch name => trivial
  | any => trivial
  | none => trivial

/-- A pin allows the versions that name what the pinned version names. -/
theorem allows_exact (ha : a.IsReadable) (hb : b.IsReadable) :
    (exact a).allows b = .ok true ↔ a.named = b.named := by
  rw [allows, sameVersion]
  rcases ha.identity?_cases with ⟨i, hi⟩ | hother
  · rcases hb.identity?_cases with ⟨j, hj⟩ | hbOther
    · rw [hi, hj, Version.named_of_tag hi, Version.named_of_tag hj]
      simp [bind, Except.bind, pure, Except.pure, eq_comm]
    · have hne : b ≠ a := by
        rintro rfl
        rw [hbOther] at hi
        cases hi
      rw [hbOther, Version.named_of_tag hi, Version.named_of_other hbOther]
      simp [hne]
  · have hnamed : a.named = b.named ↔ b = a :=
      ⟨fun h => (Version.eq_of_named_eq hb hother h).symm, fun h => by rw [h]⟩
    rw [hother, hnamed]
    cases b.identity? with
    | none => simp
    | some release => simp

/-- A rule has one answer for versions that name one thing. -/
theorem allows_congr (ha : a.IsReadable) (hb : b.IsReadable) (h : a.named = b.named)
    (rule : Constraint) : rule.allows a = rule.allows b := by
  rcases ha.identity?_cases with ⟨i, hi⟩ | hother
  · have hj := Version.identity?_of_named_eq hb hi h
    cases rule with
    | exact wanted =>
      rw [allows, allows, sameVersion, sameVersion, hi, hj]
      cases hwanted : wanted.identity? with
      | none =>
        -- a pin that is no tag is neither of the two
        have hne {v : Version} (hv : v.identity? = some (.ok i)) : v ≠ wanted := by
          rintro rfl
          rw [hwanted] at hv
          cases hv
        simp [hne hi, hne hj]
      | some release => rfl
    | range interval =>
      rw [allows, allows, Version.number?_of_identity? hi, Version.number?_of_identity? hj]
    | branch name =>
      simp [allows, Version.kind_of_identity? hi, Version.kind_of_identity? hj]
    | any => rfl
    | none => rfl
  · rw [Version.eq_of_named_eq hb hother h]

/-- **Versions that no rule tells apart.** On the versions whose numbers can be read, being allowed
    by the pin on the other is an equivalence, and a rule of any sort whose own numbers can be read
    has the same answer for two versions that are so related. Tags that differ in nothing but the
    blanks around them, the mark and the build metadata are. -/
theorem exact_equivalence :
    (Equivalence fun a b : {v : Version // v.IsReadable} => (exact a.1).allows b.1 = .ok true) ∧
    (∀ (rule : Constraint) (a b : {v : Version // v.IsReadable}), rule.IsReadable →
      (exact a.1).allows b.1 = .ok true →
      ∃ allowed, rule.allows a.1 = .ok allowed ∧ rule.allows b.1 = .ok allowed) ∧
    (∀ (rule : Constraint) (a b : {v : Version // v.IsReadable}), rule.IsReadable →
      a.1.kind = .semver → b.1.kind = .semver →
      Semver.releaseChars a.1.text = Semver.releaseChars b.1.text →
      (exact a.1).allows b.1 = .ok true ∧
        ∃ allowed, rule.allows a.1 = .ok allowed ∧ rule.allows b.1 = .ok allowed) := by
  have hsame (rule : Constraint) (a b : {v : Version // v.IsReadable}) (hrule : rule.IsReadable)
      (h : a.1.named = b.1.named) :
      ∃ allowed, rule.allows a.1 = .ok allowed ∧ rule.allows b.1 = .ok allowed := by
    obtain ⟨allowed, hallowed⟩ := hrule.answers a.2
    exact ⟨allowed, hallowed, by rw [← allows_congr a.2 b.2 h, hallowed]⟩
  refine ⟨⟨?_, ?_, ?_⟩, ?_, ?_⟩
  · intro a
    exact (allows_exact a.2 a.2).2 rfl
  · intro a b hab
    exact (allows_exact b.2 a.2).2 ((allows_exact a.2 b.2).1 hab).symm
  · intro a b c hab hbc
    exact (allows_exact a.2 c.2).2
      (((allows_exact a.2 b.2).1 hab).trans ((allows_exact b.2 c.2).1 hbc))
  · intro rule a b hrule hab
    exact hsame rule a b hrule ((allows_exact a.2 b.2).1 hab)
  · intro rule a b hrule ha hb htext
    have hnamed := Version.named_eq_of_releaseChars a.2 b.2 ha hb htext
    exact ⟨(allows_exact a.2 b.2).2 hnamed, hsame rule a b hrule hnamed⟩

/-- A pin does not tell a tag with a mark and build metadata from one behind a blank. -/
theorem exact_equivalence_marked : (Version.ofText "v1.2.3+b").IsReadable ∧
    (Version.ofText " 1.2.3").IsReadable ∧
    (exact (Version.ofText "v1.2.3+b")).allows (Version.ofText " 1.2.3") = .ok true ∧
    ∃ allowed, (exact (Version.ofText "1.2.4")).allows (Version.ofText "v1.2.3+b") = .ok allowed ∧
      (exact (Version.ofText "1.2.4")).allows (Version.ofText " 1.2.3") = .ok allowed := by
  have hread (text : Text) (h : text.length ≤ digitLimit) : (Version.ofText text).IsReadable :=
    Version.isReadable_of_length (by rwa [Version.text_ofText])
  have ha := hread "v1.2.3+b" (by decide)
  have hb := hread " 1.2.3" (by decide)
  have hpin := hread "1.2.4" (by decide)
  have htext : Semver.releaseChars (Version.ofText "v1.2.3+b").text =
      Semver.releaseChars (Version.ofText " 1.2.3").text := by decide +kernel
  exact ⟨ha, hb, exact_equivalence.2.2 (exact (Version.ofText "1.2.4")) ⟨_, ha⟩ ⟨_, hb⟩ hpin rfl rfl
    htext⟩

end Constraint

end LockFit
