import LockFit.Proofs.Satisfaction.Answers

/-
  Verdicts carry the result of a check.
  Of the verdicts on the locked projects only those that are a mismatch are seen in the result
  (`ofVerdicts_counted`). So two locks, project by project, have the same mismatches under two
  manifests as soon as the verdicts are the same and stand under the same roots where they are not
  `fits` (`ofLock_congr`).
-/

namespace LockFit

/-! ## One verdict -/

/-- A verdict looks at the root and the version of a project alone. -/
theorem Manifest.verdict_congr {m : Manifest} {effectual : TextSet} {p q : LockedProject}
    (hroot : p.root = q.root) (hversion : p.version = q.version) :
    m.verdict effectual p = m.verdict effectual q := by
  rw [verdict, verdict, hroot, hversion]

/-- Without an override a constraint that is not effectual is not looked at. -/
theorem Manifest.verdict_of_not_effectual {m : Manifest} {effectual : TextSet} {p : LockedProject}
    (hoverride : m.overrides.get? p.root = none) (h : p.root ∉ effectual) :
    m.verdict effectual p = .ok .fits := by
  rw [verdict, hoverride]
  cases m.constraints.get? p.root with
  | none => rfl
  | some rule => exact if_neg (by rwa [TextSet.contains_iff])

theorem Constraint.against_eq_fits {rule : Constraint} {version : Version}
    {broken : Mismatch → Verdict} (hbroken : ∀ mismatch, broken mismatch ≠ .fits) :
    rule.against version broken = .ok .fits ↔ rule.allows version = .ok true := by
  rw [against_eq_ok]
  refine ⟨?_, fun h => Or.inl ⟨h, rfl⟩⟩
  rintro (⟨h, -⟩ | ⟨-, h⟩)
  · exact h
  · exact absurd h.symm (hbroken _)

/-- A locked project fits exactly if the rule that counts for it, if any, allows its version. -/
theorem Manifest.verdict_eq_fits {m : Manifest} {reached : List Text} {p : LockedProject} :
    m.verdict (effectual (some m) (requiredImports (some m) reached).toList) p = .ok .fits ↔
      ∀ rule, m.Governs reached p.root rule → rule.allows p.version = .ok true := by
  rcases verdict_cases m reached p with ⟨rule, broken, hrule, hbroken, hverdict⟩ |
    ⟨hnone, hverdict⟩
  · rw [hverdict, Constraint.against_eq_fits hbroken]
    simp only [hrule, forall_eq]
  · exact iff_of_true hverdict fun rule h => absurd h (hnone rule)

/-! ## All verdicts -/

namespace Mismatches

/-- The verdicts that are a mismatch, with their roots. -/
def counted (verdicts : List (Text × Verdict)) : List (Text × Verdict) :=
  verdicts.filter fun e => e.2 ≠ .fits

theorem filterMap_counted (verdicts : List (Text × Verdict)) {f : Text × Verdict → Option β}
    (hfits : ∀ root, f (root, .fits) = none) :
    (counted verdicts).filterMap f = verdicts.filterMap f := by
  rw [counted, List.filterMap_filter]
  refine List.filterMap_congr fun e _ => ?_
  obtain ⟨root, v⟩ := e
  by_cases hv : v = .fits
  · subst hv
    simp [hfits]
  · simp [hv]

theorem ofVerdicts_counted (verdicts : List (Text × Verdict)) :
    ofVerdicts (counted verdicts) = ofVerdicts verdicts := by
  rw [ofVerdicts, ofVerdicts, filterMap_counted verdicts fun _ => rfl,
    filterMap_counted verdicts fun _ => rfl]

/-- The two projects have the same effect on a result: their verdicts are the same, and a verdict
    that is a mismatch stands under the same root. -/
def SameEffect (verdict verdict' : LockedProject → Except Text.NumeralTooLong Verdict)
    (p p' : LockedProject) : Prop :=
  verdict p = verdict' p' ∧ (p.root = p'.root ∨ verdict p = .ok .fits)

theorem counted_cons {r s : Text} {v : Verdict} {rest rest' : List (Text × Verdict)}
    (hroot : r = s ∨ v = .fits) (hrest : counted rest = counted rest') :
    counted ((r, v) :: rest) = counted ((s, v) :: rest') := by
  rw [counted, counted] at hrest
  rcases hroot with rfl | rfl
  · rw [counted, counted, List.filter_cons, List.filter_cons, hrest]
  · exact hrest

/-- The looks at two lists of projects go on in the same way if what follows sees no more of the
    verdicts than the mismatches among them. -/
theorem mapM_bind_congr {verdict verdict' : LockedProject → Except Text.NumeralTooLong Verdict}
    {ps ps' : List LockedProject} (h : List.Forall₂ (SameEffect verdict verdict') ps ps')
    {f f' : List (Text × Verdict) → Except Text.NumeralTooLong α}
    (hf : ∀ vs vs', counted vs = counted vs' → f vs = f' vs') :
    (ps.mapM fun p => (verdict p).map fun v => (p.root, v)) >>= f =
      (ps'.mapM fun p => (verdict' p).map fun v => (p.root, v)) >>= f' := by
  induction h generalizing f f' with
  | nil => exact hf [] [] rfl
  | @cons p p' ps ps' hfirst _ ih =>
    obtain ⟨hverdict, hroot⟩ := hfirst
    rw [List.mapM_cons, List.mapM_cons, ← hverdict, bind_assoc, bind_assoc]
    cases hv : verdict p with
    | error cause => rfl
    | ok v =>
      have hroot' : p.root = p'.root ∨ v = .fits :=
        hroot.imp_right fun hfits => Except.ok.inj (hv.symm.trans hfits)
      change (ps.mapM _ >>= fun vs => pure ((p.root, v) :: vs)) >>= f =
        (ps'.mapM _ >>= fun vs => pure ((p'.root, v) :: vs)) >>= f'
      rw [bind_assoc, bind_assoc]
      simp only [pure_bind]
      -- the first verdict is now part of what follows the others
      exact ih fun vs vs' hvs => hf _ _ (counted_cons hroot' hvs)

theorem ofLock_congr {lock lock' : Lock} {m m' : Manifest} {effectual effectual' : TextSet}
    (h : List.Forall₂ (SameEffect (m.verdict effectual) (m'.verdict effectual'))
      lock.projects lock'.projects) :
    ofLock lock (some m) effectual = ofLock lock' (some m') effectual' := by
  refine mapM_bind_congr h fun vs vs' hvs => ?_
  rw [← ofVerdicts_counted vs, hvs, ofVerdicts_counted]

end Mismatches

/-! ## The whole check -/

/-- A check has a result exactly if the look at the locked projects has one. -/
theorem Lock.satisfies_eq_ok {lock : Lock} {manifest : Option Manifest}
    {reach : ReachQuery → List Text} {s : Satisfaction} :
    (Lock.satisfies (some lock) manifest reach).outcome = .ok s ↔
      let required := Manifest.requiredImports manifest (reach (Manifest.reachQuery manifest))
      let recorded := TextSet.ofList lock.inputImports
      ∃ found, Mismatches.ofLock lock manifest (Manifest.effectual manifest required.toList) =
          .ok found ∧
        s = ⟨false, required.diff recorded, recorded.diff required, found.overrides,
          found.constraints⟩ := by
  rw [outcome_satisfies]
  dsimp only
  cases Mismatches.ofLock lock manifest (Manifest.effectual manifest
      (Manifest.requiredImports manifest (reach (Manifest.reachQuery manifest))).toList) with
  | error cause => simp [Except.map]
  | ok found => simp [Except.map, eq_comm]

/-- The two lists of imports of a result do not hang on any verdict. -/
theorem Lock.imports_of_satisfies {lock : Lock} {manifest : Option Manifest}
    {reach : ReachQuery → List Text} {s : Satisfaction}
    (h : (Lock.satisfies (some lock) manifest reach).outcome = .ok s) :
    let required := Manifest.requiredImports manifest (reach (Manifest.reachQuery manifest))
    s.missing = required.diff (.ofList lock.inputImports) ∧
      s.excess = (TextSet.ofList lock.inputImports).diff required := by
  obtain ⟨found, -, rfl⟩ := satisfies_eq_ok.1 h
  exact ⟨rfl, rfl⟩

end LockFit
