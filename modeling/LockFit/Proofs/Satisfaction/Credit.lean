import LockFit.Proofs.Satisfaction.Inert

/-
  One more constraint.
  A root that is added to others, at any place among them, is the longest one for some paths and
  changes nothing for the rest: another root that a path falls under it fell under before
  (`IsLongestRoot.of_added`), and where a path falls under another root than before, that is the
  added one, and the root of before is a start of it (`IsLongestRoot.moved`). For the constraints of
  a manifest this means that the effectual roots lose what goes to the added root and gain that root
  alone (`effectual_added`). It holds too where the added root has the segments of one that is
  there, which it replaces if it is declared behind it.
-/

namespace LockFit

open ImportPath

/-! ## One path -/

section

variable {before after : List Text} {added path root : Text}

/-- A path that falls under another root than the added one did so without it. -/
theorem IsLongestRoot.of_added (h : IsLongestRoot (before ++ added :: after) path root)
    (hnodup : (before ++ added :: after).Nodup) (hne : root ≠ added) :
    IsLongestRoot (before ++ after) path root := by
  have hroot : root ∈ before ++ after := by
    have hmem : root ∈ before ++ added :: after := h.mem
    rw [List.mem_append, List.mem_cons] at hmem
    rw [List.mem_append]
    exact hmem.imp_right fun hafter => hafter.resolve_left hne
  exact h.of_sublist ((List.sublist_cons_self added after).append_left before) hnodup hroot

/-- A path that no longer falls under its root falls under the added one, and the root has no
    segment that this one does not start with. -/
theorem IsLongestRoot.moved (h : IsLongestRoot (before ++ after) path root)
    (hnodup : (before ++ added :: after).Nodup)
    (hmoved : ¬ IsLongestRoot (before ++ added :: after) path root) :
    IsLongestRoot (before ++ added :: after) path added ∧ segments root <+: segments added := by
  have hroot : root ∈ before ++ added :: after :=
    ((List.sublist_cons_self added after).append_left before).mem h.mem
  obtain ⟨longest, hlongest⟩ := exists_isLongestRoot hroot h.nonempty h.covers
  -- any other root was there before and was not the longest one
  have hadded : longest = added := by
    by_contra hne
    have hsame : root = longest := h.unique (hlongest.of_added hnodup hne)
    exact hmoved (hsame ▸ hlongest)
  subst hadded
  refine ⟨hlongest, List.prefix_of_prefix_length_le h.covers hlongest.covers ?_⟩
  exact hlongest.longest root hroot h.covers

end

/-! ## All imports -/

/-- The roots of a section, and those of the section that is accepted with one more entry. -/
theorem Rules.roots_added {rules rules' : Rules} {before after : List (Text × Constraint)}
    {part : RuleSection} {added : Text} {rule : Constraint}
    (h : rules.entries = before ++ after)
    (h' : ofEntries part (before ++ (added, rule) :: after) = .ok rules') :
    rules.roots = before.map Prod.fst ++ after.map Prod.fst ∧
    rules'.roots = before.map Prod.fst ++ dropSlashes added :: after.map Prod.fst := by
  have hkept : ∀ es ⊆ rules.entries, es.map (fun e => dropSlashes e.1) = es.map Prod.fst :=
    fun es hes => List.map_congr_left fun e he => (rules.proper e (hes he)).2
  have hbefore := hkept before (h ▸ List.subset_append_left before after)
  have hafter := hkept after (h ▸ List.subset_append_right before after)
  rw [roots, h, List.map_append, roots_of_ofEntries h', List.map_append, List.map_cons, hbefore,
    hafter]
  exact ⟨rfl, rfl⟩

/-- **An added constraint takes credit and gives none.** If a manifest still is accepted with one
    more constraint, anywhere among the others, then no other root becomes effectual, and a root
    that no longer is has segments that those of the added root start with, and this one is
    effectual in its place. -/
theorem effectual_added (m m' : Manifest) (before after : List (Text × Constraint))
    (added : Text) (rule : Constraint) (imports : List Text)
    (hm : m.constraints.entries = before ++ after)
    (hm' : Manifest.ofRules m.overrides.entries (before ++ (added, rule) :: after) m.ignored
      m.required.toList = .ok m') :
    (∀ root ∈ Manifest.effectual (some m') imports,
      root ∈ Manifest.effectual (some m) imports ∨ root = dropSlashes added) ∧
    ∀ root ∈ Manifest.effectual (some m) imports, root ∉ Manifest.effectual (some m') imports →
      segments root <+: segments added ∧
      dropSlashes added ∈ Manifest.effectual (some m') imports := by
  obtain ⟨hroots, hroots'⟩ := Rules.roots_added hm (Manifest.ofRules_eq_ok.1 hm').2.1
  have hnodup : (before.map Prod.fst ++ dropSlashes added :: after.map Prod.fst).Nodup :=
    hroots' ▸ m'.constraints.distinct
  simp only [Manifest.mem_effectual, hroots, hroots']
  constructor
  · rintro root ⟨x, hx, hlongest⟩
    by_cases hne : root = dropSlashes added
    · exact Or.inr hne
    · exact Or.inl ⟨x, hx, hlongest.of_added hnodup hne⟩
  · rintro root ⟨x, hx, hlongest⟩ hlost
    obtain ⟨hadded, hstart⟩ := hlongest.moved hnodup fun hkept => hlost ⟨x, hx, hkept⟩
    rw [segments_dropSlashes] at hstart
    exact ⟨hstart, x, hx, hadded⟩

/-- The root that is added has the segments of one that is there and is declared behind it. It takes
    the credit of this root, leaves the shorter one what it has and gives none to the longer one. -/
theorem effectual_added_equivalent :
    let before : List (Text × Constraint) := [("a", .any), ("a/b", .none)]
    let after : List (Text × Constraint) := [("a/b/c/d", .any)]
    let imports : List Text := ["a/b/c", "a/x", "d"]
    ∃ m m', Manifest.ofRules [] (before ++ after) .empty [] = .ok m ∧
      m.constraints.entries = before ++ after ∧
      Manifest.ofRules m.overrides.entries (before ++ (("a//b/" : Text), .any) :: after) m.ignored
        m.required.toList = .ok m' ∧
      (Manifest.effectual (some m) imports).toList = (["a", "a/b"] : List Text) ∧
      (Manifest.effectual (some m') imports).toList = (["a", "a//b"] : List Text) ∧
      (∀ root ∈ Manifest.effectual (some m') imports,
        root ∈ Manifest.effectual (some m) imports ∨ root = dropSlashes "a//b/") ∧
      segments "a/b" <+: segments "a//b/" := by
  intro before after imports
  obtain ⟨m, m', hm, hentries, hm', heffectual, heffectual'⟩ : ∃ m m',
      Manifest.ofRules [] (before ++ after) .empty [] = .ok m ∧
      m.constraints.entries = before ++ after ∧
      Manifest.ofRules m.overrides.entries (before ++ (("a//b/" : Text), .any) :: after) m.ignored
        m.required.toList = .ok m' ∧
      (Manifest.effectual (some m) imports).toList = (["a", "a/b"] : List Text) ∧
      (Manifest.effectual (some m') imports).toList = (["a", "a//b"] : List Text) :=
    ⟨_, _, rfl, rfl, rfl, by decide +kernel, by decide +kernel⟩
  obtain ⟨hgained, hlost⟩ := effectual_added m m' before after "a//b/" .any imports hentries hm'
  refine ⟨m, m', hm, hentries, hm', heffectual, heffectual', hgained, (hlost "a/b" ?_ ?_).1⟩
  · rw [← TextSet.mem_toList, heffectual]
    decide
  · rw [← TextSet.mem_toList, heffectual']
    decide

end LockFit
