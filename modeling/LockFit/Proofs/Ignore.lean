import LockFit.Ignore
import LockFit.Proofs.Text.Split
import LockFit.Proofs.Text.Trim

/-
  Ignore rules and the patterns that write them.
  Read from patterns, the rules exclude what some pattern excludes by itself
  (`ignores_ofPatterns`): the literals that are dropped on the way are excluded by a start anyhow
  (`ignores_pruned`). What reading gives is in canonical form (`canonical_ofPatterns`), and rules in
  canonical form come back from their own patterns (`Canonical.ofPatterns_patterns`), although these
  are put in order with their stars and the starts without. Since sets have no order, neither the
  order of the patterns nor repetitions play a part (`ofPatterns_canonical`).
-/

namespace LockFit.IgnoreRules

open Text

/-! ## Stars -/

/-- There is a star at the end of the text. -/
def IsStarred (s : Text) : Prop := ∃ start, s = start ++ "*"

theorem beforeStar?_eq_some {s start : Text} :
    beforeStar? s = some start ↔ s = start ++ "*" := by
  have hstart : s = start ++ "*" ↔ s.toList.reverse = .scalar '*' :: start.toList.reverse := by
    rw [← Text.toList_inj, Text.toList_append, ← List.reverse_inj, List.reverse_append]
    rfl
  rw [hstart, beforeStar?]
  split
  · rename_i cs hcs
    rw [hcs, List.cons_inj_right, Option.some.injEq, ← Text.toList_inj, Text.toList_ofList,
      List.reverse_eq_iff]
  · rename_i hnone
    exact iff_of_false (by simp) (hnone _)

theorem beforeStar?_isNone {s : Text} : (beforeStar? s).isNone = true ↔ ¬ IsStarred s := by
  rw [Option.isNone_iff_eq_none, Option.eq_none_iff_forall_ne_some, IsStarred, not_exists]
  exact forall_congr' fun start => not_congr beforeStar?_eq_some

theorem append_star_ne_empty (start : Text) : start ++ "*" ≠ "" := by simp

/-! ## What rules exclude -/

/-- The pattern excludes the path: with the blanks around it taken off, the pattern is not empty,
    and either it ends in a star and the path starts with what stands before this star, or it does
    not and is the path. -/
def Excludes (pattern path : Text) : Prop :=
  trim pattern ≠ "" ∧
    ((∃ start, trim pattern = start ++ "*" ∧ ∃ rest, path = start ++ rest) ∨
      ¬ IsStarred (trim pattern) ∧ path = trim pattern)

theorem ignores_iff {rules : IgnoreRules} {path : Text} : rules.ignores path = true ↔
    path ∈ rules.literals ∨ ∃ start ∈ rules.starts, ∃ rest, path = start ++ rest := by
  simp only [ignores, Bool.or_eq_true, TextSet.contains_iff, List.any_eq_true,
    startsWith_iff_append]

/-- The rules without the literals that a start excludes. -/
def pruned (rules : IgnoreRules) : IgnoreRules :=
  ⟨rules.literals.filter fun l => !rules.starts.any fun s => startsWith s l, rules.starts⟩

theorem mem_literals_pruned {rules : IgnoreRules} {l : Text} : l ∈ rules.pruned.literals ↔
    l ∈ rules.literals ∧ ∀ start ∈ rules.starts, ¬ ∃ rest, l = start ++ rest := by
  rw [pruned, TextSet.mem_filter, Bool.not_eq_true', List.any_eq_false]
  simp only [startsWith_iff_append]

/-- A literal that a start excludes is excluded without it. -/
theorem ignores_pruned (rules : IgnoreRules) (path : Text) :
    rules.pruned.ignores path = rules.ignores path := by
  rw [Bool.eq_iff_iff, ignores_iff, ignores_iff, mem_literals_pruned]
  constructor
  · rintro (⟨hliteral, -⟩ | hstart)
    · exact Or.inl hliteral
    · exact Or.inr hstart
  · rintro (hliteral | hstart)
    · by_cases hstart : ∃ start ∈ rules.starts, ∃ rest, path = start ++ rest
      · exact Or.inr hstart
      · exact Or.inl ⟨hliteral, fun start hmem hrest => hstart ⟨start, hmem, hrest⟩⟩
    · exact Or.inr hstart

/-! ## Rules read from patterns -/

/-- All that the patterns write: their literals, excluded by a start or not, and their starts. -/
def written (patterns : List Text) : IgnoreRules :=
  let trimmed := (patterns.map trim).filter (· ≠ ("" : Text))
  ⟨TextSet.ofList (trimmed.filter fun p => (beforeStar? p).isNone),
    (TextSet.ofList (trimmed.filterMap beforeStar?)).toList⟩

variable {patterns : List Text} {path l start : Text}

theorem ofPatterns_eq_pruned (patterns : List Text) :
    ofPatterns patterns = (written patterns).pruned := rfl

theorem mem_literals_written : l ∈ (written patterns).literals ↔
    (∃ p ∈ patterns, trim p = l) ∧ l ≠ "" ∧ ¬ IsStarred l := by
  simp only [written, TextSet.mem_ofList, List.mem_filter, List.mem_map, beforeStar?_isNone,
    decide_eq_true_eq, and_assoc]

theorem mem_starts_written :
    start ∈ (written patterns).starts ↔ ∃ p ∈ patterns, trim p = start ++ "*" := by
  simp only [written, TextSet.mem_toList, TextSet.mem_ofList, List.mem_filterMap, List.mem_filter,
    List.mem_map, beforeStar?_eq_some, decide_eq_true_eq]
  constructor
  · rintro ⟨_, ⟨⟨p, hp, rfl⟩, -⟩, hstar⟩
    exact ⟨p, hp, hstar⟩
  · rintro ⟨p, hp, hstar⟩
    exact ⟨trim p, ⟨⟨p, hp, rfl⟩, hstar ▸ append_star_ne_empty start⟩, hstar⟩

theorem ignores_written :
    (written patterns).ignores path = true ↔ ∃ p ∈ patterns, Excludes p path := by
  rw [ignores_iff, mem_literals_written]
  simp only [mem_starts_written]
  constructor
  · rintro (⟨⟨p, hp, rfl⟩, hne, hstar⟩ | ⟨start, ⟨p, hp, hstar⟩, hrest⟩)
    · exact ⟨p, hp, hne, Or.inr ⟨hstar, rfl⟩⟩
    · exact ⟨p, hp, hstar ▸ append_star_ne_empty start, Or.inl ⟨start, hstar, hrest⟩⟩
  · rintro ⟨p, hp, hne, ⟨start, hstar, hrest⟩ | ⟨hstar, rfl⟩⟩
    · exact Or.inr ⟨start, ⟨p, hp, hstar⟩, hrest⟩
    · exact Or.inl ⟨⟨p, hp, rfl⟩, hne, hstar⟩

/-- **Rules exclude what their patterns exclude.** A path is ignored exactly if some pattern, blanks
    around it taken off, is not empty and either ends in a star and has before this star a start of
    the path, or does not and is the path. The literals that reading drops make no difference. -/
theorem ignores_ofPatterns (patterns : List Text) (path : Text) :
    ((ofPatterns patterns).ignores path = true ↔ ∃ p ∈ patterns, Excludes p path) ∧
    (ofPatterns patterns).ignores path = (written patterns).ignores path := by
  have hdropped : (ofPatterns patterns).ignores path = (written patterns).ignores path := by
    rw [ofPatterns_eq_pruned, ignores_pruned]
  exact ⟨hdropped ▸ ignores_written, hdropped⟩

/-- Only the last of two stars counts, and blanks around a pattern do not. -/
example : (ofPatterns [" a** ", "\t"]).ignores "a*b" = true ∧
    (ofPatterns [" a** ", "\t"]).ignores "ab" = false := by decide +kernel

/-! ## Canonical form -/

/-- Rules as reading leaves them: each is the trimmed pattern that writes it, no start excludes a
    literal, and the starts are in ascending order. -/
structure Canonical (rules : IgnoreRules) : Prop where
  trim_literal : ∀ l ∈ rules.literals, trim l = l
  nonempty : ∀ l ∈ rules.literals, l ≠ ""
  unstarred : ∀ l ∈ rules.literals, ¬ IsStarred l
  uncovered : ∀ l ∈ rules.literals, ∀ start ∈ rules.starts, ¬ ∃ rest, l = start ++ rest
  trim_start : ∀ start ∈ rules.starts, trim (start ++ "*") = start ++ "*"
  ascending : rules.starts.Pairwise (· < ·)

theorem canonical_ofPatterns (patterns : List Text) : (ofPatterns patterns).Canonical := by
  rw [ofPatterns_eq_pruned]
  constructor
  · intro l hl
    obtain ⟨⟨p, -, rfl⟩, -⟩ := mem_literals_written.1 (mem_literals_pruned.1 hl).1
    exact trim_idem p
  · exact fun l hl => (mem_literals_written.1 (mem_literals_pruned.1 hl).1).2.1
  · exact fun l hl => (mem_literals_written.1 (mem_literals_pruned.1 hl).1).2.2
  · exact fun l hl => (mem_literals_pruned.1 hl).2
  · intro start hstart
    obtain ⟨p, -, hstar⟩ := mem_starts_written.1 hstart
    rw [← hstar, trim_idem]
  · exact TextSet.ascending _

/-- Rules with the same literals and the same starts, in ascending order, are equal. -/
theorem ext_mem {rules rules' : IgnoreRules} (hasc : rules.starts.Pairwise (· < ·))
    (hasc' : rules'.starts.Pairwise (· < ·)) (hl : ∀ l, l ∈ rules.literals ↔ l ∈ rules'.literals)
    (hs : ∀ s, s ∈ rules.starts ↔ s ∈ rules'.starts) : rules = rules' := by
  cases rules
  cases rules'
  rw [mk.injEq]
  exact ⟨TextSet.ext_mem hl, TextSet.eq_of_ascending hasc hasc' hs⟩

theorem mem_patterns {rules : IgnoreRules} {p : Text} :
    p ∈ rules.patterns ↔ p ∈ rules.literals ∨ ∃ start ∈ rules.starts, start ++ "*" = p := by
  rw [patterns, List.mem_append, TextSet.mem_toList, sort, (sortOn_perm id _).mem_iff,
    List.mem_map]

theorem length_patterns (rules : IgnoreRules) : rules.patterns.length = rules.size := by
  rw [patterns, List.length_append, sort, (sortOn_perm id _).length_eq, List.length_map]
  rfl

/-- Each pattern is read as the rule that it writes, a literal not as a start nor the other way
    round, and no literal is dropped. -/
theorem Canonical.ofPatterns_patterns {rules : IgnoreRules} (h : rules.Canonical) :
    ofPatterns rules.patterns = rules := by
  have htrim : ∀ p ∈ rules.patterns, trim p = p := by
    intro p hp
    rcases mem_patterns.1 hp with hl | ⟨start, hstart, rfl⟩
    · exact h.trim_literal p hl
    · exact h.trim_start start hstart
  -- the patterns are trimmed already, so what they write is what they are
  have hwritten : ∀ p, (∃ q ∈ rules.patterns, trim q = p) ↔ p ∈ rules.patterns := fun p =>
    ⟨fun ⟨q, hq, hp⟩ => hp ▸ (htrim q hq).symm ▸ hq, fun hp => ⟨p, hp, htrim p hp⟩⟩
  have hstarts : ∀ start, start ∈ (written rules.patterns).starts ↔ start ∈ rules.starts := by
    intro start
    rw [mem_starts_written, hwritten, mem_patterns]
    constructor
    · rintro (hl | ⟨start', hstart', hstar⟩)
      · exact absurd ⟨start, rfl⟩ (h.unstarred _ hl)
      · exact (Text.append_left_inj "*").1 hstar ▸ hstart'
    · exact fun hstart => Or.inr ⟨start, hstart, rfl⟩
  refine ext_mem (canonical_ofPatterns _).ascending h.ascending (fun l => ?_) hstarts
  rw [ofPatterns_eq_pruned, mem_literals_pruned, mem_literals_written, hwritten, mem_patterns]
  constructor
  · rintro ⟨⟨hl | ⟨start, -, hstar⟩, -, hunstarred⟩, -⟩
    · exact hl
    · exact absurd ⟨start, hstar.symm⟩ hunstarred
  · intro hl
    exact ⟨⟨Or.inl hl, h.nonempty l hl, h.unstarred l hl⟩,
      fun start hstart => h.uncovered l hl start ((hstarts start).1 hstart)⟩

theorem ofPatterns_congr {others : List Text} (h : ∀ p, p ∈ others ↔ p ∈ patterns) :
    ofPatterns others = ofPatterns patterns := by
  have hstarts : ∀ start, start ∈ (written others).starts ↔ start ∈ (written patterns).starts := by
    intro start
    simp only [mem_starts_written, h]
  refine ext_mem (canonical_ofPatterns _).ascending (canonical_ofPatterns _).ascending
    (fun l => ?_) hstarts
  simp only [ofPatterns_eq_pruned, mem_literals_pruned, mem_literals_written, h, hstarts]

/-- **The patterns of rules are a canonical form.** Rules that were read from patterns are read
    again from their own patterns, and any patterns that differ in order and repetitions alone give
    the same rules. In these no literal is empty, ends in a star or has one of the starts, the
    starts are strictly ascending, and there are as many rules as patterns. -/
theorem ofPatterns_canonical (patterns : List Text) :
    ofPatterns (ofPatterns patterns).patterns = ofPatterns patterns ∧
    (∀ others : List Text, (∀ p, p ∈ others ↔ p ∈ patterns) →
      ofPatterns others = ofPatterns patterns) ∧
    (∀ l ∈ (ofPatterns patterns).literals, l ≠ "" ∧ ¬ IsStarred l ∧
      ∀ start ∈ (ofPatterns patterns).starts, ¬ ∃ rest, l = start ++ rest) ∧
    (ofPatterns patterns).starts.Pairwise (· < ·) ∧
    (ofPatterns patterns).size = (ofPatterns patterns).patterns.length := by
  have h : (ofPatterns patterns).Canonical := canonical_ofPatterns patterns
  exact ⟨h.ofPatterns_patterns, fun others => ofPatterns_congr,
    fun l hl => ⟨h.nonempty l hl, h.unstarred l hl, h.uncovered l hl⟩, h.ascending,
    (length_patterns _).symm⟩

/-- Patterns in another order, one of them twice. The starts `a` and `a!` come in this order, their
    patterns in the other one, since a star stands behind an exclamation mark. -/
theorem ofPatterns_canonical_overlapping :
    (∀ p : Text, p ∈ (["a!c", " b", "", "a!*\t", " b", "a*"] : List Text) ↔
      p ∈ (["a*", " b", "a!*\t", "a!c", ""] : List Text)) ∧
    ofPatterns ["a!c", " b", "", "a!*\t", " b", "a*"] =
      ofPatterns ["a*", " b", "a!*\t", "a!c", ""] ∧
    (ofPatterns ["a*", " b", "a!*\t", "a!c", ""]).starts = (["a", "a!"] : List Text) ∧
    (ofPatterns ["a*", " b", "a!*\t", "a!c", ""]).patterns =
      (["b", "a!*", "a*"] : List Text) ∧
    ofPatterns ["b", "a!*", "a*"] = ofPatterns ["a*", " b", "a!*\t", "a!c", ""] ∧
    ("b" : Text) ∈ (ofPatterns ["a*", " b", "a!*\t", "a!c", ""]).literals ∧ ¬ IsStarred "b" := by
  have hsame : ∀ p : Text, p ∈ (["a!c", " b", "", "a!*\t", " b", "a*"] : List Text) ↔
      p ∈ (["a*", " b", "a!*\t", "a!c", ""] : List Text) := by
    intro p
    simp only [List.mem_cons, List.not_mem_nil, or_false]
    tauto
  have hpatterns : (ofPatterns ["a*", " b", "a!*\t", "a!c", ""]).patterns =
      (["b", "a!*", "a*"] : List Text) := by
    decide +kernel
  have hliteral : ("b" : Text) ∈ (ofPatterns ["a*", " b", "a!*\t", "a!c", ""]).literals := by
    decide +kernel
  obtain ⟨hagain, hothers, hliterals, -⟩ :=
    ofPatterns_canonical ["a*", " b", "a!*\t", "a!c", ""]
  rw [hpatterns] at hagain
  exact ⟨hsame, hothers _ hsame, by decide +kernel, hpatterns, hagain, hliteral,
    (hliterals _ hliteral).2.1⟩

end LockFit.IgnoreRules
