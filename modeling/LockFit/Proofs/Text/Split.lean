import LockFit.Text.Blank
import Mathlib.Data.List.Basic

/-
  Texts cut at a separator or behind a start.
  The pieces of a text, joined again, are the text (`intercalate_split`), and pieces without the
  separator are the pieces of the text that they are joined to (`split_intercalate`). A piece is
  empty only at a separator that stands at an end or beside another one (`empty_mem_splitOn`). What
  follows a start of a text makes up the text with it (`afterStart?_eq_some`).
-/

namespace LockFit.Text

variable {sep c : Code} {cs piece : List Code}

theorem splitOn_cons_self (sep : Code) (cs : List Code) :
    (sep :: cs).splitOn sep = [] :: cs.splitOn sep := by
  rw [List.splitOn_cons_eq_if_modifyHead, if_pos (beq_self_eq_true sep)]

/-- Another character than the separator joins the first piece of what follows. -/
theorem exists_splitOn_cons (cs : List Code) (h : c ≠ sep) : ∃ first more,
    cs.splitOn sep = first :: more ∧ (c :: cs).splitOn sep = (c :: first) :: more := by
  obtain ⟨first, more, hcs⟩ := List.exists_cons_of_ne_nil (List.splitOn_ne_nil sep cs)
  have hne : ¬ (c == sep) = true := by simpa using h
  refine ⟨first, more, hcs, ?_⟩
  rw [List.splitOn_cons_eq_if_modifyHead, if_neg hne, hcs, List.modifyHead_cons]

theorem splitChars_eq_splitOn (sep : Code) (cs : List Code) :
    splitChars sep cs = cs.splitOn sep := by
  induction cs with
  | nil => rfl
  | cons c cs ih =>
    rw [splitChars, ih]
    by_cases hc : c = sep
    · rw [if_pos hc, hc, splitOn_cons_self]
    · obtain ⟨first, more, hcs, hccs⟩ := exists_splitOn_cons cs hc
      rw [if_neg hc, hcs, hccs]

theorem intercalate_append {ls ms : List (List Code)} (hl : ls ≠ []) (hm : ms ≠ []) :
    [sep].intercalate (ls ++ ms) = [sep].intercalate ls ++ sep :: [sep].intercalate ms := by
  induction ls with
  | nil => exact absurd rfl hl
  | cons l ls ih =>
    cases ls with
    | nil => simp [List.intercalate_cons_of_ne_nil hm]
    | cons k ls =>
      have hne : k :: ls ++ ms ≠ [] := by simp
      rw [List.cons_append, List.intercalate_cons_of_ne_nil hne, ih (List.cons_ne_nil k ls),
        List.intercalate_cons_cons]
      simp

/-- All pieces are empty where there is nothing but separators. -/
theorem forall_mem_splitOn_eq_nil :
    (∀ piece ∈ cs.splitOn sep, piece = []) ↔ ∀ c ∈ cs, c = sep := by
  induction cs with
  | nil => simp
  | cons c cs ih =>
    by_cases hc : c = sep
    · rw [hc, splitOn_cons_self, List.forall_mem_cons, List.forall_mem_cons, ih]
      simp
    · obtain ⟨first, more, -, hccs⟩ := exists_splitOn_cons cs hc
      simp [hccs, hc]

/-- No separator stands in a piece. -/
theorem notMem_of_mem_splitOn (h : piece ∈ cs.splitOn sep) : sep ∉ piece := by
  induction cs generalizing piece with
  | nil =>
    rw [List.splitOn_nil, List.mem_singleton] at h
    simp [h]
  | cons c cs ih =>
    by_cases hc : c = sep
    · rw [hc, splitOn_cons_self, List.mem_cons] at h
      rcases h with h | h
      · simp [h]
      · exact ih h
    · obtain ⟨first, more, hcs, hccs⟩ := exists_splitOn_cons cs hc
      rw [hccs, List.mem_cons] at h
      rw [hcs] at ih
      rcases h with h | h
      · have hfirst : sep ∉ first := ih List.mem_cons_self
        rw [h, List.mem_cons, not_or]
        exact ⟨Ne.symm hc, hfirst⟩
      · exact ih (List.mem_cons_of_mem first h)

/-- A piece is empty only where a separator stands at an end or beside another one. -/
theorem empty_mem_splitOn (h : [] ∈ cs.splitOn sep) :
    cs = [] ∨ [sep] <+: cs ∨ [sep] <:+ cs ∨ [sep, sep] <:+: cs := by
  obtain ⟨before, after, hpieces⟩ := List.append_of_mem h
  have hcs : cs = [sep].intercalate (before ++ [] :: after) := by
    rw [← hpieces, List.intercalate_splitOn]
  by_cases hbefore : before = []
  · by_cases hafter : after = []
    · left
      simpa [hbefore, hafter] using hcs
    · right; left
      rw [hcs, hbefore, List.nil_append, List.intercalate_cons_of_ne_nil hafter]
      simp
  · rw [intercalate_append hbefore (List.cons_ne_nil [] after)] at hcs
    by_cases hafter : after = []
    · right; right; left
      rw [hcs, hafter]
      simp
    · right; right; right
      rw [hcs, List.intercalate_cons_of_ne_nil hafter]
      exact ⟨[sep].intercalate before, [sep].intercalate after, by simp⟩

/-! ## Pieces as texts -/

theorem split_eq_map (sep : Code) (s : Text) :
    split sep s = (s.toList.splitOn sep).map Text.ofList := by
  rw [split, splitChars_eq_splitOn]

theorem split_ne_nil (sep : Code) (s : Text) : split sep s ≠ [] := by
  rw [split_eq_map]
  simp

theorem notMem_of_mem_split {sep : Code} {s piece : Text} (h : piece ∈ split sep s) :
    sep ∉ piece.toList := by
  rw [split_eq_map] at h
  obtain ⟨chars, hchars, rfl⟩ := List.mem_map.1 h
  rw [Text.toList_ofList]
  exact notMem_of_mem_splitOn hchars

theorem intercalate_split (sep : Code) (s : Text) :
    (Text.ofList [sep]).intercalate (split sep s) = s := by
  apply Text.toList_inj.1
  have hid : Text.toList ∘ Text.ofList = id := funext fun cs => Text.toList_ofList
  rw [Text.toList_intercalate, split_eq_map, List.map_map, hid, List.map_id, Text.toList_ofList]
  exact List.intercalate_splitOn sep

theorem split_intercalate {sep : Code} {pieces : List Text} (hne : pieces ≠ [])
    (hsep : ∀ piece ∈ pieces, sep ∉ piece.toList) :
    split sep ((Text.ofList [sep]).intercalate pieces) = pieces := by
  have hid : Text.ofList ∘ Text.toList = id := funext fun s => Text.ofList_toList
  rw [split_eq_map, Text.toList_intercalate, Text.toList_ofList,
    List.splitOn_intercalate sep (by simpa using hsep) (by simpa using hne), List.map_map, hid,
    List.map_id]

theorem split_append (sep : Code) (left right : Text) :
    split sep (left ++ Text.ofList [sep] ++ right) = split sep left ++ split sep right := by
  have hchars : (left ++ Text.ofList [sep] ++ right).toList =
      left.toList ++ sep :: right.toList := by simp
  rw [split_eq_map, hchars, List.splitOn_append_cons_self, List.map_append, ← split_eq_map,
    ← split_eq_map]

/-! ## Starts of texts -/

theorem startsWith_iff_append {start s : Text} :
    startsWith start s = true ↔ ∃ rest, s = start ++ rest := by
  rw [startsWith_iff]
  constructor
  · rintro ⟨rest, hrest⟩
    exact ⟨Text.ofList rest, Text.toList_inj.1 (by simp [← hrest])⟩
  · rintro ⟨rest, rfl⟩
    exact ⟨rest.toList, by simp⟩

theorem afterStart?_eq_some {start s rest : Text} :
    afterStart? start s = some rest ↔ s = start ++ rest := by
  have hdrop (tail : Text) :
      Text.ofList ((start ++ tail).toList.drop start.toList.length) = tail := by
    rw [Text.toList_append, List.drop_left, Text.ofList_toList]
  rw [afterStart?]
  constructor
  · intro h
    split at h
    · rename_i hstart
      obtain ⟨tail, rfl⟩ := startsWith_iff_append.1 hstart
      rw [hdrop] at h
      rw [Option.some.inj h]
    · cases h
  · intro h
    have hstart : startsWith start s = true := startsWith_iff_append.2 ⟨rest, h⟩
    rw [if_pos hstart, h, hdrop]

/-- A text that begins with another character does not have the start. -/
theorem afterStart?_eq_none {start s : Text} {c d : Code} {cs ds : List Code}
    (hstart : start.toList = c :: cs) (hs : s.toList = d :: ds) (h : c ≠ d) :
    afterStart? start s = none := by
  rw [Option.eq_none_iff_forall_ne_some]
  intro rest hrest
  have hchars := congrArg Text.toList (afterStart?_eq_some.1 hrest)
  rw [hs, Text.toList_append, hstart, List.cons_append] at hchars
  exact h (List.cons_eq_cons.1 hchars).1.symm

end LockFit.Text
