import LockFit.Text.Blank
import Mathlib.Data.List.DropRight
import Mathlib.Data.List.TakeWhile

/-
  Trimmed texts.
  Trimming leaves a text whose first and last characters are no blanks (`head?_trimChars`,
  `getLast?_trimChars`), and such a text it leaves alone (`trimChars_eq_self`). So a second trimming
  changes nothing (`trimChars_idem`), and blanks that are put around a text are taken away with its
  own (`trimChars_surround`).
-/

namespace LockFit.Text

variable {p : Code → Bool} {cs : List Code}

theorem dropWhile_eq_self (h : ∀ c ∈ cs.head?, p c = false) : cs.dropWhile p = cs := by
  cases cs with
  | nil => rfl
  | cons c cs => exact List.dropWhile_cons_of_neg (by simp [h c rfl])

theorem head?_dropWhile : ∀ c ∈ (cs.dropWhile p).head?, p c = false := by
  intro c hc
  have hhead := List.head?_dropWhile_not p cs
  rw [Option.mem_def.1 hc] at hhead
  exact hhead

theorem dropEndWhile_eq_self (h : ∀ c ∈ cs.getLast?, p c = false) : dropEndWhile p cs = cs := by
  rw [← List.head?_reverse] at h
  rw [dropEndWhile, dropWhile_eq_self h, List.reverse_reverse]

theorem getLast?_dropEndWhile : ∀ c ∈ (dropEndWhile p cs).getLast?, p c = false := by
  rw [dropEndWhile, List.getLast?_reverse]
  exact head?_dropWhile

theorem dropEndWhile_prefix (p : Code → Bool) (cs : List Code) : dropEndWhile p cs <+: cs :=
  List.rdropWhile_prefix p cs

/-- What is dropped is the run at the end. -/
theorem dropEndWhile_append_rtakeWhile (p : Code → Bool) (cs : List Code) :
    dropEndWhile p cs ++ cs.rtakeWhile p = cs :=
  List.rdropWhile_append_rtakeWhile

/-- Trimming leaves nothing that was not there. -/
theorem sublist_trimChars (cs : List Code) : (trimChars cs).Sublist cs := by
  have hend : trimChars cs <+: cs.dropWhile isBlank := dropEndWhile_prefix isBlank _
  exact hend.sublist.trans (List.dropWhile_suffix isBlank).sublist

theorem length_trim_le (s : Text) : (trim s).length ≤ s.length := by
  rw [← Text.length_toList, ← Text.length_toList, toList_trim]
  exact (sublist_trimChars s.toList).length_le

/-- A trimmed text does not start with a blank. -/
theorem head?_trimChars : ∀ c ∈ (trimChars cs).head?, isBlank c = false := by
  intro c hc
  have htrimmed : (dropEndWhile isBlank (cs.dropWhile isBlank)).head? = some c := hc
  obtain ⟨rest, hrest⟩ := dropEndWhile_prefix isBlank (cs.dropWhile isBlank)
  have hhead : (cs.dropWhile isBlank).head? = some c := by
    rw [← hrest, List.head?_append, htrimmed]
    rfl
  exact head?_dropWhile c hhead

/-- A trimmed text does not end with a blank. -/
theorem getLast?_trimChars : ∀ c ∈ (trimChars cs).getLast?, isBlank c = false :=
  getLast?_dropEndWhile

theorem trimChars_eq_self (hfirst : ∀ c ∈ cs.head?, isBlank c = false)
    (hlast : ∀ c ∈ cs.getLast?, isBlank c = false) : trimChars cs = cs := by
  rw [trimChars, dropWhile_eq_self hfirst, dropEndWhile_eq_self hlast]

theorem trimChars_idem (cs : List Code) : trimChars (trimChars cs) = trimChars cs :=
  trimChars_eq_self head?_trimChars getLast?_trimChars

/-- A trimmed text stays trimmed behind another one that starts with no blank. -/
theorem trimChars_append {start : List Code} {c : Code} {rest : List Code}
    (hstart : start = c :: rest) (hblank : isBlank c = false) (hne : cs ≠ [])
    (hcs : trimChars cs = cs) : trimChars (start ++ cs) = start ++ cs := by
  refine trimChars_eq_self (fun d hd => ?_) fun d hd => ?_
  · rw [hstart] at hd
    obtain rfl : c = d := Option.some.inj hd
    exact hblank
  · have hlast : d ∈ cs.getLast? := by
      rw [List.getLast?_append, List.getLast?_eq_some_getLast hne] at hd
      rw [List.getLast?_eq_some_getLast hne]
      exact hd
    rw [← hcs] at hlast
    exact getLast?_trimChars d hlast

theorem trim_idem (s : Text) : trim (trim s) = trim s := by
  rw [← Text.toList_inj, toList_trim, toList_trim, trimChars_idem]

theorem trim_append {start s : Text} {c : Code} {rest : List Code}
    (hstart : start.toList = c :: rest) (hblank : isBlank c = false) (hne : s ≠ "")
    (hs : trim s = s) : trim (start ++ s) = start ++ s := by
  have hchars : trimChars s.toList = s.toList := by rw [← toList_trim, hs]
  have hnil : s.toList ≠ [] := fun h => hne (Text.toList_inj.1 h)
  rw [← Text.toList_inj, toList_trim, Text.toList_append,
    trimChars_append hstart hblank hnil hchars]

/-! ## Blanks around a text -/

theorem dropEndWhile_append {tail : List Code} (h : ∀ c ∈ tail, p c = true) :
    dropEndWhile p (cs ++ tail) = dropEndWhile p cs := by
  have hreverse : ∀ c ∈ tail.reverse, p c = true := fun c hc => h c (List.mem_reverse.1 hc)
  rw [dropEndWhile, List.reverse_append, List.dropWhile_append_of_pos hreverse, dropEndWhile]

/-- Nothing is left of blanks. -/
theorem trimChars_of_blank (h : ∀ c ∈ cs, isBlank c = true) : trimChars cs = [] := by
  rw [trimChars, List.dropWhile_eq_nil_iff.2 h]
  rfl

/-- Blanks around a text do not count. -/
theorem trimChars_surround {before after : List Code} (hbefore : ∀ c ∈ before, isBlank c = true)
    (hafter : ∀ c ∈ after, isBlank c = true) (cs : List Code) :
    trimChars (before ++ (cs ++ after)) = trimChars cs := by
  rw [trimChars, List.dropWhile_append_of_pos hbefore, List.dropWhile_append]
  split
  · -- nothing but blanks
    rename_i hblank
    rw [List.dropWhile_eq_nil_iff.2 hafter, trimChars, List.isEmpty_iff.1 hblank]
  · rw [dropEndWhile_append hafter, trimChars]

/-- A text is its trimmed form with blanks around it. -/
theorem exists_surround (cs : List Code) : ∃ before after, cs = before ++ (trimChars cs ++ after) ∧
    (∀ c ∈ before, isBlank c = true) ∧ ∀ c ∈ after, isBlank c = true := by
  refine ⟨cs.takeWhile isBlank, (cs.dropWhile isBlank).rtakeWhile isBlank, ?_,
    fun c hc => List.mem_takeWhile_imp hc, fun c hc => List.mem_rtakeWhile_imp hc⟩
  rw [trimChars, dropEndWhile_append_rtakeWhile, List.takeWhile_append_dropWhile]

end LockFit.Text
