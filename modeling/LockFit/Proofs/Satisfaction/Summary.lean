import LockFit.Proofs.Json.RoundTrip
import LockFit.Satisfaction.Basic

/-
  The summary of a check.
  A summary is an object of truth values, texts and mismatches, so what is printed of a result is
  read back as its summary (`Satisfaction.read_print_toJson`). Reading may join halves in the texts
  but empties no list and no object. A summary that finds nothing to object to
  (`Json.FindsNothing`) is that of a check that passes (`Satisfaction.exists_members`).
-/

namespace LockFit

/-- The members of a summary tell of a lock and of no disagreement. -/
def Json.FindsNothing (members : List (Text × Json)) : Prop :=
  find? "no_lock" members = some (.bool false) ∧
  find? "missing_imports" members = some (.list []) ∧
  find? "excess_imports" members = some (.list []) ∧
  find? "unmatched_overrides" members = some (.object []) ∧
  find? "unmatched_constraints" members = some (.object [])

namespace Satisfaction

open Json

variable {s : Satisfaction}

/-! ## Reading a summary -/

theorem document_textsToJson (texts : TextSet) : Document 2 (textsToJson texts) := by
  refine .list fun v hv => ?_
  obtain ⟨text, -, rfl⟩ := List.mem_map.1 hv
  exact .text 1 text

theorem document_mismatchesToJson (m : TextMap Mismatch) : Document 2 (mismatchesToJson m) := by
  refine .object fun member hmember => ?_
  obtain ⟨⟨root, mismatch⟩, -, rfl⟩ := List.mem_map.1 hmember
  refine .object fun field hfield => ?_
  simp only [List.mem_cons, List.not_mem_nil, or_false] at hfield
  rcases hfield with rfl | rfl | rfl
  · exact .text 0 _
  · exact .text 0 _
  · exact .text 0 _

theorem document_toJson (s : Satisfaction) : Document 3 s.toJson := by
  refine .object fun member hmember => ?_
  simp only [List.mem_cons, List.not_mem_nil, or_false] at hmember
  rcases hmember with rfl | rfl | rfl | rfl | rfl | rfl
  · exact .bool 2 _
  · exact .bool 2 _
  · exact document_textsToJson _
  · exact document_textsToJson _
  · exact document_mismatchesToJson _
  · exact document_mismatchesToJson _

/-- A summary is read back, also with the end of its last line. -/
theorem read_print_toJson (s : Satisfaction) (layout : Layout) :
    Json.read (print layout s.toJson ++ "\n") = .ok s.toJson.reread :=
  s.document_toJson.read_print_append (by decide) layout (List.forall_mem_singleton.2 rfl)

/-! ## What a summary says -/

theorem reread_textsToJson_eq_nil {texts : TextSet} :
    (textsToJson texts).reread = .list [] ↔ texts.isEmpty = true := by
  rw [textsToJson, reread_list, Json.list.injEq, List.map_eq_nil_iff, List.map_eq_nil_iff,
    TextSet.isEmpty, List.isEmpty_iff]

theorem reread_mismatchesToJson_eq_nil {m : TextMap Mismatch} :
    (mismatchesToJson m).reread = .object [] ↔ m.isEmpty = true := by
  rw [mismatchesToJson, reread, Json.object.injEq, rereadMembers_eq_nil, List.map_eq_nil_iff,
    TextMap.isEmpty, List.isEmpty_iff]
  exact and_iff_right rfl

/-- A summary that was read says whether the check passes, and that is so if it finds nothing. -/
theorem exists_members (s : Satisfaction) : ∃ members, s.toJson.reread = .object members ∧
    find? "passed" members = some (.bool s.passed) ∧
    (s.passed = true ↔ FindsNothing members) := by
  refine ⟨_, reread_object (by simp [Text.unpaired_ofString]) (by simp), rfl, ?_⟩
  change s.passed = true ↔ some (Json.bool s.noLock) = some (Json.bool false) ∧
    some (textsToJson s.missing).reread = some (Json.list []) ∧
    some (textsToJson s.excess).reread = some (Json.list []) ∧
    some (mismatchesToJson s.overrides).reread = some (Json.object []) ∧
    some (mismatchesToJson s.constraints).reread = some (Json.object [])
  simp only [passed, Option.some.injEq, Json.bool.injEq, reread_textsToJson_eq_nil,
    reread_mismatchesToJson_eq_nil, Bool.and_eq_true, Bool.not_eq_true', and_assoc]

end Satisfaction

end LockFit
