import LockFit.CommandLine.Standard
import LockFit.Proofs.Json.Plain
import LockFit.Proofs.Outcome
import LockFit.Proofs.Satisfaction.Summary
import Mathlib.Data.List.TakeWhile

/-
  What can be printed.
  Of the libraries nothing is asked but what they are documented to do (`Libraries.Prints`). Then
  JSON is always printed, since it is plain ASCII, and so is what is said of a lock that fits; of a
  failure it is told in words only if its message has no halves (`Prints.showFailure_isOk`). The
  libraries that the program runs with print in this way (`Libraries.standard_prints`).
-/

namespace LockFit

/-- The failure is reported, and what is said of it can be printed. -/
def Failure.IsTold (format : CommandLine.Format) (f : Failure) : Prop :=
  f.isReported = true ∧ (format = .json ∨ f.message.IsScalar)

instance (format : CommandLine.Format) (f : Failure) : Decidable (f.IsTold format) :=
  inferInstanceAs (Decidable (_ ∧ (_ ∨ _)))

/-! ## Control sequences -/

namespace Text

theorem isScalar_of_isEscapeParameter {c : Code} (h : isEscapeParameter c = true) :
    c.isScalar = true := by
  simp only [isEscapeParameter, Bool.and_eq_true, decide_eq_true_eq] at h
  exact Code.isScalar_of_le (Code.le_trans h.2 (by decide))

theorem isScalar_of_isEscapeIntermediate {c : Code} (h : isEscapeIntermediate c = true) :
    c.isScalar = true := by
  simp only [isEscapeIntermediate, Bool.and_eq_true, decide_eq_true_eq] at h
  exact Code.isScalar_of_le (Code.le_trans h.2 (by decide))

theorem isScalar_of_isEscapeFinal {c : Code} (h : isEscapeFinal c = true) : c.isScalar = true := by
  simp only [isEscapeFinal, Bool.and_eq_true, decide_eq_true_eq] at h
  exact Code.isScalar_of_le h.2

/-- A control sequence has no halves. -/
theorem isScalar_of_afterEscape? {cs rest : List Code} (h : afterEscape? cs = some rest) :
    ∃ seq, cs = seq ++ rest ∧ ∀ c ∈ seq, c.isScalar = true := by
  unfold afterEscape? at h
  split at h
  · rename_i tail
    split at h
    · rename_i c after hafter
      split at h
      · rename_i hfinal
        obtain rfl := Option.some.inj h
        refine ⟨.scalar '\x1b' :: .scalar '[' :: (tail.takeWhile isEscapeParameter ++
          ((tail.dropWhile isEscapeParameter).takeWhile isEscapeIntermediate ++ [c])), ?_, ?_⟩
        · simp only [List.cons_append, List.append_assoc, List.nil_append]
          rw [← hafter, List.takeWhile_append_dropWhile, List.takeWhile_append_dropWhile]
        · simp only [List.forall_mem_cons, List.forall_mem_append]
          exact ⟨rfl, rfl,
            fun d hd => isScalar_of_isEscapeParameter (List.mem_takeWhile_imp hd),
            fun d hd => isScalar_of_isEscapeIntermediate (List.mem_takeWhile_imp hd),
            isScalar_of_isEscapeFinal hfinal, fun d hd => absurd hd List.not_mem_nil⟩
      · cases h
    · cases h
  · cases h

/-- Leaving control sequences out removes no halves. -/
theorem isScalar_dropEscapes {s : Text} : s.dropEscapes.IsScalar ↔ s.IsScalar := by
  have hdrop (fuel : Nat) (cs : List Code) : (∀ c ∈ dropEscapeChars fuel cs, c.isScalar = true) ↔
      ∀ c ∈ cs, c.isScalar = true := by
    fun_induction dropEscapeChars fuel cs with
    | case1 | case2 => exact Iff.rfl
    | case3 fuel c cs rest hrest ih =>
      obtain ⟨seq, hseq, hscalar⟩ := isScalar_of_afterEscape? hrest
      rw [ih, hseq, List.forall_mem_append]
      exact (and_iff_right hscalar).symm
    | case4 fuel c cs _ ih => rw [List.forall_mem_cons, List.forall_mem_cons, ih]
  exact hdrop _ _

/-- Without the escape character there is no control sequence. -/
theorem dropEscapes_eq_self {s : Text} (h : Code.scalar '\x1b' ∉ s.toList) :
    s.dropEscapes = s := by
  have hdrop (fuel : Nat) {cs : List Code} (h : Code.scalar '\x1b' ∉ cs) :
      dropEscapeChars fuel cs = cs := by
    fun_induction dropEscapeChars fuel cs with
    | case1 | case2 => rfl
    | case3 fuel c cs rest hrest ih =>
      unfold afterEscape? at hrest
      split at hrest
      · rename_i heq
        exact absurd (heq ▸ List.mem_cons_self) h
      · cases hrest
    | case4 fuel c cs _ ih => rw [ih fun hmem => h (List.mem_cons_of_mem c hmem)]
  rw [dropEscapes, hdrop _ h]

end Text

namespace CommandLine

/-! ## Libraries -/

/-- The libraries print a text exactly if it has an encoding, print plain ASCII as it is and end its
    line, and draw what is said of a lock that fits. -/
structure Libraries.Prints (lib : Libraries) : Prop where
  echo : ∀ s, (∃ output, lib.echo s = .ok output) ↔ s.IsScalar
  plain : ∀ s : Text, s.IsPlain → lib.echo s = .ok (s ++ "\n")
  fitting : ∃ output, lib.draw Report.fitting = .ok output

theorem printed_eq_ok {s output : Text} : printed s = .ok output ↔ s.IsScalar ∧ s = output := by
  rw [printed, Text.IsScalar, ← @Text.findHalves_eq_none 0]
  cases Text.findHalves 0 s.toList with
  | none => simp
  | some halves => simp

theorem Libraries.standard_prints : standard.Prints where
  echo s := by
    have hscalar : (Text.dropEscapes (s ++ "\n")).IsScalar ↔ s.IsScalar := by
      rw [Text.isScalar_dropEscapes, Text.IsScalar, Text.toList_append, List.forall_mem_append]
      exact and_iff_left (List.forall_mem_singleton.2 rfl)
    simp only [standard, printed_eq_ok, exists_eq_right', hscalar]
  plain s h := by
    have hescape : Code.scalar '\x1b' ∉ (s ++ "\n").toList := by
      rw [Text.toList_append, List.mem_append]
      rintro (hmem | hmem)
      · exact absurd (h _ hmem) (by decide)
      · revert hmem
        decide
    have hscalar : (s ++ "\n" : Text).IsScalar := by
      rw [Text.IsScalar, Text.toList_append, List.forall_mem_append]
      exact ⟨h.isScalar, List.forall_mem_singleton.2 rfl⟩
    exact printed_eq_ok.2 ⟨by rwa [Text.dropEscapes_eq_self hescape],
      Text.dropEscapes_eq_self hescape⟩
  fitting :=
    have hscalar : Report.fitting.text.IsScalar := by decide +kernel
    ⟨Report.fitting.text, printed_eq_ok.2 ⟨hscalar, rfl⟩⟩

/-! ## Results and failures -/

namespace Libraries.Prints

variable {lib : Libraries} {format : Format}

theorem showResult_json (h : lib.Prints) (s : Satisfaction) :
    lib.showResult .json s = .ok (Json.print (.lines 2) s.toJson ++ "\n") :=
  h.plain _ (s.document_toJson.isPlain_print _)

/-- That the lock fits can always be printed. -/
theorem showResult_isOk (h : lib.Prints) (format : Format) {s : Satisfaction}
    (hs : s.passed = true) : ∃ output, lib.showResult format s = .ok output := by
  cases format with
  | json => exact ⟨_, h.showResult_json s⟩
  | text =>
    obtain ⟨output, houtput⟩ := h.fitting
    have hlock : s.noLock = false := by
      simp only [Satisfaction.passed, Bool.and_eq_true, Bool.not_eq_true'] at hs
      exact hs.1.1.1.1
    have hblocks : Report.blocks s = [Report.fitting] := by
      rw [Report.blocks, hlock, hs]
      rfl
    refine ⟨Text.intercalate "" [output], ?_⟩
    rw [showResult, hblocks, List.mapM_cons, List.mapM_nil, houtput]
    rfl

/-- It can be told of a failure in JSON, and in words if its message has no halves. -/
theorem showFailure_isOk (h : lib.Prints) (f : Failure) :
    (∃ output, lib.showFailure format f = .ok output) ↔ format = .json ∨ f.message.IsScalar := by
  cases format with
  | json =>
    have hdocument : Json.Document 1 (.object [("error", .text f.message)]) :=
      .object (List.forall_mem_singleton.2 (.text 0 _))
    exact iff_of_true ⟨_, h.plain _ (hdocument.isPlain_print _)⟩ (Or.inl rfl)
  | text =>
    have hscalar : ("Error: " ++ f.message : Text).IsScalar ↔ f.message.IsScalar := by
      rw [Text.IsScalar, Text.toList_append, List.forall_mem_append]
      exact and_iff_right (by decide)
    rw [showFailure, h.echo, hscalar]
    exact (or_iff_right nofun).symm

end Libraries.Prints

end CommandLine

end LockFit
