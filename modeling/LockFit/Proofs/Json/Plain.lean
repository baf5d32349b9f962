import LockFit.Proofs.Json.RoundTrip
import LockFit.Text.Encoding

/-
  JSON is written in plain ASCII.
  Texts are written with escapes for whatever is no visible character of ASCII, halves of pairs
  included, so that what is written can always be encoded (`Document.isPlain_print`). Layout adds
  spaces and ends of lines.
-/

namespace LockFit

/-- A visible character of ASCII, the space or the end of a line. -/
def Code.IsPlain (c : Code) : Prop := c = '\n' ∨ .scalar ' ' ≤ c ∧ c ≤ .scalar '~'

instance (c : Code) : Decidable c.IsPlain :=
  inferInstanceAs (Decidable (_ ∨ _))

/-- Every code point of the text is plain. -/
def Text.IsPlain (s : Text) : Prop := ∀ c ∈ s.toList, c.IsPlain

/-- No half comes before the last visible character of ASCII. -/
theorem Code.isScalar_of_le {c : Code} (h : c ≤ .scalar '~') : c.isScalar = true := by
  cases c with
  | scalar c => rfl
  | high n | low n =>
    have hlast : Code.toNat _ ≤ 0x7e := h
    simp only [Code.toNat] at hlast
    omega

theorem Code.IsPlain.isScalar {c : Code} (h : c.IsPlain) : c.isScalar = true := by
  rcases h with rfl | ⟨-, h⟩
  · rfl
  · exact Code.isScalar_of_le h

theorem Text.IsPlain.isScalar {s : Text} (h : s.IsPlain) : s.IsScalar :=
  fun c hc => (h c hc).isScalar

namespace Json

open Text

variable {layout : Layout} {n : Nat}

/-! ## Texts -/

theorem isPlain_hexText (width n : Nat) : ∀ c ∈ hexText width n, c.IsPlain := by
  have hdigit : ∀ d, d < 16 → (hexDigit d).IsPlain := by decide
  induction width generalizing n with
  | zero => exact fun c hc => absurd hc List.not_mem_nil
  | succ width ih =>
    rw [hexText, List.forall_mem_append, List.forall_mem_singleton]
    exact ⟨ih (n / 16), hdigit _ (Nat.mod_lt _ (by decide))⟩

theorem isPlain_escape {cs : List Code} (h : ∀ c ∈ cs, c.IsPlain) :
    ∀ c ∈ Code.scalar '\\' :: cs, c.IsPlain := List.forall_mem_cons.2 ⟨by decide, h⟩

theorem isPlain_unit (n : Nat) : ∀ c ∈ Code.scalar '\\' :: 'u' :: hexText 4 n, c.IsPlain :=
  isPlain_escape (List.forall_mem_cons.2 ⟨by decide, isPlain_hexText 4 n⟩)

/-- What a code point is written as is plain, whatever the code point is. -/
theorem isPlain_escapeChar (c : Code) : ∀ d ∈ escapeChar c, d.IsPlain := by
  have hshort {d : Code} (hd : d.IsPlain) : ∀ e ∈ [Code.scalar '\\', d], e.IsPlain :=
    isPlain_escape (List.forall_mem_singleton.2 hd)
  rw [escapeChar]
  split
  · rename_i h
    simp only [Bool.or_eq_true, decide_eq_true_eq] at h
    rcases h with rfl | rfl
    · exact hshort (by decide)
    · exact hshort (by decide)
  split
  · exact hshort (by decide)
  split
  · exact hshort (by decide)
  split
  · exact hshort (by decide)
  split
  · exact hshort (by decide)
  split
  · exact hshort (by decide)
  split
  · rename_i h
    simp only [Bool.and_eq_true, decide_eq_true_eq] at h
    exact List.forall_mem_singleton.2 (Or.inr h)
  split
  · exact isPlain_unit _
  · exact List.forall_mem_append.2 ⟨isPlain_unit _, isPlain_unit _⟩

theorem isPlain_writeText (s : Text) : ∀ c ∈ writeText s, c.IsPlain := by
  rw [writeText, List.forall_mem_append, List.forall_mem_cons, List.forall_mem_singleton]
  refine ⟨⟨by decide, fun d hd => ?_⟩, by decide⟩
  obtain ⟨c, -, hd⟩ := List.mem_flatMap.1 hd
  exact isPlain_escapeChar c d hd

/-! ## Layout -/

theorem isPlain_newline (layout : Layout) (depth : Nat) :
    ∀ c ∈ layout.newline depth, c.IsPlain := by
  cases layout with
  | line => exact fun c hc => absurd hc List.not_mem_nil
  | lines indent =>
    refine List.forall_mem_cons.2 ⟨Or.inl rfl, fun c hc => ?_⟩
    rw [List.eq_of_mem_replicate hc]
    decide

theorem isPlain_comma (layout : Layout) (depth : Nat) : ∀ c ∈ layout.comma depth, c.IsPlain := by
  cases layout with
  | line =>
    rw [Layout.comma]
    decide
  | lines indent => exact List.forall_mem_cons.2 ⟨by decide, isPlain_newline _ depth⟩

/-! ## Values -/

/-- The value is written in plain ASCII at every depth. -/
def WritesPlain (layout : Layout) (v : Json) : Prop :=
  ∀ depth, ∀ c ∈ write layout depth v, c.IsPlain

theorem isPlain_writeItems {vs : List Json} (h : ∀ v ∈ vs, WritesPlain layout v) (depth : Nat) :
    ∀ c ∈ writeItems layout depth vs, c.IsPlain := by
  induction vs with
  | nil => exact fun c hc => absurd hc List.not_mem_nil
  | cons v vs ih =>
    obtain ⟨hv, h⟩ := List.forall_mem_cons.1 h
    simp only [writeItems, List.append_assoc, List.forall_mem_append]
    exact ⟨isPlain_comma layout depth, hv depth, ih h⟩

theorem writesPlain_list {vs : List Json} (h : ∀ v ∈ vs, WritesPlain layout v) :
    WritesPlain layout (.list vs) := by
  intro depth
  cases vs with
  | nil =>
    rw [write]
    decide
  | cons v vs =>
    obtain ⟨hv, h⟩ := List.forall_mem_cons.1 h
    simp only [write, List.append_assoc, List.cons_append, List.forall_mem_cons,
      List.forall_mem_append]
    exact ⟨by decide, isPlain_newline layout _, hv _, isPlain_writeItems h _,
      isPlain_newline layout _, by decide⟩

theorem isPlain_writeMembers {ms : List (Text × Json)} (h : ∀ m ∈ ms, WritesPlain layout m.2)
    (depth : Nat) : ∀ c ∈ writeMembers layout depth ms, c.IsPlain := by
  induction ms with
  | nil => exact fun c hc => absurd hc List.not_mem_nil
  | cons m ms ih =>
    obtain ⟨hm, h⟩ := List.forall_mem_cons.1 h
    simp only [writeMembers, List.append_assoc, List.cons_append, List.forall_mem_cons,
      List.forall_mem_append]
    exact ⟨isPlain_comma layout depth, isPlain_writeText m.1, by decide, by decide, hm depth, ih h⟩

theorem writesPlain_object {ms : List (Text × Json)} (h : ∀ m ∈ ms, WritesPlain layout m.2) :
    WritesPlain layout (.object ms) := by
  intro depth
  cases ms with
  | nil =>
    rw [write]
    decide
  | cons m ms =>
    obtain ⟨hm, h⟩ := List.forall_mem_cons.1 h
    simp only [write, List.append_assoc, List.cons_append, List.forall_mem_cons,
      List.forall_mem_append]
    exact ⟨by decide, isPlain_newline layout _, isPlain_writeText m.1, by decide, by decide, hm _,
      isPlain_writeMembers h _, isPlain_newline layout _, by decide⟩

theorem Document.writesPlain {v : Json} (hv : Document n v) : WritesPlain layout v := by
  induction hv with
  | text n s => exact fun _ => isPlain_writeText s
  | bool n b =>
    intro depth
    rw [write]
    cases b with
    | true => decide
    | false => decide
  | list _ ih => exact writesPlain_list ih
  | object _ ih => exact writesPlain_object ih

/-- **Documents are written in plain ASCII**, in every layout. -/
theorem Document.isPlain_print {v : Json} (hv : Document n v) (layout : Layout) :
    (print layout v).IsPlain := hv.writesPlain 0

end Json

end LockFit
