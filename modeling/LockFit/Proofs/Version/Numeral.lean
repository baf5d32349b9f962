import LockFit.Proofs.Version.Grammar

/-
  Numbers as they are written and as they are printed.
  Behind its first digit a numeral may have digits of any script, so a number has many spellings.
  One of them has no digits but `0` to `9`, and that is the one in which a number is printed:
  `IsNumeral.map_asciiDigit` says that a numeral becomes it when each digit gives way to the digit
  from `0` to `9` of the same value. What is printed is a numeral, and it is read as the number
  (`isNumeral_decimal`, `decimalValue_decimal`).
-/

namespace LockFit

/-! ## Digits of one value -/

namespace Text

/-- The digit from `0` to `9` with the value of a digit; other characters stay as they are. -/
def asciiDigit (c : Code) : Code :=
  match digitValue? c with
  | some d => d.digitChar
  | none => c

theorem digitValueFrom_lt {n d : Nat} {zeros : List Nat} (h : digitValueFrom n zeros = some d) :
    d < 10 := by
  induction zeros with
  | nil => cases h
  | cons first rest ih =>
    rw [digitValueFrom] at h
    split at h
    · cases h
    · split at h
      · have hd := Option.some.inj h
        omega
      · exact ih h

theorem exists_digitValue {c : Code} (h : isDigit c = true) :
    ∃ d, digitValue? c = some d ∧ d < 10 := by
  obtain ⟨d, hd⟩ := Option.isSome_iff_exists.1 h
  exact ⟨d, hd, digitValueFrom_lt hd⟩

theorem asciiDigit_of_value {c : Code} {d : Nat} (h : digitValue? c = some d) :
    asciiDigit c = d.digitChar := by
  rw [asciiDigit, h]

theorem digitValue?_digitChar {d : Nat} (h : d < 10) : digitValue? d.digitChar = some d := by
  have hall : ∀ k : Fin 10, digitValue? (Nat.digitChar k) = some k.val := by decide
  exact hall ⟨d, h⟩

theorem isAsciiDigit_iff {c : Code} : isAsciiDigit c = true ↔ 48 ≤ c.toNat ∧ c.toNat ≤ 57 := by
  rw [isAsciiDigit, Bool.and_eq_true, decide_eq_true_eq, decide_eq_true_eq]
  rfl

theorem isAsciiNonzero_iff {c : Code} : isAsciiNonzero c = true ↔ 49 ≤ c.toNat ∧ c.toNat ≤ 57 := by
  rw [isAsciiNonzero, Bool.and_eq_true, decide_eq_true_eq, decide_eq_true_eq]
  rfl

theorem digitValue?_of_isAsciiDigit {c : Code} (h : isAsciiDigit c = true) :
    digitValue? c = some (c.toNat - 48) := by
  obtain ⟨hlow, hhigh⟩ := isAsciiDigit_iff.1 h
  rw [digitValue?, digitZeros, digitValueFrom, if_neg (by omega), if_pos (by omega)]

/-- The digits `0` to `9` stay as they are. -/
theorem asciiDigit_of_isAsciiDigit {c : Code} (h : isAsciiDigit c = true) : asciiDigit c = c := by
  obtain ⟨hlow, hhigh⟩ := isAsciiDigit_iff.1 h
  rw [asciiDigit_of_value (digitValue?_of_isAsciiDigit h)]
  apply Code.toNat_inj.1
  rw [Code.toNat_scalar, Nat.toNat_digitChar_of_lt_ten (by omega)]
  omega

theorem asciiDigit_of_not_isDigit {c : Code} (h : isDigit c = false) : asciiDigit c = c := by
  have hnone : digitValue? c = none := by
    rw [isDigit, Option.isSome_eq_false_iff] at h
    exact Option.isNone_iff_eq_none.1 h
  rw [asciiDigit, hnone]

/-- The second script of the table begins far behind the digits of the first one. -/
theorem isAsciiDigit_of_isDigit {c : Code} (h : isDigit c = true) (hlow : c.toNat < 1632) :
    isAsciiDigit c = true := by
  rw [isAsciiDigit_iff]
  by_contra hnot
  rw [isDigit, digitValue?, digitZeros, digitValueFrom] at h
  split at h
  · cases h
  · rw [if_neg (by omega), digitValueFrom, if_pos hlow] at h
    cases h

/-- Replacing digits changes nothing in a text whose digits are `0` to `9`. -/
theorem map_asciiDigit_eq_self {cs : List Code}
    (h : ∀ c ∈ cs, isDigit c = true → isAsciiDigit c = true) : cs.map asciiDigit = cs := by
  have hsame : ∀ c ∈ cs, asciiDigit c = id c := by
    intro c hc
    cases hdigit : isDigit c with
    | true => exact asciiDigit_of_isAsciiDigit (h c hc hdigit)
    | false => exact asciiDigit_of_not_isDigit hdigit
  rw [List.map_congr_left hsame, List.map_id]

/-! ## Digits and blanks -/

theorem exists_row_of_isDigit {c : Code} (h : isDigit c = true) :
    ∃ start ∈ digitZeros, start ≤ c.toNat ∧ c.toNat < start + 10 := by
  have hrow (starts : List Nat) (hvalue : (digitValueFrom c.toNat starts).isSome = true) :
      ∃ start ∈ starts, start ≤ c.toNat ∧ c.toNat < start + 10 := by
    induction starts with
    | nil => cases hvalue
    | cons first rest ih =>
      rw [digitValueFrom] at hvalue
      split at hvalue
      · cases hvalue
      · split at hvalue
        · exact ⟨first, List.mem_cons_self, by omega, by omega⟩
        · obtain ⟨start, hmem, hstart⟩ := ih hvalue
          exact ⟨start, List.mem_cons_of_mem first hmem, hstart⟩
  exact hrow digitZeros h

theorem exists_range_of_isBlank {c : Code} (h : isBlank c = true) :
    ∃ range ∈ blankRanges, range.1 ≤ c.toNat ∧ c.toNat ≤ range.2 := by
  have hlist (ranges : List (Nat × Nat)) (hin : inRanges c.toNat ranges = true) :
      ∃ range ∈ ranges, range.1 ≤ c.toNat ∧ c.toNat ≤ range.2 := by
    induction ranges with
    | nil => cases hin
    | cons first rest ih =>
      rw [inRanges] at hin
      split at hin
      · cases hin
      · rcases (Bool.or_eq_true _ _).mp hin with hhigh | hrest
        · exact ⟨first, List.mem_cons_self, by omega, of_decide_eq_true hhigh⟩
        · obtain ⟨range, hmem, hrange⟩ := ih hrest
          exact ⟨range, List.mem_cons_of_mem first hmem, hrange⟩
  exact hlist blankRanges h

/-- No digit of any script is a blank. -/
theorem isBlank_of_isDigit {c : Code} (h : isDigit c = true) : isBlank c = false := by
  have hapart : ∀ start ∈ digitZeros, ∀ range ∈ blankRanges,
      start + 10 ≤ range.1 ∨ range.2 < start := by
    decide +kernel
  cases hblank : isBlank c with
  | false => rfl
  | true =>
    obtain ⟨start, hstart, hrow⟩ := exists_row_of_isDigit h
    obtain ⟨range, hrange, hin⟩ := exists_range_of_isBlank hblank
    have := hapart start hstart range hrange
    omega

/-! ## Digits that are added at the end -/

theorem decimalValue_concat (cs : List Code) (c : Code) :
    decimalValue (cs ++ [c]) = 10 * decimalValue cs + (digitValue? c).getD 0 := by
  rw [decimalValue, List.foldl_append, List.foldl_cons, List.foldl_nil, ← decimalValue]

/-- A number as it is printed in base ten. -/
def decimal (n : Nat) : List Code := (Nat.toDigits 10 n).map .scalar

theorem decimal_of_lt {n : Nat} (h : n < 10) : decimal n = [.scalar n.digitChar] := by
  rw [decimal, Nat.toDigits_of_lt_base h, List.map_singleton]

theorem decimal_append {n d : Nat} (hn : 0 < n) (hd : d < 10) :
    decimal (10 * n + d) = decimal n ++ [.scalar d.digitChar] := by
  rw [decimal, ← Nat.toDigits_append_toDigits (by decide) hn hd, List.map_append,
    Nat.toDigits_of_lt_base hd, List.map_singleton, decimal]

/-- A printed number is read as the number. -/
theorem decimalValue_decimal (n : Nat) : decimalValue (decimal n) = n := by
  induction n using Nat.base_induction 10 (by decide) with
  | single m hm =>
    rw [decimal_of_lt hm, decimalValue, List.foldl_cons, List.foldl_nil,
      digitValue?_digitChar hm, Option.getD_some]
    omega
  | digit m k hk hm ih =>
    rw [decimal_append hm hk,
      decimalValue_concat, ih, digitValue?_digitChar hk, Option.getD_some]

/-- The number that is printed with one more digit behind it. -/
theorem decimal_concat {n : Nat} (hn : 0 < n) {c : Code} (h : isDigit c = true) :
    decimal n ++ [asciiDigit c] = decimal (10 * n + (digitValue? c).getD 0) := by
  obtain ⟨d, hd, hlt⟩ := exists_digitValue h
  rw [asciiDigit_of_value hd, hd, Option.getD_some,
    decimal_append hn hlt]

end Text

/-! ## Numerals -/

namespace Semver

open Text

theorem isAsciiDigit_of_isAsciiNonzero {c : Code} (h : isAsciiNonzero c = true) :
    isAsciiDigit c = true := by
  obtain ⟨hlow, hhigh⟩ := isAsciiNonzero_iff.1 h
  exact isAsciiDigit_iff.2 ⟨by omega, hhigh⟩

theorem isDigit_of_isAsciiNonzero {c : Code} (h : isAsciiNonzero c = true) : isDigit c = true := by
  rw [isDigit, digitValue?_of_isAsciiDigit (isAsciiDigit_of_isAsciiNonzero h)]
  rfl

theorem IsNumeral.isDigit {cs : List Code} (h : IsNumeral cs) : ∀ c ∈ cs, isDigit c = true := by
  cases h with
  | zero =>
    rw [List.forall_mem_singleton]
    decide
  | other hfirst hrest => exact List.forall_mem_cons.2 ⟨isDigit_of_isAsciiNonzero hfirst, hrest⟩

/-- What begins with a numeral begins with a digit. -/
theorem IsNumeral.head?_append {cs : List Code} (h : IsNumeral cs) (rest : List Code) :
    ∀ c ∈ (cs ++ rest).head?, Text.isDigit c = true := by
  intro c hc
  have hfirst : c ∈ cs.head? := by
    cases h with
    | zero => exact hc
    | other => exact hc
  exact h.isDigit c (List.mem_of_mem_head? hfirst)

/-- Every numeral but the lone zero may go on. -/
theorem IsNumeral.concat {cs : List Code} (h : IsNumeral cs)
    (hzero : cs ≠ [Code.scalar '0']) {c : Code} (hc : Text.isDigit c = true) :
    IsNumeral (cs ++ [c]) := by
  cases h with
  | zero => exact absurd rfl hzero
  | other hfirst hrest =>
    refine .other hfirst fun d hd => ?_
    rcases List.mem_append.1 hd with hd | hd
    · exact hrest d hd
    · rw [List.mem_singleton.1 hd]
      exact hc

/-- What is printed is a numeral. -/
theorem isNumeral_decimal (n : Nat) : IsNumeral (decimal n) := by
  have hdigit {d : Nat} (hd : d < 10) : Text.isDigit d.digitChar = true := by
    rw [Text.isDigit, digitValue?_digitChar hd]
    rfl
  induction n using Nat.base_induction 10 (by decide) with
  | single m hm =>
    rw [decimal_of_lt hm]
    by_cases hzero : m = 0
    · rw [hzero]
      exact .zero
    · refine .other (isAsciiNonzero_iff.2 ?_) (by simp)
      rw [Code.toNat_scalar, Nat.toNat_digitChar_of_lt_ten hm]
      omega
  | digit m k hk hm ih =>
    rw [decimal_append hm hk]
    refine ih.concat (fun hzero => ?_) (hdigit hk)
    have hvalue : decimalValue (decimal m) = 0 := by
      rw [hzero]
      rfl
    rw [decimalValue_decimal] at hvalue
    omega

/-- Digits behind a number that is not zero are printed behind it. -/
theorem decimal_append_map {cs : List Code} (h : ∀ c ∈ cs, Text.isDigit c = true) {n : Nat}
    (hn : 0 < n) : decimal n ++ cs.map asciiDigit =
      decimal (cs.foldl (fun n c => 10 * n + (digitValue? c).getD 0) n) := by
  induction cs generalizing n with
  | nil => rw [List.map_nil, List.append_nil, List.foldl_nil]
  | cons c cs ih =>
    obtain ⟨hc, hcs⟩ := List.forall_mem_cons.1 h
    rw [List.map_cons, List.foldl_cons, ← ih hcs (by omega), ← decimal_concat hn hc,
      List.append_assoc, List.singleton_append]

/-- A numeral with its digits replaced is its number as it is printed. -/
theorem IsNumeral.map_asciiDigit {cs : List Code} (h : IsNumeral cs) :
    cs.map asciiDigit = decimal (decimalValue cs) := by
  cases h with
  | zero => rfl
  | @other c cs hfirst hrest =>
    obtain ⟨hlow, hhigh⟩ := isAsciiNonzero_iff.1 hfirst
    have hvalue := digitValue?_of_isAsciiDigit (isAsciiDigit_of_isAsciiNonzero hfirst)
    have hlt : c.toNat - 48 < 10 := by omega
    have hstart : [asciiDigit c] = decimal (c.toNat - 48) := by
      rw [asciiDigit_of_value hvalue, decimal_of_lt hlt]
    rw [List.map_cons, ← List.singleton_append, hstart, decimal_append_map hrest (by omega),
      decimalValue, List.foldl_cons, hvalue, Option.getD_some, Nat.mul_zero, Nat.zero_add]

end Semver

end LockFit
