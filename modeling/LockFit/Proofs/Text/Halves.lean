import LockFit.Text.Encoding

/-
  Halves of pairs that stand side by side.
  A high half right before a low one encodes a character beyond the first 65536. A text keeps the
  two apart; `joined` is the text with the character in their place, which is the same text just if
  no two halves stand like that (`joined_eq_self_iff`). So it is with all texts that have an
  encoding (`IsScalar.unpaired`).
-/

namespace LockFit.Text

/-- The character that two halves encode. -/
def pairCode (h l : Fin 0x400) : Code := Code.ofNat (0x10000 + h.val * 0x400 + l.val)

/-- The code points with every pair of halves replaced by its character. -/
def joinHalves : List Code → List Code
  | [] => []
  | .high h :: .low l :: cs => pairCode h l :: joinHalves cs
  | c :: cs => c :: joinHalves cs

/-- The text with every pair of halves replaced by its character. -/
def joined (s : Text) : Text := .ofList (joinHalves s.toList)

/-- No high half stands right before a low one. -/
def Unpaired (s : Text) : Prop := ∀ h l, ¬ [Code.high h, Code.low l] <:+: s.toList

theorem joinHalves_eq_self {cs : List Code} (hun : ∀ h l, ¬ [Code.high h, Code.low l] <:+: cs) :
    joinHalves cs = cs := by
  fun_induction joinHalves cs with
  | case1 => rfl
  | case2 h l cs => exact absurd ⟨[], cs, rfl⟩ (hun h l)
  | case3 c cs _ ih =>
    rw [ih fun h l hbeside => hun h l (List.infix_cons hbeside)]

theorem length_joinHalves_le (cs : List Code) : (joinHalves cs).length ≤ cs.length := by
  fun_induction joinHalves cs with
  | case1 => exact Nat.le_refl _
  | case2 h l cs ih => exact Nat.succ_le_succ (Nat.le_succ_of_le ih)
  | case3 c cs _ ih => exact Nat.succ_le_succ ih

/-- Joining makes a text shorter wherever two halves stand side by side. -/
theorem unpaired_of_joinHalves_eq {cs : List Code} (h : joinHalves cs = cs) :
    (Text.ofList cs).Unpaired := by
  intro high low hbeside
  rw [Text.toList_ofList] at hbeside
  fun_induction joinHalves cs with
  | case1 => cases List.infix_nil.1 hbeside
  | case2 h' l' cs =>
    have hlength := congrArg List.length h
    have hle := length_joinHalves_le cs
    simp only [List.length_cons] at hlength
    omega
  | case3 c cs hpair ih =>
    obtain ⟨-, htail⟩ := List.cons_eq_cons.1 h
    rcases List.infix_cons_iff.1 hbeside with ⟨rest, hrest⟩ | hbeside
    · obtain ⟨rfl, rfl⟩ := List.cons_eq_cons.1 hrest
      exact hpair high low rest rfl rfl
    · exact ih htail hbeside

theorem joined_eq_self {s : Text} (h : s.Unpaired) : s.joined = s := by
  rw [joined, joinHalves_eq_self h, Text.ofList_toList]

theorem joined_eq_self_iff {s : Text} : s.joined = s ↔ s.Unpaired :=
  ⟨fun h => unpaired_of_joinHalves_eq (congrArg Text.toList h), joined_eq_self⟩

instance (s : Text) : Decidable s.Unpaired := decidable_of_iff (s.joined = s) joined_eq_self_iff

/-- A text of characters alone has no halves side by side. -/
theorem IsScalar.unpaired {s : Text} (hs : s.IsScalar) : s.Unpaired := by
  intro h l hbeside
  have hhigh : (Code.high h).isScalar = true := hs _ (hbeside.subset List.mem_cons_self)
  cases hhigh

theorem isScalar_ofString (s : String) : (Text.ofString s).IsScalar := by
  intro c hc
  obtain ⟨d, -, rfl⟩ := List.mem_map.1 hc
  rfl

theorem unpaired_ofString (s : String) : (Text.ofString s).Unpaired :=
  (isScalar_ofString s).unpaired

end LockFit.Text
