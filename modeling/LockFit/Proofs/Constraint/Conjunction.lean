import LockFit.Constraint.Basic
import LockFit.Proofs.Constraint.Pieces
import LockFit.Proofs.Text.Split
import LockFit.Proofs.Text.Trim
import Mathlib.Logic.Relation

/-
  Ranges with commas.
  Apart from the star, a range is settled by which pieces it has: two texts with the same trimmed
  pieces, in any order and any number, make a range or not alike and have the same releases in it
  (`Range.SamePieces`). The pieces of two texts with a comma between them are those of both
  (`Range.pieces_comma`), so the comma is a conjunction. Changing the order of the pieces, repeating
  one, putting in a blank one and putting blanks around one all keep what counts, and never lead to
  the star (`Range.Kept.edit`). Any number of such changes does so too (`Range.Kept.edits`).
-/

namespace LockFit

open Text Relation

namespace Range

variable {raw other : Text}

/-! ## Pieces as texts -/

/-- The pieces without the blanks around them; a blank piece becomes empty. -/
def trimmed (ps : List Text) : List (List Code) := ps.map fun p => trimChars p.toList

theorem pieces_eq_filter (raw : Text) :
    pieces raw = (trimmed (split ',' raw)).filter fun p => !p.isEmpty := by
  have hchars : (fun p : Text => trimChars p.toList) ∘ Text.ofList = trimChars := by
    funext cs
    simp
  rw [pieces, trimmed, split, List.map_map, hchars]

theorem mem_pieces {p : List Code} :
    p ∈ pieces raw ↔ p ∈ trimmed (split ',' raw) ∧ p ≠ [] := by
  rw [pieces_eq_filter, List.mem_filter]
  simp

/-- A text is a star exactly if it has one piece, which is a star. -/
theorem trimmed_split_eq_star :
    trimmed (split ',' raw) = [[Code.scalar '*']] ↔ trimChars raw.toList = [Code.scalar '*'] := by
  constructor
  · intro h
    obtain ⟨p, hp, hstar⟩ := List.map_eq_singleton_iff.1 h
    have hraw : raw = p := by
      rw [← intercalate_split ',' raw, hp, Text.intercalate_singleton]
    rw [hraw]
    exact hstar
  · intro h
    have hcomma : Code.scalar ',' ∉ raw.toList := by
      obtain ⟨before, after, hraw, hbefore, hafter⟩ := exists_surround raw.toList
      rw [hraw, h]
      simp [comma_notMem_of_blank hbefore, comma_notMem_of_blank hafter]
    have hsplit : split ',' raw = [raw] := by
      rw [split_eq_map, List.splitOn_eq_singleton hcomma, List.map_singleton, Text.ofList_toList]
    rw [hsplit, trimmed, List.map_singleton, h]

/-! ## Texts with the same pieces -/

/-- Neither text is a star, and the same pieces occur in both. -/
structure SamePieces (raw other : Text) : Prop where
  left_ne_star : trimChars raw.toList ≠ [Code.scalar '*']
  right_ne_star : trimChars other.toList ≠ [Code.scalar '*']
  mem_iff : ∀ p, p ∈ pieces raw ↔ p ∈ pieces other

theorem SamePieces.ofText_isOk (h : SamePieces raw other) :
    (∃ r, ofText raw = .ok r) ↔ ∃ r, ofText other = .ok r := by
  have hnil : pieces raw = [] ↔ pieces other = [] := by
    simp only [List.eq_nil_iff_forall_not_mem, h.mem_iff]
  rw [ofText_isOk_of_ne_star h.left_ne_star, ofText_isOk_of_ne_star h.right_ne_star, Ne, Ne, hnil]
  simp only [h.mem_iff]

theorem SamePieces.allows_eq {r s : Range} (h : SamePieces r.raw s.raw) (n : ReleaseNumber) :
    r.allows n = s.allows n := by
  rw [Bool.eq_iff_iff, allows_iff_pieces, allows_iff_pieces, or_iff_right h.left_ne_star,
    or_iff_right h.right_ne_star]
  simp only [h.mem_iff]

/-! ## A comma between two texts -/

theorem split_comma (left right : Text) :
    split ',' (left ++ "," ++ right) = split ',' left ++ split ',' right :=
  split_append ',' left right

theorem pieces_comma (left right : Text) :
    pieces (left ++ "," ++ right) = pieces left ++ pieces right := by
  rw [pieces_eq_filter, split_comma, trimmed, List.map_append, List.filter_append,
    pieces_eq_filter, pieces_eq_filter]
  rfl

/-- A text with a comma is no star. -/
theorem comma_ne_star (left right : Text) :
    trimChars (left ++ "," ++ right).toList ≠ [Code.scalar '*'] := by
  intro hstar
  rw [← trimmed_split_eq_star, split_comma] at hstar
  have hlength := congrArg List.length hstar
  have hleft := List.length_pos_of_ne_nil (split_ne_nil ',' left)
  have hright := List.length_pos_of_ne_nil (split_ne_nil ',' right)
  simp only [trimmed, List.length_map, List.length_append, List.length_singleton] at hlength
  omega

/-- Two texts that make ranges and are no stars make one with a comma between them. -/
theorem ofText_comma {left right : Text} (hleft : trimChars left.toList ≠ [Code.scalar '*'])
    (hright : trimChars right.toList ≠ [Code.scalar '*']) (hl : ∃ r, ofText left = .ok r)
    (hr : ∃ r, ofText right = .ok r) : ∃ r, ofText (left ++ "," ++ right) = .ok r := by
  rw [ofText_isOk_of_ne_star hleft] at hl
  rw [ofText_isOk_of_ne_star hright] at hr
  rw [ofText_isOk_of_ne_star (comma_ne_star left right), pieces_comma, List.forall_mem_append]
  have hne : pieces left ++ pieces right ≠ [] := by simp [hl.1]
  exact ⟨hne, hl.2, hr.2⟩

/-- A release is in it exactly if it is in both. -/
theorem allows_comma {r left right : Range} (hraw : r.raw = left.raw ++ "," ++ right.raw)
    (hleft : trimChars left.raw.toList ≠ [Code.scalar '*'])
    (hright : trimChars right.raw.toList ≠ [Code.scalar '*']) (n : ReleaseNumber) :
    r.allows n = (left.allows n && right.allows n) := by
  have hstar : trimChars r.raw.toList ≠ [Code.scalar '*'] := by
    rw [hraw]
    exact comma_ne_star left.raw right.raw
  rw [Bool.eq_iff_iff, Bool.and_eq_true, allows_iff_pieces, allows_iff_pieces, allows_iff_pieces,
    or_iff_right hstar, or_iff_right hleft, or_iff_right hright, hraw, pieces_comma,
    List.forall_mem_append]

/-! ## Other ways to write the pieces -/

/-- One change to the pieces of a text. With the changes of order, a piece that is put in front
    may come to stand anywhere. -/
inductive Edit : List Text → List Text → Prop
  | permute {ps qs : List Text} : ps.Perm qs → Edit ps qs
  | repeats {p : Text} {ps : List Text} : p ∈ ps → Edit ps (p :: ps)
  | blank {gap : Text} {ps : List Text} : (∀ c ∈ gap.toList, isBlank c = true) →
      Edit ps (gap :: ps)
  | surround {before p after : Text} {ps : List Text} :
      (∀ c ∈ before.toList, isBlank c = true) → (∀ c ∈ after.toList, isBlank c = true) →
      Edit (p :: ps) ((before ++ p ++ after) :: ps)

/-- The second text has the pieces of the first one after any number of changes. -/
def Rearranged (raw other : Text) : Prop :=
  ∃ ps, ReflTransGen Edit (split ',' raw) ps ∧ other = Text.intercalate "," ps

/-- What changes keep: the pieces can be joined and cut again, they are no lone star, and the same
    ones count. -/
structure Kept (raw : Text) (ps : List Text) : Prop where
  nonempty : ps ≠ []
  comma_notMem : ∀ p ∈ ps, Code.scalar ',' ∉ p.toList
  ne_star : trimmed ps ≠ [[Code.scalar '*']]
  mem_iff : ∀ p, p ≠ [] → (p ∈ trimmed (split ',' raw) ↔ p ∈ trimmed ps)

theorem Kept.start (h : trimChars raw.toList ≠ [Code.scalar '*']) : Kept raw (split ',' raw) where
  nonempty := split_ne_nil ',' raw
  comma_notMem := fun _ hp => notMem_of_mem_split hp
  ne_star := fun hstar => h (trimmed_split_eq_star.1 hstar)
  mem_iff := fun _ _ => Iff.rfl

variable {ps qs : List Text} {p : Text}

theorem Kept.permute (h : Kept raw ps) (hperm : ps.Perm qs) : Kept raw qs := by
  have htrimmed : (trimmed ps).Perm (trimmed qs) := hperm.map _
  refine ⟨?_, ?_, ?_, ?_⟩
  · intro hnil
    rw [hnil] at hperm
    exact h.nonempty hperm.eq_nil
  · intro p hp
    exact h.comma_notMem p (hperm.mem_iff.2 hp)
  · intro hstar
    rw [hstar] at htrimmed
    exact h.ne_star (List.perm_singleton.1 htrimmed)
  · intro p hp
    rw [h.mem_iff p hp]
    exact htrimmed.mem_iff

/-- A piece that does not count, or counts already, is put in front. -/
theorem Kept.cons (h : Kept raw ps) (hcomma : Code.scalar ',' ∉ p.toList)
    (hp : trimChars p.toList = [] ∨ trimChars p.toList ∈ trimmed ps) : Kept raw (p :: ps) := by
  have htrimmed : trimmed (p :: ps) = trimChars p.toList :: trimmed ps := rfl
  refine ⟨List.cons_ne_nil p ps, List.forall_mem_cons.2 ⟨hcomma, h.comma_notMem⟩, ?_, ?_⟩
  · intro hstar
    rw [htrimmed] at hstar
    have hnil : trimmed ps = [] := (List.cons_eq_cons.1 hstar).2
    exact h.nonempty (List.map_eq_nil_iff.1 hnil)
  · intro q hq
    rw [h.mem_iff q hq, htrimmed, List.mem_cons]
    constructor
    · exact Or.inr
    · intro hmem
      rcases hmem with hmem | hmem
      · rw [hmem]
        rw [hmem] at hq
        exact hp.resolve_left hq
      · exact hmem

/-- The blanks around the first piece are changed. -/
theorem Kept.retouch {p' : Text} (h : Kept raw (p :: ps)) (hcomma : Code.scalar ',' ∉ p'.toList)
    (hp : trimChars p'.toList = trimChars p.toList) : Kept raw (p' :: ps) := by
  have htrimmed : trimmed (p' :: ps) = trimmed (p :: ps) := by
    rw [trimmed, trimmed, List.map_cons, List.map_cons, hp]
  refine ⟨List.cons_ne_nil p' ps, ?_, ?_, ?_⟩
  · exact List.forall_mem_cons.2 ⟨hcomma, (List.forall_mem_cons.1 h.comma_notMem).2⟩
  · rw [htrimmed]
    exact h.ne_star
  · rw [htrimmed]
    exact h.mem_iff

/-- One change keeps what counts. -/
theorem Kept.edit (h : Kept raw ps) (hedit : Edit ps qs) : Kept raw qs := by
  cases hedit with
  | permute hperm => exact h.permute hperm
  | repeats hmem =>
    exact h.cons (h.comma_notMem _ hmem) (Or.inr (List.mem_map_of_mem hmem))
  | blank hgap =>
    exact h.cons (comma_notMem_of_blank hgap) (Or.inl (trimChars_of_blank hgap))
  | @surround before p after ps hbefore hafter =>
    have hchars : (before ++ p ++ after).toList = before.toList ++ (p.toList ++ after.toList) := by
      simp
    refine h.retouch ?_ ?_
    · have hcomma : Code.scalar ',' ∉ p.toList := h.comma_notMem p List.mem_cons_self
      simp [hchars, comma_notMem_of_blank hbefore, comma_notMem_of_blank hafter, hcomma]
    · rw [hchars, trimChars_surround hbefore hafter]

/-- Any number of changes keeps what counts. -/
theorem Kept.edits (h : Kept raw ps) (hedits : ReflTransGen Edit ps qs) :
    Kept raw qs := by
  induction hedits with
  | refl => exact h
  | tail _ hedit ih => exact ih.edit hedit

theorem Rearranged.samePieces (h : Rearranged raw other)
    (hstar : trimChars raw.toList ≠ [Code.scalar '*']) : SamePieces raw other := by
  obtain ⟨ps, hedits, rfl⟩ := h
  have hkept := (Kept.start hstar).edits hedits
  have hsplit : split ',' (Text.intercalate "," ps) = ps :=
    split_intercalate hkept.nonempty hkept.comma_notMem
  refine ⟨hstar, ?_, ?_⟩
  · rw [Ne, ← trimmed_split_eq_star, hsplit]
    exact hkept.ne_star
  · intro p
    rw [mem_pieces, mem_pieces, hsplit]
    exact and_congr_left fun hp => hkept.mem_iff p hp

end Range

/-! ## Rules -/

namespace Constraint

variable {r s : Range}

theorem range_congr (h : ∀ n, r.allows n = s.allows n) (v : Version) :
    (range r).allows v = (range s).allows v := by
  simp only [allows, h]

/-- A range that has the releases of two others answers yes exactly if both do. -/
theorem range_and_eq_ok {left right : Range}
    (h : ∀ n, r.allows n = (left.allows n && right.allows n)) (v : Version) (b : Bool) :
    (range r).allows v = .ok b ↔
      ∃ b₁ b₂, (range left).allows v = .ok b₁ ∧ (range right).allows v = .ok b₂ ∧
        b = (b₁ && b₂) := by
  simp only [allows]
  cases v.number? with
  | none => simp [eq_comm]
  | some number =>
    cases number with
    | error e => simp [bind, Except.bind]
    | ok n => simp [bind, Except.bind, pure, Except.pure, h, eq_comm]

/-- **The comma is a conjunction.** Texts that make ranges and are no stars make one with a comma
    between them, which has an answer for a version exactly if both have one, and then says yes if
    both do. In a text that is no star the pieces may be put in another order, repeated, joined by
    blank ones and have blanks put around them: it makes a range or not as before, and the range has
    the same answers. -/
theorem comma_conjunction :
    (∀ (left right : Text) (l r : Range), Range.ofText left = .ok l →
      Range.ofText right = .ok r → trim left ≠ "*" → trim right ≠ "*" →
      ∃ both, Range.ofText (left ++ "," ++ right) = .ok both ∧
        ∀ v b, (range both).allows v = .ok b ↔
          ∃ b₁ b₂, (range l).allows v = .ok b₁ ∧ (range r).allows v = .ok b₂ ∧ b = (b₁ && b₂)) ∧
    (∀ raw other : Text, trim raw ≠ "*" → Range.Rearranged raw other →
      ((∃ r, Range.ofText raw = .ok r) ↔ ∃ s, Range.ofText other = .ok s) ∧
      ∀ r s, Range.ofText raw = .ok r → Range.ofText other = .ok s →
        ∀ v, (range r).allows v = (range s).allows v) := by
  constructor
  · intro left right l r hl hr hleft hright
    rw [Ne, Range.trim_eq_star] at hleft hright
    obtain ⟨both, hboth⟩ := Range.ofText_comma hleft hright ⟨l, hl⟩ ⟨r, hr⟩
    refine ⟨both, hboth, range_and_eq_ok ?_⟩
    obtain rfl := Range.ofText_raw hl
    obtain rfl := Range.ofText_raw hr
    exact Range.allows_comma (Range.ofText_raw hboth) hleft hright
  · intro raw other hstar hother
    rw [Ne, Range.trim_eq_star] at hstar
    have hsame := hother.samePieces hstar
    refine ⟨hsame.ofText_isOk, ?_⟩
    intro r s hr hs
    obtain rfl := Range.ofText_raw hr
    obtain rfl := Range.ofText_raw hs
    exact range_congr hsame.allows_eq

/-- Two bounds joined, and the same bounds turned round, with a repeated and a blank piece. -/
theorem comma_conjunction_bounds : ∃ both turned,
    Range.ofText ("^1.2" ++ "," ++ " <1.4") = .ok both ∧
    (range both).allows (Version.ofText "v1.3.0") = .ok true ∧
    (range both).allows (Version.ofText "1.4.0") = .ok false ∧
    Range.Rearranged "^1.2, <1.4" " <1.4,^1.2,,^1.2 " ∧
    Range.ofText " <1.4,^1.2,,^1.2 " = .ok turned ∧
    ∀ v, (range both).allows v = (range turned).allows v := by
  have hcaret : ∃ l, Range.ofText "^1.2" = .ok l ∧
      (range l).allows (Version.ofText "v1.3.0") = .ok true ∧
      (range l).allows (Version.ofText "1.4.0") = .ok true :=
    ⟨⟨"^1.2", [⟨.caret, ⟨1, 2, 0⟩, true⟩], by decide +kernel⟩, by decide +kernel⟩
  have hbelow : ∃ r, Range.ofText " <1.4" = .ok r ∧
      (range r).allows (Version.ofText "v1.3.0") = .ok true ∧
      (range r).allows (Version.ofText "1.4.0") = .ok false :=
    ⟨⟨" <1.4", [⟨.below, ⟨1, 4, 0⟩, true⟩], by decide +kernel⟩, by decide +kernel⟩
  obtain ⟨l, hl, hlYes, hlNo⟩ := hcaret
  obtain ⟨r, hr, hrYes, hrNo⟩ := hbelow
  obtain ⟨both, hboth, hanswers⟩ := comma_conjunction.1 "^1.2" " <1.4" l r hl hr
    (by decide +kernel) (by decide +kernel)
  have hturned : Range.Rearranged "^1.2, <1.4" " <1.4,^1.2,,^1.2 " := by
    have hsplit : split ',' "^1.2, <1.4" = (["^1.2", " <1.4"] : List Text) := by decide +kernel
    have hrepeat : Range.Edit ["^1.2", " <1.4"] ["^1.2", "^1.2", " <1.4"] :=
      .repeats List.mem_cons_self
    have hempty : ∀ c ∈ Text.toList "", isBlank c = true := by simp
    have hone : ∀ c ∈ Text.toList " ", isBlank c = true :=
      List.forall_mem_singleton.2 (by decide)
    have hspace : Range.Edit ["^1.2", "^1.2", " <1.4"] ["" ++ "^1.2" ++ " ", "^1.2", " <1.4"] :=
      .surround hempty hone
    have hblank : Range.Edit ["" ++ "^1.2" ++ " ", "^1.2", " <1.4"]
        ["", "" ++ "^1.2" ++ " ", "^1.2", " <1.4"] := .blank hempty
    have hturn : Range.Edit ["", "" ++ "^1.2" ++ " ", "^1.2", " <1.4"]
        [" <1.4", "^1.2", "", "" ++ "^1.2" ++ " "] := .permute (by decide +kernel)
    refine ⟨[" <1.4", "^1.2", "", "" ++ "^1.2" ++ " "], ?_, by decide +kernel⟩
    rw [hsplit]
    exact (((ReflTransGen.single hrepeat).tail hspace).tail hblank).tail hturn
  obtain ⟨haccepted, hsame⟩ :=
    comma_conjunction.2 "^1.2, <1.4" " <1.4,^1.2,,^1.2 " (by decide +kernel) hturned
  have hjoined : ("^1.2" : Text) ++ "," ++ " <1.4" = "^1.2, <1.4" := by decide +kernel
  rw [hjoined] at hboth ⊢
  obtain ⟨turned, hmade⟩ := haccepted.1 ⟨both, hboth⟩
  exact ⟨both, turned, hboth, (hanswers _ _).2 ⟨true, true, hlYes, hrYes, rfl⟩,
    (hanswers _ _).2 ⟨true, false, hlNo, hrNo, rfl⟩, hturned, hmade, hsame both turned hboth hmade⟩

end Constraint

end LockFit
