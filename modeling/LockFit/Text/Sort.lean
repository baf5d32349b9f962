import LockFit.Text.Basic

/-
  Sorting by the order of texts, which compares code points.
  `sortOn` sorts any values by a text that each carries and keeps equal ones in their order.
  The main facts are that the result is a permutation, that it is in order, and that nothing else
  is.
-/

namespace LockFit.Text

/-- Puts a value before the first one with a greater or equal key. -/
def placeOn (key : α → Text) (x : α) : List α → List α
  | [] => [x]
  | y :: ys => if key x ≤ key y then x :: y :: ys else y :: placeOn key x ys

/-- The values in ascending order of their keys; equal keys stay in the order they had. -/
def sortOn (key : α → Text) : List α → List α
  | [] => []
  | x :: xs => placeOn key x (sortOn key xs)

/-- The texts in ascending order, with repetitions kept. -/
def sort (texts : List Text) : List Text := sortOn id texts

theorem placeOn_perm (key : α → Text) (x : α) (xs : List α) :
    (placeOn key x xs).Perm (x :: xs) := by
  induction xs with
  | nil => exact List.Perm.refl _
  | cons y ys ih =>
    unfold placeOn
    split
    · exact List.Perm.refl _
    · exact (List.Perm.cons y ih).trans (List.Perm.swap x y ys)

theorem sortOn_perm (key : α → Text) (xs : List α) : (sortOn key xs).Perm xs := by
  induction xs with
  | nil => exact List.Perm.refl _
  | cons x xs ih => exact (placeOn_perm key x _).trans (List.Perm.cons x ih)

theorem pairwise_placeOn (key : α → Text) (x : α) {xs : List α}
    (h : xs.Pairwise (fun a b => key a ≤ key b)) :
    (placeOn key x xs).Pairwise (fun a b => key a ≤ key b) := by
  induction xs with
  | nil => simp [placeOn]
  | cons y ys ih =>
    obtain ⟨hy, hys⟩ := List.pairwise_cons.1 h
    unfold placeOn
    split
    · rename_i hxy
      refine List.pairwise_cons.2 ⟨fun z hz => ?_, h⟩
      rcases List.mem_cons.1 hz with rfl | hz
      · exact hxy
      · exact Text.le_trans hxy (hy z hz)
    · rename_i hxy
      refine List.pairwise_cons.2 ⟨fun z hz => ?_, ih hys⟩
      rcases List.mem_cons.1 ((placeOn_perm key x ys).mem_iff.1 hz) with rfl | hz
      · exact (Text.le_total _ _).resolve_left hxy
      · exact hy z hz

theorem pairwise_sortOn (key : α → Text) (xs : List α) :
    (sortOn key xs).Pairwise (fun a b => key a ≤ key b) := by
  induction xs with
  | nil => exact List.Pairwise.nil
  | cons x xs ih => exact pairwise_placeOn key x ih

/-! ## The order is the only choice -/

/-- What is in order stays as it is. -/
theorem sortOn_of_pairwise {key : α → Text} {xs : List α}
    (h : xs.Pairwise (fun a b => key a ≤ key b)) : sortOn key xs = xs := by
  induction xs with
  | nil => rfl
  | cons x xs ih =>
    obtain ⟨hx, hxs⟩ := List.pairwise_cons.1 h
    rw [sortOn, ih hxs]
    cases xs with
    | nil => rfl
    | cons y ys => exact if_pos (hx y List.mem_cons_self)

/-- Lists of texts that differ in their order alone are sorted into the same list. -/
theorem sort_eq_sort_iff {xs ys : List Text} : sort xs = sort ys ↔ xs.Perm ys := by
  constructor
  · intro h
    have hys : (sort xs).Perm ys := h ▸ sortOn_perm id ys
    exact (sortOn_perm id xs).symm.trans hys
  · intro h
    have hperm : (sort xs).Perm (sort ys) :=
      (sortOn_perm id xs).trans (h.trans (sortOn_perm id ys).symm)
    exact hperm.eq_of_pairwise (fun _ _ _ _ => Text.le_antisymm) (pairwise_sortOn id xs)
      (pairwise_sortOn id ys)

/-- Keys that come once each end up in strictly ascending order. -/
theorem pairwise_lt_sortOn {key : α → Text} {xs : List α} (h : (xs.map key).Nodup) :
    (sortOn key xs).Pairwise (fun a b => key a < key b) := by
  have hdistinct : (sortOn key xs).Pairwise (fun a b => key a ≠ key b) :=
    List.pairwise_map.1 (((sortOn_perm key xs).map key).nodup_iff.2 h)
  refine ((pairwise_sortOn key xs).and hdistinct).imp fun hab => ?_
  exact Text.not_le.1 fun hba => hab.2 (Text.le_antisymm hab.1 hba)

/-- Two lists with the same members, both in strictly ascending order, are the same list. -/
theorem eq_of_pairwise_lt {key : α → Text} {xs ys : List α}
    (hx : xs.Pairwise (fun a b => key a < key b)) (hy : ys.Pairwise (fun a b => key a < key b))
    (h : ∀ z, z ∈ xs ↔ z ∈ ys) : xs = ys := by
  have hnodup {zs : List α} (hz : zs.Pairwise (fun a b => key a < key b)) : zs.Nodup :=
    hz.imp fun hab => by
      rintro rfl
      exact Text.lt_irrefl _ hab
  have hperm : xs.Perm ys := (List.perm_ext_iff_of_nodup (hnodup hx) (hnodup hy)).2 h
  exact hperm.eq_of_pairwise (fun a b _ _ hab hba => absurd hba (Text.lt_asymm hab)) hx hy

end LockFit.Text
