import LockFit.Text.Basic

/-
  Finite sets of texts.
  A set is the ascending list of its members, so two sets with the same members are equal and a
  set is listed in one way only. `mem_ofList` and `ext_mem` are what the rest of the library uses.
-/

namespace LockFit

/-- A finite set of texts, kept as the ascending list of its members. -/
structure TextSet where
  toList : List Text
  ascending : toList.Pairwise (· < ·)
  deriving DecidableEq

namespace TextSet

def empty : TextSet := ⟨[], List.Pairwise.nil⟩

instance : EmptyCollection TextSet := ⟨empty⟩
instance : Inhabited TextSet := ⟨empty⟩

/-- Puts a text into an ascending list, unless it is there already. -/
def place (x : Text) : List Text → List Text
  | [] => [x]
  | y :: ys => if x < y then x :: y :: ys else if x = y then y :: ys else y :: place x ys

theorem mem_place {x z : Text} {ys : List Text} : z ∈ place x ys ↔ z = x ∨ z ∈ ys := by
  induction ys with
  | nil => simp [place]
  | cons y ys ih =>
    unfold place
    split
    · simp
    · split
      · subst x
        simp
      · simp [ih, or_left_comm]

theorem pairwise_place (x : Text) {ys : List Text} (h : ys.Pairwise (· < ·)) :
    (place x ys).Pairwise (· < ·) := by
  induction ys with
  | nil => simp [place]
  | cons y ys ih =>
    obtain ⟨hy, hys⟩ := List.pairwise_cons.1 h
    unfold place
    split
    · rename_i hxy
      refine List.pairwise_cons.2 ⟨fun z hz => ?_, h⟩
      rcases List.mem_cons.1 hz with rfl | hz
      · exact hxy
      · exact Text.lt_trans hxy (hy z hz)
    · split
      · exact h
      · rename_i hlt hne
        refine List.pairwise_cons.2 ⟨fun z hz => ?_, ih hys⟩
        rcases mem_place.1 hz with rfl | hz
        · refine Text.not_le.1 fun hle => hne ?_
          exact Text.le_antisymm hle (Text.not_lt.1 hlt)
        · exact hy z hz

def insert (x : Text) (s : TextSet) : TextSet := ⟨place x s.toList, pairwise_place x s.ascending⟩

/-- The set of the texts in a list, in whatever order and however often they stand there. -/
def ofList (xs : List Text) : TextSet := xs.foldr insert empty

def contains (s : TextSet) (x : Text) : Bool := s.toList.contains x

instance : Membership Text TextSet := ⟨fun s x => x ∈ s.toList⟩

instance (x : Text) (s : TextSet) : Decidable (x ∈ s) :=
  inferInstanceAs (Decidable (x ∈ s.toList))

def filter (p : Text → Bool) (s : TextSet) : TextSet :=
  ⟨s.toList.filter p, s.ascending.filter p⟩

def union (s t : TextSet) : TextSet := s.toList.foldr insert t

/-- The members of the first set that are not in the second. -/
def diff (s t : TextSet) : TextSet := s.filter fun x => !t.contains x

def isEmpty (s : TextSet) : Bool := s.toList.isEmpty

def size (s : TextSet) : Nat := s.toList.length

/-! ## Membership -/

theorem mem_toList {s : TextSet} {x : Text} : x ∈ s.toList ↔ x ∈ s := Iff.rfl

@[simp] theorem not_mem_empty (x : Text) : x ∉ empty := List.not_mem_nil

@[simp] theorem mem_insert {x y : Text} {s : TextSet} : y ∈ s.insert x ↔ y = x ∨ y ∈ s :=
  mem_place

@[simp] theorem mem_ofList {x : Text} {xs : List Text} : x ∈ ofList xs ↔ x ∈ xs := by
  induction xs with
  | nil => simp [ofList]
  | cons y ys ih => simpa [ofList] using or_congr_right ih

@[simp] theorem contains_iff {s : TextSet} {x : Text} : s.contains x = true ↔ x ∈ s := by
  simp [contains, mem_toList]

@[simp] theorem mem_filter {p : Text → Bool} {s : TextSet} {x : Text} :
    x ∈ s.filter p ↔ x ∈ s ∧ p x = true := by
  simp [← mem_toList, filter]

@[simp] theorem mem_union {s t : TextSet} {x : Text} : x ∈ s.union t ↔ x ∈ s ∨ x ∈ t := by
  suffices h : ∀ xs : List Text, x ∈ xs.foldr insert t ↔ x ∈ xs ∨ x ∈ t from h s.toList
  intro xs
  induction xs with
  | nil => simp
  | cons y ys ih => simp [ih, or_assoc]

@[simp] theorem mem_diff {s t : TextSet} {x : Text} : x ∈ s.diff t ↔ x ∈ s ∧ x ∉ t := by
  rw [diff, mem_filter, Bool.not_eq_true', ← Bool.not_eq_true, contains_iff]

/-- Two ascending lists with the same members are the same list. -/
theorem eq_of_ascending {xs ys : List Text} (hx : xs.Pairwise (· < ·))
    (hy : ys.Pairwise (· < ·)) (h : ∀ z, z ∈ xs ↔ z ∈ ys) : xs = ys := by
  induction xs generalizing ys with
  | nil =>
    cases ys with
    | nil => rfl
    | cons y ys => exact absurd ((h y).2 (by simp)) (by simp)
  | cons x xs ih =>
    cases ys with
    | nil => exact absurd ((h x).1 (by simp)) (by simp)
    | cons y ys =>
      obtain ⟨hx', hxs⟩ := List.pairwise_cons.1 hx
      obtain ⟨hy', hys⟩ := List.pairwise_cons.1 hy
      have hxy : x = y := by
        rcases List.mem_cons.1 ((h x).1 (by simp)) with e | hxm
        · exact e
        · rcases List.mem_cons.1 ((h y).2 (by simp)) with e | hym
          · exact e.symm
          · exact absurd (hx' y hym) (Text.lt_asymm (hy' x hxm))
      subst hxy
      refine congrArg _ (ih hxs hys fun z => ⟨fun hz => ?_, fun hz => ?_⟩)
      · rcases List.mem_cons.1 ((h z).1 (by simp [hz])) with rfl | hz'
        · exact absurd (hx' z hz) (Text.lt_irrefl z)
        · exact hz'
      · rcases List.mem_cons.1 ((h z).2 (by simp [hz])) with rfl | hz'
        · exact absurd (hy' z hz) (Text.lt_irrefl z)
        · exact hz'

/-- Sets with the same members are equal. -/
theorem ext_mem {s t : TextSet} (h : ∀ x, x ∈ s ↔ x ∈ t) : s = t := by
  cases s with
  | mk xs hx =>
    cases t with
    | mk ys hy =>
      have e : xs = ys := eq_of_ascending hx hy h
      subst e
      rfl

end TextSet

end LockFit
