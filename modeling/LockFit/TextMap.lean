import LockFit.Text.Sort

/-
  Finite maps whose keys are texts.
  A map is the list of its entries in ascending order of keys, each key once. Two maps with the
  same answers to `get?` are equal, and a map is listed in one way only.
-/

namespace LockFit

/-- A finite map from texts, kept as its entries in ascending order of keys. -/
structure TextMap (α : Type u) where
  entries : List (Text × α)
  ascending : entries.Pairwise (fun a b => a.1 < b.1)
  deriving DecidableEq

namespace TextMap

def empty : TextMap α := ⟨[], List.Pairwise.nil⟩

instance : Inhabited (TextMap α) := ⟨empty⟩

/-- Puts an entry into an ascending list, in place of one with the same key. -/
def place (k : Text) (v : α) : List (Text × α) → List (Text × α)
  | [] => [(k, v)]
  | e :: es =>
    if k < e.1 then (k, v) :: e :: es
    else if k = e.1 then (k, v) :: es
    else e :: place k v es

theorem mem_keys_place {k z : Text} {v : α} {es : List (Text × α)} :
    z ∈ (place k v es).map Prod.fst ↔ z = k ∨ z ∈ es.map Prod.fst := by
  induction es with
  | nil => simp [place]
  | cons e es ih =>
    unfold place
    split
    · simp
    · split
      · subst k
        simp
      · simp only [List.map_cons, List.mem_cons, ih, or_left_comm]

theorem pairwise_place (k : Text) (v : α) {es : List (Text × α)}
    (h : es.Pairwise (fun a b => a.1 < b.1)) :
    (place k v es).Pairwise (fun a b => a.1 < b.1) := by
  induction es with
  | nil => simp [place]
  | cons e es ih =>
    obtain ⟨he, hes⟩ := List.pairwise_cons.1 h
    unfold place
    split
    · rename_i hk
      refine List.pairwise_cons.2 ⟨fun z hz => ?_, h⟩
      rcases List.mem_cons.1 hz with rfl | hz
      · exact hk
      · exact Text.lt_trans hk (he z hz)
    · split
      · rename_i hk
        subst hk
        exact List.pairwise_cons.2 ⟨fun z hz => he z hz, hes⟩
      · rename_i hlt hne
        refine List.pairwise_cons.2 ⟨fun z hz => ?_, ih hes⟩
        rcases mem_keys_place.1 (List.mem_map.2 ⟨z, hz, rfl⟩) with e' | hz
        · rw [e']
          refine Text.not_le.1 fun hle => hne ?_
          exact Text.le_antisymm hle (Text.not_lt.1 hlt)
        · obtain ⟨w, hw, hwz⟩ := List.mem_map.1 hz
          exact hwz ▸ he w hw

def insert (k : Text) (v : α) (m : TextMap α) : TextMap α :=
  ⟨place k v m.entries, pairwise_place k v m.ascending⟩

/-- The map of a list of entries; of two with one key the later counts. -/
def ofList (es : List (Text × α)) : TextMap α := es.foldl (fun m e => m.insert e.1 e.2) empty

/-- The first value that stands under a key in a list of entries. -/
def look (k : Text) : List (Text × α) → Option α
  | [] => none
  | e :: es => if e.1 = k then some e.2 else look k es

def get? (m : TextMap α) (k : Text) : Option α := look k m.entries

def contains (m : TextMap α) (k : Text) : Bool := (m.get? k).isSome

/-- The keys, in ascending order. -/
def keys (m : TextMap α) : List Text := m.entries.map Prod.fst

def values (m : TextMap α) : List α := m.entries.map Prod.snd

def size (m : TextMap α) : Nat := m.entries.length

def isEmpty (m : TextMap α) : Bool := m.entries.isEmpty

/-- The entries for which the test holds. -/
def filter (p : Text → α → Bool) (m : TextMap α) : TextMap α :=
  ⟨m.entries.filter fun e => p e.1 e.2, m.ascending.filter _⟩

/-- The map with every value changed, each by its key and itself. -/
def map (f : Text → α → β) (m : TextMap α) : TextMap β :=
  ⟨m.entries.map fun e => (e.1, f e.1 e.2), List.pairwise_map.2 m.ascending⟩

/-! ## Look-up -/

theorem look_place {k z : Text} {v : α} {es : List (Text × α)}
    (h : es.Pairwise (fun a b => a.1 < b.1)) :
    look z (place k v es) = if k = z then some v else look z es := by
  induction es with
  | nil => simp [place, look]
  | cons e es ih =>
    obtain ⟨he, hes⟩ := List.pairwise_cons.1 h
    unfold place
    split
    · simp [look]
    · split
      · rename_i hk
        subst hk
        by_cases hz : e.1 = z <;> simp [look, hz]
      · rename_i hne
        by_cases hz : e.1 = z
        · have hkz : k ≠ z := fun hk => hne (hk.trans hz.symm)
          simp [look, hz, hkz]
        · simp [look, hz, ih hes]

@[simp] theorem get?_empty (k : Text) : (empty : TextMap α).get? k = none := rfl

@[simp] theorem get?_insert {k z : Text} {v : α} {m : TextMap α} :
    (m.insert k v).get? z = if k = z then some v else m.get? z :=
  look_place m.ascending

theorem look_eq_some {k : Text} {v : α} {es : List (Text × α)}
    (h : es.Pairwise (fun a b => a.1 < b.1)) : look k es = some v ↔ (k, v) ∈ es := by
  induction es with
  | nil => simp [look]
  | cons e es ih =>
    obtain ⟨he, hes⟩ := List.pairwise_cons.1 h
    by_cases hk : e.1 = k
    · subst hk
      have hnot : (e.1, v) ∉ es := fun hm => Text.lt_irrefl _ (he (e.1, v) hm)
      simp only [look, if_true, Option.some.injEq, List.mem_cons, hnot, or_false]
      exact ⟨fun hv => by rw [← hv], fun hv => by rw [← hv]⟩
    · have hne : (k, v) ≠ e := fun hv => hk (by rw [← hv])
      simp [look, hk, ih hes, hne]

/-- The entries are what look-up answers. -/
theorem get?_eq_some {m : TextMap α} {k : Text} {v : α} :
    m.get? k = some v ↔ (k, v) ∈ m.entries :=
  look_eq_some m.ascending

theorem look_isSome {k : Text} {es : List (Text × α)} :
    (look k es).isSome = true ↔ k ∈ es.map Prod.fst := by
  induction es with
  | nil => simp [look]
  | cons e es ih =>
    by_cases hk : e.1 = k
    · simp [look, hk]
    · simp only [look, hk, if_false, ih, List.map_cons, List.mem_cons]
      exact ⟨Or.inr, fun h => h.resolve_left fun e' => hk e'.symm⟩

theorem contains_iff {m : TextMap α} {k : Text} : m.contains k = true ↔ k ∈ m.keys :=
  look_isSome

theorem mem_keys {m : TextMap α} {k : Text} : k ∈ m.keys ↔ ∃ v, m.get? k = some v := by
  rw [← contains_iff, contains, Option.isSome_iff_exists]

theorem mem_values {m : TextMap α} {v : α} : v ∈ m.values ↔ ∃ k, m.get? k = some v := by
  simp [values, get?_eq_some]

theorem get?_filter {p : Text → α → Bool} {m : TextMap α} {k : Text} {v : α} :
    (m.filter p).get? k = some v ↔ m.get? k = some v ∧ p k v = true := by
  rw [get?_eq_some, get?_eq_some, filter, List.mem_filter]

/-- Maps with the same answers are equal. -/
theorem ext_get? {m n : TextMap α} (h : ∀ k v, m.get? k = some v ↔ n.get? k = some v) : m = n := by
  obtain ⟨es, hes⟩ := m
  obtain ⟨fs, hfs⟩ := n
  have hentries : es = fs := Text.eq_of_pairwise_lt hes hfs fun e => by
    rw [← look_eq_some hes, ← look_eq_some hfs]
    exact h e.1 e.2
  subst hentries
  rfl

/-- Under different keys it does not matter which entry is put there first. -/
theorem insert_comm {k l : Text} (h : k ≠ l) (v w : α) (m : TextMap α) :
    (m.insert k v).insert l w = (m.insert l w).insert k v := by
  refine ext_get? fun z u => ?_
  rw [get?_insert, get?_insert, get?_insert, get?_insert]
  by_cases hk : k = z
  · have hl : l ≠ z := fun hl => h (hk.trans hl.symm)
    rw [if_neg hl, if_pos hk, if_pos hk]
  · rw [if_neg hk, if_neg hk]

theorem look_map (f : Text → α → β) (k : Text) (es : List (Text × α)) :
    look k (es.map fun e => (e.1, f e.1 e.2)) = (look k es).map (f k) := by
  induction es with
  | nil => rfl
  | cons e es ih =>
    by_cases hk : e.1 = k
    · simp [look, hk]
    · simp [look, hk, ih]

@[simp] theorem get?_map {f : Text → α → β} {m : TextMap α} {k : Text} :
    (m.map f).get? k = (m.get? k).map (f k) :=
  look_map f k m.entries

/-- A list in which no key comes twice makes the map of its entries. -/
theorem get?_ofList {es : List (Text × α)} (h : (es.map Prod.fst).Nodup) {k : Text} {v : α} :
    (ofList es).get? k = some v ↔ (k, v) ∈ es := by
  suffices main : ∀ m : TextMap α, (es.foldl (fun m e => m.insert e.1 e.2) m).get? k = some v ↔
      (k, v) ∈ es ∨ k ∉ es.map Prod.fst ∧ m.get? k = some v by
    simpa [ofList] using main empty
  induction es with
  | nil => simp
  | cons e es ih =>
    rw [List.map_cons, List.nodup_cons] at h
    intro m
    rw [List.foldl_cons, ih h.2, get?_insert]
    by_cases hk : e.1 = k
    · subst hk
      have hnot : (e.1, v) ∉ es := fun hm => h.1 (List.mem_map.2 ⟨_, hm, rfl⟩)
      simp only [hnot, h.1, not_false_eq_true, if_true, true_and, false_or, List.mem_cons,
        List.map_cons, not_true_eq_false, false_and, or_false, Option.some.injEq]
      exact ⟨fun hv => Prod.ext rfl hv.symm, fun hv => (congrArg Prod.snd hv).symm⟩
    · have hne : (k, v) ≠ e := fun hv => hk (congrArg Prod.fst hv).symm
      simp [hk, hne, Ne.symm hk]

end TextMap

end LockFit
