import Mathlib.Data.List.Forall2

/-
  Computations that may fail, one after the other and on the members of a list.
  A chain succeeds if each of its steps does, and it fails with the failure of its first step that
  does. `FailsWith` says that a computation fails in a way that a predicate describes; how a chain
  does is read off its steps (`failsWith_bind`, `failsWith_mapM`, `foldlM_eq_error`).
-/

namespace LockFit

universe u v w

variable {ε : Type u} {δ : Type w} {α β : Type v} {x : Except ε α} {xs : List α}

/-! ## Success -/

theorem bind_eq_ok {f : α → Except ε β} {b : β} :
    x >>= f = .ok b ↔ ∃ a, x = .ok a ∧ f a = .ok b := by
  cases x with
  | error e => simp [bind, Except.bind]
  | ok a => simp [bind, Except.bind]

theorem map_eq_ok {f : α → β} {b : β} : x.map f = .ok b ↔ ∃ a, x = .ok a ∧ f a = b := by
  cases x with
  | error e => simp [Except.map]
  | ok a => simp [Except.map]

theorem mapError_eq_ok {f : ε → δ} {a : α} : x.mapError f = .ok a ↔ x = .ok a := by
  cases x with
  | error e => simp [Except.mapError]
  | ok a => simp [Except.mapError]

theorem bind_isOk {f : α → Except ε β} :
    (∃ b, x >>= f = .ok b) ↔ ∃ a, x = .ok a ∧ ∃ b, f a = .ok b := by
  cases x with
  | error e => simp [bind, Except.bind]
  | ok a => simp [bind, Except.bind]

theorem map_isOk {f : α → β} : (∃ b, x.map f = .ok b) ↔ ∃ a, x = .ok a := by
  cases x with
  | error e => simp [Except.map]
  | ok a => simp [Except.map]

theorem mapM_eq_ok {f : α → Except ε β} {ys : List β} :
    xs.mapM f = .ok ys ↔ List.Forall₂ (fun x y => f x = .ok y) xs ys := by
  induction xs generalizing ys with
  | nil =>
    rw [List.mapM_nil, List.forall₂_nil_left_iff]
    exact ⟨fun h => (Except.ok.inj h).symm, fun h => h ▸ rfl⟩
  | cons x xs ih =>
    rw [List.mapM_cons, List.forall₂_cons_left_iff]
    simp only [← ih]
    cases f x with
    | error e => simp [bind, Except.bind]
    | ok y =>
      cases xs.mapM f with
      | error e => simp [bind, Except.bind]
      | ok zs => simp [bind, Except.bind, pure, Except.pure, eq_comm]

theorem mapM_isOk {f : α → Except ε β} :
    (∃ ys, xs.mapM f = .ok ys) ↔ ∀ x ∈ xs, ∃ y, f x = .ok y := by
  induction xs with
  | nil => simp [pure, Except.pure]
  | cons x xs ih =>
    rw [List.forall_mem_cons, ← ih]
    simp only [List.mapM_cons, bind_isOk, pure, Except.pure, Except.ok.injEq, exists_eq', and_true,
      exists_and_right]

/-! ## Failure -/

/-- A computation fails exactly if it has no result. -/
theorem fails_iff : (∃ e, x = .error e) ↔ ¬ ∃ a, x = .ok a := by
  cases x with
  | error e => simp
  | ok a => simp

/-- The computation fails, and its failure has the property. -/
def FailsWith (bad : ε → Prop) (x : Except ε α) : Prop := ∃ e, x = .error e ∧ bad e

variable {bad : ε → Prop}

@[simp] theorem not_failsWith_ok {a : α} : ¬ FailsWith bad (.ok a : Except ε α) := by
  simp [FailsWith]

@[simp] theorem failsWith_error {e : ε} : FailsWith bad (.error e : Except ε α) ↔ bad e := by
  simp [FailsWith]

/-- A computation has a result or a harmless failure exactly if it does not fail in a bad way. -/
theorem not_failsWith_iff :
    ¬ FailsWith bad x ↔ (∃ a, x = .ok a) ∨ ∃ e, x = .error e ∧ ¬ bad e := by
  cases x with
  | error e => simp
  | ok a => simp

theorem failsWith_bind {f : α → Except ε β} :
    FailsWith bad (x >>= f) ↔ FailsWith bad x ∨ ∃ a, x = .ok a ∧ FailsWith bad (f a) := by
  cases x with
  | error e => simp [bind, Except.bind]
  | ok a => simp [bind, Except.bind]

theorem failsWith_map {f : α → β} : FailsWith bad (x.map f) ↔ FailsWith bad x := by
  cases x with
  | error e => simp [Except.map]
  | ok a => simp [Except.map]

theorem failsWith_mapError {bad : δ → Prop} {wrap : ε → δ} :
    FailsWith bad (x.mapError wrap) ↔ FailsWith (fun e => bad (wrap e)) x := by
  cases x with
  | error e => simp [Except.mapError]
  | ok a => simp [Except.mapError]

/-- The members before the one that fails have results. -/
theorem failsWith_mapM {f : α → Except ε β} : FailsWith bad (xs.mapM f) ↔
    ∃ before x after, xs = before ++ x :: after ∧ (∀ b ∈ before, ∃ y, f b = .ok y) ∧
      FailsWith bad (f x) := by
  induction xs with
  | nil => simp [pure, Except.pure]
  | cons x xs ih =>
    have hrest (y : β) : FailsWith bad (xs.mapM f >>= fun ys => pure (y :: ys)) ↔
        FailsWith bad (xs.mapM f) := by
      rw [failsWith_bind]
      exact or_iff_left fun ⟨_, _, h⟩ => not_failsWith_ok h
    simp only [List.mapM_cons, failsWith_bind (x := f x), hrest, ih]
    constructor
    · rintro (h | ⟨y, hy, before, z, after, rfl, hbefore, hz⟩)
      · exact ⟨[], x, xs, rfl, by simp, h⟩
      · exact ⟨x :: before, z, after, rfl, List.forall_mem_cons.2 ⟨⟨y, hy⟩, hbefore⟩, hz⟩
    · rintro ⟨before, z, after, hsplit, hbefore, hz⟩
      cases before with
      | nil =>
        obtain ⟨rfl, rfl⟩ := List.cons_eq_cons.1 hsplit
        exact Or.inl hz
      | cons b before =>
        obtain ⟨rfl, rfl⟩ := List.cons_eq_cons.1 hsplit
        obtain ⟨⟨y, hy⟩, hbefore⟩ := List.forall_mem_cons.1 hbefore
        exact Or.inr ⟨y, hy, before, z, after, rfl, hbefore, hz⟩

/-- A fold fails at one of its steps, and the steps before that go through. -/
theorem foldlM_eq_error {step : β → α → Except ε β} {b : β} {e : ε} :
    xs.foldlM step b = .error e ↔ ∃ before x after c, xs = before ++ x :: after ∧
      before.foldlM step b = .ok c ∧ step c x = .error e := by
  induction xs generalizing b with
  | nil => simp [pure, Except.pure]
  | cons x xs ih =>
    rw [List.foldlM_cons]
    constructor
    · intro h
      cases hx : step b x with
      | error cause =>
        rw [hx] at h
        cases h
        exact ⟨[], x, xs, b, rfl, rfl, hx⟩
      | ok next =>
        rw [hx] at h
        obtain ⟨before, y, after, c, rfl, hbefore, hy⟩ := ih.1 h
        refine ⟨x :: before, y, after, c, rfl, ?_, hy⟩
        rw [List.foldlM_cons, hx]
        exact hbefore
    · rintro ⟨before, y, after, c, hsplit, hbefore, hy⟩
      cases before with
      | nil =>
        obtain ⟨rfl, rfl⟩ := List.cons_eq_cons.1 hsplit
        cases hbefore
        rw [hy]
        rfl
      | cons z before =>
        obtain ⟨rfl, rfl⟩ := List.cons_eq_cons.1 hsplit
        rw [List.foldlM_cons] at hbefore
        obtain ⟨next, hx, hrest⟩ := bind_eq_ok.1 hbefore
        rw [hx]
        exact ih.2 ⟨before, y, after, c, rfl, hrest, hy⟩

/-! ## Optional results -/

/-- Values that are read one by one are the writings of what is read. -/
theorem mapM_eq_some_map {read : α → Option β} {write : β → α} {ys : List β}
    (h : ∀ x y, read x = some y ↔ x = write y) : xs.mapM read = some ys ↔ xs = ys.map write := by
  induction xs generalizing ys with
  | nil => simp [eq_comm]
  | cons x xs ih =>
    rw [List.mapM_cons]
    simp only [Option.bind_eq_bind, Option.bind_eq_some_iff, Option.pure_def, Option.some.injEq, h,
      ih]
    constructor
    · rintro ⟨y, rfl, zs, rfl, rfl⟩
      rfl
    · intro hys
      obtain ⟨y, zs, rfl, rfl, rfl⟩ := List.map_eq_cons_iff.1 hys.symm
      exact ⟨y, rfl, zs, rfl, rfl⟩

end LockFit
