import LockFit.Json.Value
import LockFit.Proofs.Outcome

/-
  The shape of a JSON value.
  A value gives texts exactly if it is a list of them (`texts?_eq_some`). What an object lists under
  a name is nothing if the name is missing (`ListsValues`, `ListsTexts`).
-/

namespace LockFit.Json

theorem texts?_eq_some {v : Json} {texts : List Text} :
    v.texts? = some texts ↔ v = .list (texts.map .text) := by
  cases v with
  | list items =>
    rw [texts?, list.injEq]
    refine mapM_eq_some_map fun item s => ?_
    cases item <;> simp
  | null | bool | int | float | text | object => simp [texts?]

/-- Under the name stands a list of the items, or the name is missing and there are none. -/
def ListsValues (name : Text) (members : List (Text × Json)) (items : List Json) : Prop :=
  find? name members = some (.list items) ∨ find? name members = none ∧ items = []

/-- The same for a list of texts. -/
def ListsTexts (name : Text) (members : List (Text × Json)) (texts : List Text) : Prop :=
  ListsValues name members (texts.map .text)

end LockFit.Json
