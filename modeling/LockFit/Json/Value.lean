import LockFit.Number.Shortest
import LockFit.Text.Quoted

/-
  JSON values.
  Numbers without a fraction or an exponent are whole numbers of any size; the others are
  floating-point numbers. An object is the list of its members in the order in which their names
  first came.
-/

namespace LockFit

inductive Json where
  | null
  | bool (b : Bool)
  | int (n : Int)
  | float (x : Binary64)
  | text (s : Text)
  | list (items : List Json)
  | object (members : List (Text × Json))

namespace Json

instance : Inhabited Json := ⟨.null⟩

/-- The value under a name. -/
def find? (name : Text) : List (Text × Json) → Option Json
  | [] => none
  | m :: ms => if m.1 = name then some m.2 else find? name ms

/-- The members with a value put under a name: a name keeps its first place and its last value. -/
def put (name : Text) (v : Json) : List (Text × Json) → List (Text × Json)
  | [] => [(name, v)]
  | m :: ms => if m.1 = name then (name, v) :: ms else m :: put name v ms

/-- The value counts as true: it is neither null, false, zero nor empty. -/
def isTruthy : Json → Bool
  | null => false
  | bool b => b
  | int n => n ≠ 0
  | float x => !x.isZero
  | text s => s ≠ ""
  | list items => !items.isEmpty
  | object members => !members.isEmpty

/-- The texts of a list of texts; nothing if the value is anything else. -/
def texts? : Json → Option (List Text)
  | list items => items.mapM fun
    | text s => some s
    | _ => none
  | _ => none

mutual

/-- The value as messages show it. -/
def shown : Json → Text
  | null => "None"
  | bool b => if b then "True" else "False"
  | int n => toString n
  | float x => x.text
  | text s => Text.quoted s
  | list items => Text.bracketed (shownItems items)
  | object members => "\x7b" ++ Text.intercalate ", " (shownMembers members) ++ "\x7d"

def shownItems : List Json → List Text
  | [] => []
  | v :: vs => shown v :: shownItems vs

def shownMembers : List (Text × Json) → List Text
  | [] => []
  | (name, v) :: ms => (Text.quoted name ++ ": " ++ shown v) :: shownMembers ms

end

end Json

end LockFit
