import LockFit.Json.Value
import LockFit.Yaml.Atom

/-
  The values of YAML documents.
  A value is an atom or a collection, and the keys of mappings are atoms. A collection may contain
  itself, so a value shows collections down to some depth, below which they are folded. A JSON
  value is also a YAML value.
-/

namespace LockFit

inductive Yaml where
  | atom (a : Yaml.Atom)
  | list (items : List Yaml)
  | pairs (entries : List (Yaml × Yaml))
  | set (members : List Yaml.Atom)
  | map (entries : List (Yaml.Atom × Yaml))
  | folded

namespace Yaml

instance : Inhabited Yaml := ⟨.atom .null⟩

mutual

/-- A JSON value as the YAML value that it is. -/
def ofJson : Json → Yaml
  | .null => .atom .null
  | .bool b => .atom (.bool b)
  | .int n => .atom (.int n)
  | .float x => .atom (.ofFloat none x)
  | .text s => .atom (.text s)
  | .list items => .list (ofItems items)
  | .object members => .map (ofMembers members)

def ofItems : List Json → List Yaml
  | [] => []
  | v :: vs => ofJson v :: ofItems vs

def ofMembers : List (Text × Json) → List (Atom × Yaml)
  | [] => []
  | (name, v) :: ms => (.text name, ofJson v) :: ofMembers ms

end

/-- The value counts as true: it is neither null, false, zero nor empty. -/
def isTruthy : Yaml → Bool
  | atom a => a.isTruthy
  | list items => !items.isEmpty
  | pairs entries => !entries.isEmpty
  | set members => !members.isEmpty
  | map entries => !entries.isEmpty
  | folded => true

/-- The value under a text. -/
def find? (name : Text) : List (Atom × α) → Option α
  | [] => none
  | (.text s, v) :: es => if s = name then some v else find? name es
  | _ :: es => find? name es

/-- The entries with a value put under a key: a key keeps its first place and its last value. -/
def put (k : Atom) (v : α) : List (Atom × α) → List (Atom × α)
  | [] => [(k, v)]
  | e :: es => if e.1.sameKey k then (e.1, v) :: es else e :: put k v es

end Yaml

end LockFit
