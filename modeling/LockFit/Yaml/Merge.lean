import LockFit.Yaml.Fault
import LockFit.Yaml.Graph

/-
  Mappings that take entries from other mappings.
  A key with the merge tag is no key: its value is a mapping, or a list of mappings, whose entries
  are put in front of the mapping's own, those of a later mapping of a list first. The mapping is
  changed in the graph, once and for all, and the mappings that it takes entries from are changed
  in the same way before. Every step removes a merge key and none ever adds one, so merging ends
  also where mappings take entries from themselves.
-/

namespace LockFit.Yaml

/-- A step of merging, which changes the graph. -/
abbrev Merging := StateT Graph (Except Fault)

namespace Merging

def isMergeKey (g : Graph) (e : Entry) : Bool := (g.get e.1).tag = coreTag "merge"

/-- A key that stands for a mapping's own value becomes a key like others. -/
def settleKey (e : Entry) : Merging Unit :=
  modify fun g =>
    if (g.get e.1).tag = coreTag "value" then g.modify e.1 (Node.withTag (coreTag "str")) else g

def entriesOf (id : NodeId) : Merging (List Entry) := do return ((← get).get id).entries

def setEntries (id : NodeId) (entries : List Entry) : Merging Unit :=
  modify fun g => g.modify id (Node.withEntries entries)

mutual

/-- Puts the entries that the merge keys of a mapping ask for in front of its own. -/
def flatten : (fuel : Nat) → NodeId → Merging Unit
  | 0, _ => throw .tooDeep
  | fuel + 1, id => do
    let given ← gather fuel id 0
    setEntries id (given ++ (← entriesOf id))
  termination_by structural fuel => fuel

/-- Removes the merge keys of a mapping from so many entries on, and gives what they ask for. -/
def gather : (fuel : Nat) → NodeId → (start : Nat) → Merging (List Entry)
  | 0, _, _ => throw .tooDeep
  | fuel + 1, id, start => do
    let entries ← entriesOf id
    let graph ← get
    let kept := (entries.drop start).takeWhile fun e => !isMergeKey graph e
    kept.forM settleKey
    let next := start + kept.length
    match entries.drop next with
    | [] => return []
    | (_, source) :: rest =>
      setEntries id (entries.take next ++ rest)
      let given ← taken fuel source
      return given ++ (← gather fuel id next)
  termination_by structural fuel => fuel

/-- The entries that a mapping, or a list of mappings, gives to another one. -/
def taken : (fuel : Nat) → NodeId → Merging (List Entry)
  | 0, _ => throw .tooDeep
  | fuel + 1, source => do
    match (← get).get source with
    | .mapping .. =>
      flatten fuel source
      entriesOf source
    | .sequence _ items =>
      let given ← items.mapM fun item => do
        if !((← get).get item).isMapping then throw .malformed
        flatten fuel item
        entriesOf item
      return given.reverse.flatten
    | .scalar .. => throw .malformed
  termination_by structural fuel => fuel

end

end Merging

/-- The graph after the mapping has got the entries that its merge keys ask for. -/
def Graph.merge (g : Graph) (id : NodeId) : Except Fault Graph :=
  ((Merging.flatten (3 * g.entryCount + 6) id).run g).map Prod.snd

end LockFit.Yaml
