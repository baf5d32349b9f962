import LockFit.Yaml.Merge
import LockFit.Yaml.Reading
import LockFit.Yaml.Spelling
import LockFit.Yaml.Value

/-
  The value of a YAML document.
  Scalars have their values at once. A collection is begun where it is first met and gets its parts
  later, in the order in which collections were begun: the parts of the root before those of its
  parts, and so on. The first fault on this way counts. A collection cannot be a key. A mapping
  gets its merged entries before its parts have values; of two entries with one key the later one
  counts.
-/

namespace LockFit.Yaml

/-- The sorts of collections. -/
inductive CollectionSort where
  | list
  | pairs
  | map
  | set

def collectionSort? (tag : Text) : Option CollectionSort :=
  if tag = coreTag "seq" then some .list
  else if tag = coreTag "omap" || tag = coreTag "pairs" then some .pairs
  else if tag = coreTag "map" then some .map
  else if tag = coreTag "set" then some .set
  else none

/-- The value of a node: an atom, or the collection that was begun after so many others. -/
inductive Part where
  | atom (a : Atom)
  | collection (place : Nat)

/-- The parts of a collection. -/
inductive Content where
  | list (items : List Part)
  | pairs (entries : List (Part × Part))
  | set (members : List Atom)
  | map (entries : List (Atom × Part))

/-- The values that are known so far: those of nodes, by number, the collections that were begun,
    and the contents of the first of them. -/
structure Building where
  graph : Graph
  parts : Array (Option Part)
  begun : Array (NodeId × CollectionSort)
  contents : Array Content

/-- A step of building values. -/
abbrev Build := StateT Building (Except Fault)

namespace Build

/-- The text of a scalar. A mapping with a value of its own stands for the text of that; one that
    is its own value has none. -/
def textOf (g : Graph) : (fuel : Nat) → NodeId → Except Fault Text
  | 0, _ => .error .tooDeep
  | fuel + 1, id => match g.get id with
    | .scalar _ text => .ok text
    | .sequence .. => .error .malformed
    | .mapping _ entries =>
      match entries.find? fun e => (g.get e.1).tag = coreTag "value" with
      | some (_, own) => textOf g fuel own
      | none => .error .malformed

/-- The tags of the scalars that have values. -/
def atomTags : List Text :=
  let sorts : List Text := ["str", "null", "bool", "int", "float", "timestamp", "binary"]
  sorts.map coreTag

def atomOf (id : NodeId) : Build Atom := do
  let g := (← get).graph
  let n := g.get id
  if !atomTags.contains n.tag then throw .malformed
  let text ← textOf g (g.size + 1) id
  if n.tag = coreTag "timestamp" && n.isMapping then throw .scatteredMoment
  readAtom id n.tag text

/-- The value of a node that has none yet. -/
def newPart (id : NodeId) : Build Part := do
  let b ← get
  match collectionSort? (b.graph.get id).tag with
  | some sort =>
    modify fun b => { b with begun := b.begun.push (id, sort) }
    return .collection b.begun.size
  | none => return .atom (← atomOf id)

def partOf (id : NodeId) : Build Part := do
  match (← get).parts.getD id none with
  | some part => return part
  | none =>
    let part ← newPart id
    modify fun b => { b with parts := b.parts.setIfInBounds id (some part) }
    return part

/-- The value of a node that is a key. -/
def keyOf (id : NodeId) : Build Atom := do
  match ← partOf id with
  | .atom a => return a
  | .collection _ => throw .malformed

def itemsOf (id : NodeId) : Build (List NodeId) := do
  match (← get).graph.get id with
  | .sequence _ items => return items
  | _ => throw .malformed

/-- The entries of a mapping, in which each key has its first place and its last value. -/
def entriesOf (id : NodeId) : Build (List (Atom × Part)) := do
  if !((← get).graph.get id).isMapping then throw .malformed
  let graph ← (← get).graph.merge id
  modify fun b => { b with graph := graph }
  let entries ← (graph.get id).entries.mapM fun (k, v) => do
    let key ← keyOf k
    return (key, ← partOf v)
  return entries.foldl (fun es (k, v) => put k v es) []

/-- The key and the value of a mapping that has one entry. -/
def pairOf (id : NodeId) : Build (Part × Part) := do
  match ((← get).graph.get id).entries with
  | [(k, v)] => return (← partOf k, ← partOf v)
  | _ => throw .malformed

def contentOf (id : NodeId) (sort : CollectionSort) : Build Content :=
  match sort with
  | .list => do return .list (← (← itemsOf id).mapM partOf)
  | .pairs => do return .pairs (← (← itemsOf id).mapM pairOf)
  | .map => do return .map (← entriesOf id)
  | .set => do return .set ((← entriesOf id).map Prod.fst)

/-- The contents of all collections that are begun and have none. Each node begins one collection
    at most, which bounds their number. -/
def fill : (fuel : Nat) → Build Unit
  | 0 => return ()
  | fuel + 1 => do
    let b ← get
    match b.begun[b.contents.size]? with
    | none => return ()
    | some (id, sort) =>
      let content ← contentOf id sort
      modify fun b => { b with contents := b.contents.push content }
      fill fuel

end Build

/-! ## Unfolding -/

/-- A part, if every collection has the value at its place. -/
def Part.unfold (values : Array Yaml) : Part → Yaml
  | atom a => .atom a
  | collection place => values.getD place .folded

def Content.unfold (values : Array Yaml) : Content → Yaml
  | list items => .list (items.map (·.unfold values))
  | pairs entries => .pairs (entries.map fun (k, v) => (k.unfold values, v.unfold values))
  | set members => .set members
  | map entries => .map (entries.map fun (k, v) => (k, v.unfold values))

/-- The values of the collections, so many collections deep. -/
def unfoldAll (contents : Array Content) : (depth : Nat) → Array Yaml
  | 0 => contents.map fun _ => .folded
  | depth + 1 =>
    let values := unfoldAll contents depth
    contents.map (·.unfold values)

/-- The value of a node of a graph, so many collections deep. -/
def valueOf (depth : Nat) (g : Graph) (root : NodeId) : Except Fault Yaml := do
  let build : Build Part := do
    let part ← Build.partOf root
    Build.fill g.size
    return part
  let (part, b) ← build.run ⟨g, .replicate g.size none, #[], #[]⟩
  return part.unfold (unfoldAll b.contents depth)

/-- The value of the document that a text holds, so many collections deep; without a document it
    is nothing. -/
def read (depth : Nat) (text : Text) : Except Fault Yaml := do
  match ← readGraph text with
  | (_, none) => return .atom .null
  | (g, some root) => valueOf depth g root

end LockFit.Yaml
