import LockFit.Yaml.Graph
import LockFit.Yaml.Token

/-
  The graph of a YAML document, read from the tokens of its text.
  A node gets its number where it starts, so that an alias inside a collection can stand for that
  collection itself. A text holds one document at most.
-/

namespace LockFit.Yaml

/-- What is still to be read and what is wrong behind it, the tags that handles stand for, the
    nodes so far and those that have names. -/
structure Reader where
  run : TokenRun
  handles : List (Text × Text)
  anchors : List (Text × NodeId)
  graph : Graph

/-- A step of reading nodes. -/
abbrev Reading := StateT Reader (Except Fault)

namespace Reading

def malformed : Reading α := throw .malformed

/-- The token that comes next. -/
def peek : Reading Token := do
  let run := (← get).run
  match run.tokens with
  | t :: _ => return t
  | [] => throw run.fault

def drop : Reading Unit :=
  modify fun r => { r with run := { r.run with tokens := r.run.tokens.drop 1 } }

/-- Takes the token if it comes next. -/
def takes (t : Token) : Reading Bool := do
  if (← peek) = t then drop; return true else return false

/-- Takes the token, which has to come next. -/
def need (t : Token) : Reading Unit := do
  if !(← takes t) then malformed

/-- One of the tokens comes next. -/
def sees (ts : List Token) : Reading Bool := do return ts.contains (← peek)

def newNode (n : Node) : Reading NodeId := do
  let (id, graph) := (← get).graph.add n
  modify fun r => { r with graph := graph }
  return id

def newAbsent : Reading NodeId := newNode .absent

/-- Gives a node that was begun its parts. -/
def complete (id : NodeId) (n : Node) : Reading NodeId := do
  modify fun r => { r with graph := r.graph.modify id fun _ => n }
  return id

/-- The greatest number of collections around a node. -/
def depthLimit : Nat := 490

/-- The anchor and the tag in front of a node, in either order. -/
def takeProperties : Reading (Option Text × Option (Option Text × Text)) := do
  match ← peek with
  | .anchor name =>
    drop
    match ← peek with
    | .tag handle suffix => drop; return (some name, some (handle, suffix))
    | _ => return (some name, none)
  | .tag handle suffix =>
    drop
    match ← peek with
    | .anchor name => drop; return (some name, some (handle, suffix))
    | _ => return (none, some (handle, suffix))
  | _ => return (none, none)

/-- The full tag of a handle and a suffix. -/
def fullTag : Option (Option Text × Text) → Reading (Option Text)
  | none => return none
  | some (none, suffix) => return some suffix
  | some (some handle, suffix) => do
    match (← get).handles.find? fun h => h.1 = handle with
    | some (_, start) => return some (start ++ suffix)
    | none => malformed

/-- The node that an anchor names. -/
def named (name : Text) : Reading NodeId := do
  match (← get).anchors.find? fun a => a.1 = name with
  | some (_, id) => return id
  | none => malformed

/-- Gives a node its name, which no other node of the document may have had before. -/
def declare (anchor : Option Text) (id : NodeId) : Reading Unit := do
  match anchor with
  | none => return ()
  | some name =>
    if (← get).anchors.any fun a => a.1 = name then malformed
    else modify fun r => { r with anchors := (name, id) :: r.anchors }

/-- A node that is known as a whole, with its name. -/
def declareNew (anchor : Option Text) (n : Node) : Reading NodeId := do
  let id ← newNode n
  declare anchor id
  return id

/-- The tag of a node without one, or with the tag that leaves the choice open. -/
def isOpen (tag : Option Text) : Bool := tag = none || tag = some "!"

def scalarNode (tag : Option Text) (text : Text) (plain : Bool) : Node :=
  let tag := match tag with
    | some tag => if tag = "!" then plainTag text else tag
    | none => if plain then plainTag text else coreTag "str"
  .scalar tag text

def collectionTag (tag : Option Text) (sort : Text) : Text :=
  if isOpen tag then coreTag sort else tag.getD ""

/-- A node that is nothing but its properties. -/
def bare (anchor tag : Option Text) : Reading NodeId :=
  if anchor.isNone && tag.isNone then malformed
  else declareNew anchor (if isOpen tag then .absent else .scalar (tag.getD "") "")

mutual

/-- The node that comes next. Blocks may start here if `block` holds, and a list without
    indentation of its own if `indentless` does. -/
def node (block indentless : Bool) : (fuel depth : Nat) → Reading NodeId
  | 0, _ => malformed
  | fuel + 1, depth => do
    if depthLimit < depth then throw .tooDeep
    if let .alias name ← peek then
      drop
      return ← named name
    let (anchor, written) ← takeProperties
    let tag ← fullTag written
    let listTag := collectionTag tag "seq"
    let mapTag := collectionTag tag "map"
    let list (read : Reading (List NodeId)) : Reading NodeId := do
      let id ← declareNew anchor (.sequence listTag [])
      complete id (.sequence listTag (← read))
    let map (read : Reading (List Entry)) : Reading NodeId := do
      let id ← declareNew anchor (.mapping mapTag [])
      complete id (.mapping mapTag (← read))
    match ← peek with
    | .blockEntry =>
      if indentless then list (indentlessItems fuel (depth + 1)) else bare anchor tag
    | .scalar text plain =>
      drop
      declareNew anchor (scalarNode tag text plain)
    | .flowSequenceStart =>
      drop
      list (flowItems true fuel (depth + 1))
    | .flowMappingStart =>
      drop
      map (flowEntries true fuel (depth + 1))
    | .blockSequenceStart =>
      if block then
        drop
        list (blockItems fuel (depth + 1))
      else bare anchor tag
    | .blockMappingStart =>
      if block then
        drop
        map (blockEntries fuel (depth + 1))
      else bare anchor tag
    | _ => bare anchor tag
  termination_by structural fuel => fuel

/-- The node that comes next, or an absent one before any of the tokens. -/
def nodeUnless (ends : List Token) (block indentless : Bool) : (fuel depth : Nat) → Reading NodeId
  | 0, _ => malformed
  | fuel + 1, depth => do
    if ← sees ends then newAbsent else node block indentless fuel depth
  termination_by structural fuel => fuel

def blockItems : (fuel depth : Nat) → Reading (List NodeId)
  | 0, _ => malformed
  | fuel + 1, depth => do
    if ← takes .blockEntry then
      let n ← nodeUnless [.blockEntry, .blockEnd] true false fuel depth
      return n :: (← blockItems fuel depth)
    else
      need .blockEnd
      return []
  termination_by structural fuel => fuel

def indentlessItems : (fuel depth : Nat) → Reading (List NodeId)
  | 0, _ => malformed
  | fuel + 1, depth => do
    if ← takes .blockEntry then
      let n ← nodeUnless [.blockEntry, .key, .value, .blockEnd] true false fuel depth
      return n :: (← indentlessItems fuel depth)
    else return []
  termination_by structural fuel => fuel

def blockEntries : (fuel depth : Nat) → Reading (List Entry)
  | 0, _ => malformed
  | fuel + 1, depth => do
    if ← takes .key then
      let k ← nodeUnless [.key, .value, .blockEnd] true true fuel depth
      let v ← if ← takes .value
        then nodeUnless [.key, .value, .blockEnd] true true fuel depth
        else newAbsent
      return (k, v) :: (← blockEntries fuel depth)
    else
      need .blockEnd
      return []
  termination_by structural fuel => fuel

/-- The items between brackets; every one but the first stands behind a comma. A key with a value
    makes a mapping of its own. -/
def flowItems (first : Bool) : (fuel depth : Nat) → Reading (List NodeId)
  | 0, _ => malformed
  | fuel + 1, depth => do
    if ← takes .flowSequenceEnd then return []
    if !first then need .flowEntry
    if ← takes .key then
      if depthLimit < depth then throw .tooDeep
      let k ← nodeUnless [.value, .flowEntry, .flowSequenceEnd] false false fuel (depth + 1)
      let v ← if ← takes .value
        then nodeUnless [.flowEntry, .flowSequenceEnd] false false fuel (depth + 1)
        else newAbsent
      let n ← newNode (.mapping (coreTag "map") [(k, v)])
      return n :: (← flowItems false fuel depth)
    else if ← takes .flowSequenceEnd then return []
    else
      let n ← node false false fuel depth
      return n :: (← flowItems false fuel depth)
  termination_by structural fuel => fuel

/-- The entries between braces; a key may stand without a value. -/
def flowEntries (first : Bool) : (fuel depth : Nat) → Reading (List Entry)
  | 0, _ => malformed
  | fuel + 1, depth => do
    if ← takes .flowMappingEnd then return []
    if !first then need .flowEntry
    if ← takes .key then
      let k ← nodeUnless [.value, .flowEntry, .flowMappingEnd] false false fuel depth
      let v ← if ← takes .value
        then nodeUnless [.flowEntry, .flowMappingEnd] false false fuel depth
        else newAbsent
      return (k, v) :: (← flowEntries false fuel depth)
    else if ← takes .flowMappingEnd then return []
    else
      let k ← node false false fuel depth
      let v ← newAbsent
      return (k, v) :: (← flowEntries false fuel depth)
  termination_by structural fuel => fuel

end

/-! ## Documents -/

/-- The handles that need no declaration. -/
def standardHandles : List (Text × Text) := [("!", "!"), ("!!", coreTag "")]

/-- The directives in front of a document: at most one version, which has to be a first one, and
    no handle twice. `versionSeen` says that there was a version before. -/
def takeDirectives : (fuel : Nat) → (versionSeen : Bool) → Reading Unit
  | 0, _ => malformed
  | fuel + 1, versionSeen => do
    match ← peek with
    | .directive (.version major) =>
      drop
      if versionSeen || major ≠ 1 then malformed else takeDirectives fuel true
    | .directive (.handle name start) =>
      drop
      if (← get).handles.any fun h => h.1 = name then malformed
      modify fun r => { r with handles := (name, start) :: r.handles }
      takeDirectives fuel versionSeen
    | .directive .other => drop; takeDirectives fuel versionSeen
    | _ => return ()

def isDirective : Token → Bool
  | .directive _ => true
  | _ => false

/-- The start of a document that is marked as one. -/
def takeStart (fuel : Nat) : Reading Unit := do
  modify fun r => { r with handles := [] }
  takeDirectives fuel false
  modify fun r =>
    let more := standardHandles.filter fun h => !r.handles.any fun g => g.1 = h.1
    { r with handles := r.handles ++ more }
  need .documentStart

/-- The marks at the end of a document, of which there may be several. -/
def takeEnds : (fuel : Nat) → Reading Unit
  | 0 => malformed
  | fuel + 1 => do if ← takes .documentEnd then takeEnds fuel

/-- The document of the text, if there is one; nothing may follow it. -/
def document (fuel : Nat) : Reading (Option NodeId) := do
  if ← sees [.streamEnd] then return none
  let start ← peek
  let root ←
    if isDirective start || start = .documentStart then do
      takeStart fuel
      if isDirective (← peek) then newAbsent
      else nodeUnless [.documentStart, .documentEnd, .streamEnd] true false fuel 0
    else do
      modify fun r => { r with handles := standardHandles }
      node true false fuel 0
  takeEnds fuel
  if ← takes .streamEnd then return some root
  takeStart fuel
  malformed

end Reading

/-- The graph of the document that a text holds and the number of its root, if it holds one. -/
def readGraph (text : Text) : Except Fault (Graph × Option NodeId) := do
  let run := tokens text
  let fuel := 4 * run.tokens.length + 8
  let (root, reader) ← (Reading.document fuel).run ⟨run, [], [], .empty⟩
  return (reader.graph, root)

end LockFit.Yaml
