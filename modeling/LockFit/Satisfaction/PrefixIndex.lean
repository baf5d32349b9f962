import LockFit.ImportPath
import LockFit.Json.Value

/-
  An index of import paths by their segments.
  The index is a tree: a path leads from the root along its segments, and the node where it ends
  keeps the path as it was given. The longest indexed start of a path is the last kept path on
  the way that the path leads.
-/

namespace LockFit

/-- A node: the path that ends here, if any, and the nodes that go on, each under a segment. -/
inductive PathNode where
  | node (key : Option Text) (children : List (Text × PathNode))

namespace PathNode

def key : PathNode → Option Text
  | node key _ => key

def children : PathNode → List (Text × PathNode)
  | node _ children => children

/-- A node where no path ends and none goes on. -/
def leaf : PathNode := node none []

/-- The node under a segment. -/
def look (segment : Text) : List (Text × PathNode) → Option PathNode
  | [] => none
  | (s, child) :: rest => if s = segment then some child else look segment rest

/-- The nodes with the one under a segment changed; a leaf is put there first if there is none. -/
def change (segment : Text) (f : PathNode → PathNode) :
    List (Text × PathNode) → List (Text × PathNode)
  | [] => [(segment, f leaf)]
  | (s, child) :: rest =>
    if s = segment then (s, f child) :: rest else (s, child) :: change segment f rest

/-- The tree with a path kept at the end of the way that the segments lead. -/
def insert (path : Text) : List Text → PathNode → PathNode
  | [], n => node (some path) n.children
  | s :: rest, n => node n.key (change s (insert path rest) n.children)

/-- The node at the end of the way that the segments lead. -/
def descend : List Text → PathNode → Option PathNode
  | [], n => some n
  | s :: rest, n => (look s n.children).bind (descend rest)

/-- The last path kept on the way that the segments lead, the node itself not counted. -/
def longest : List Text → PathNode → Option Text
  | [], _ => none
  | s :: rest, n => match look s n.children with
    | none => none
    | some child => (longest rest child).or child.key

end PathNode

/-- An index of import paths; `size` counts the places where a path is kept. -/
structure PrefixIndex where
  root : PathNode
  size : Nat

namespace PrefixIndex

open ImportPath

def empty : PrefixIndex := ⟨.leaf, 0⟩

instance : Inhabited PrefixIndex := ⟨empty⟩

/-- The path kept at the end of the way that the segments lead. -/
def keyAt (index : PrefixIndex) (way : List Text) : Option Text :=
  (index.root.descend way).bind PathNode.key

/-- The index with a path added, in place of one with the same segments. A path without segments
    is not kept. -/
def insert (index : PrefixIndex) (path : Text) : PrefixIndex :=
  let way := segments path
  if way = [] then index
  else ⟨index.root.insert path way,
    if (index.keyAt way).isNone then index.size + 1 else index.size⟩

def ofList (paths : List Text) : PrefixIndex := paths.foldl insert empty

/-- The indexed path with the most segments among those whose segments the path starts with. -/
def longestPrefix (index : PrefixIndex) (path : Text) : Option Text :=
  index.root.longest (segments path)

/-- A path with the same segments is indexed. -/
def contains (index : PrefixIndex) (path : Text) : Bool :=
  let way := segments path
  way ≠ [] && (index.keyAt way).isSome

/-- The same question about any value: only a text can be a path. -/
def containsValue (index : PrefixIndex) : Json → Bool
  | .text path => index.contains path
  | _ => false

end PrefixIndex

end LockFit
