import LockFit.Yaml.Plain

/-
  The nodes of a YAML document and how they refer to each other.
  A node is a scalar, a sequence or a mapping, each with its full tag. Collections refer to their
  parts by number, so that one node can stand in several places, and inside itself.
-/

namespace LockFit.Yaml

/-- The number of a node: how many nodes of the document started before it. -/
abbrev NodeId := Nat

abbrev Entry := NodeId × NodeId

inductive Node where
  | scalar (tag text : Text)
  | sequence (tag : Text) (items : List NodeId)
  | mapping (tag : Text) (entries : List Entry)

namespace Node

/-- The node of a place where nothing is written. -/
def absent : Node := .scalar (coreTag "null") ""

instance : Inhabited Node := ⟨absent⟩

def tag : Node → Text
  | scalar tag _ | sequence tag _ | mapping tag _ => tag

def withTag (tag : Text) : Node → Node
  | scalar _ text => scalar tag text
  | sequence _ items => sequence tag items
  | mapping _ entries => mapping tag entries

def isMapping : Node → Bool
  | mapping .. => true
  | _ => false

/-- The entries of a mapping; other nodes have none. -/
def entries : Node → List Entry
  | mapping _ entries => entries
  | _ => []

def withEntries (entries : List Entry) : Node → Node
  | mapping tag _ => mapping tag entries
  | n => n

end Node

structure Graph where
  nodes : Array Node

namespace Graph

def empty : Graph := ⟨#[]⟩

def size (g : Graph) : Nat := g.nodes.size

/-- The graph with another node, and the number of that node. -/
def add (g : Graph) (n : Node) : NodeId × Graph := (g.size, ⟨g.nodes.push n⟩)

def get (g : Graph) (id : NodeId) : Node := g.nodes.getD id .absent

def modify (g : Graph) (id : NodeId) (f : Node → Node) : Graph := ⟨g.nodes.modify id f⟩

/-- The number of all entries of all mappings. -/
def entryCount (g : Graph) : Nat := g.nodes.foldl (fun count n => count + n.entries.length) 0

end Graph

end LockFit.Yaml
