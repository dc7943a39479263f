import YangSchema.Schema.Construct

/-!
# Schema trees

The nodes of a schema tree are numbered in the order in which they were added,
so a node stands behind its parent and siblings stand in their order. Each
node knows the nodes that enclose it; the children of a node are the nodes
that it encloses directly.
-/

namespace YangSchema

structure SchemaNode where
  name : String
  construct : Construct
  /-- The enclosing nodes, innermost first. -/
  ancestors : List NodeId
  position : Position
  span : Span
  metadata : Metadata
  deriving DecidableEq, Repr

namespace SchemaNode

def kind (node : SchemaNode) : ConstructKind :=
  node.construct.kind

/-- A node that encloses nothing and that nothing encloses. -/
def ofConstruct (construct : Construct) (name : String) (position : Position)
    (span : Span) : SchemaNode :=
  { name, construct, position, span
    ancestors := []
    metadata := .empty }

end SchemaNode

structure SchemaTree where
  source : SourceId
  nodes : Array SchemaNode
  deriving DecidableEq, Repr

namespace SchemaTree

def empty (source : SourceId) : SchemaTree :=
  ⟨source, #[]⟩

def isEmpty (tree : SchemaTree) : Bool :=
  tree.nodes.isEmpty

def size (tree : SchemaTree) : Nat :=
  tree.nodes.size

/-- The numbers of all nodes in their order. -/
def ids (tree : SchemaTree) : List NodeId :=
  List.range tree.size

def node? (tree : SchemaTree) (id : NodeId) : Option SchemaNode :=
  tree.nodes[id]?

def kind? (tree : SchemaTree) (id : NodeId) : Option ConstructKind :=
  (tree.node? id).map (·.kind)

def construct? (tree : SchemaTree) (id : NodeId) : Option Construct :=
  (tree.node? id).map (·.construct)

/-- Whether a node is of a kind. -/
def isKind (tree : SchemaTree) (id : NodeId) (kind : ConstructKind) : Bool :=
  tree.kind? id == some kind

/-- The enclosing nodes, innermost first. -/
def ancestors (tree : SchemaTree) (id : NodeId) : List NodeId :=
  match tree.node? id with
  | some node => node.ancestors
  | none => []

def parent? (tree : SchemaTree) (id : NodeId) : Option NodeId :=
  (tree.ancestors id).head?

/-- The nodes directly inside a node, in their order. -/
def children (tree : SchemaTree) (id : NodeId) : List NodeId :=
  tree.ids.filter fun child => tree.parent? child == some id

/-- The tree with one node more, enclosed by nothing. -/
def addRoot (tree : SchemaTree) (node : SchemaNode) : SchemaTree :=
  { tree with nodes := tree.nodes.push { node with ancestors := [] } }

/-- The tree with one node more, enclosed by `parent`. -/
def addChild (tree : SchemaTree) (parent : NodeId) (node : SchemaNode) :
    SchemaTree :=
  let ancestors := parent :: tree.ancestors parent
  { tree with nodes := tree.nodes.push { node with ancestors } }

def modifyConstruct (tree : SchemaTree) (id : NodeId)
    (change : Construct → Construct) : SchemaTree :=
  { tree with
    nodes := tree.nodes.modify id fun node =>
      { node with construct := change node.construct } }

def modifyMetadata (tree : SchemaTree) (id : NodeId)
    (change : Metadata → Metadata) : SchemaTree :=
  { tree with
    nodes := tree.nodes.modify id fun node =>
      { node with metadata := change node.metadata } }

/-- The first child with a kind and a name. -/
def findChild? (tree : SchemaTree) (parent : NodeId) (kind : ConstructKind)
    (name : String) : Option NodeId :=
  (tree.children parent).find? fun child =>
    match tree.node? child with
    | some node => node.kind == kind && node.name == name
    | none => false

/-- Whether some enclosing node is of a kind. -/
def isWithin (tree : SchemaTree) (id : NodeId) (kind : ConstructKind) : Bool :=
  (tree.ancestors id).any fun ancestor => tree.isKind ancestor kind

def root? (tree : SchemaTree) : Option SchemaNode :=
  tree.node? rootId

def header? (tree : SchemaTree) : Option ModuleHeader :=
  tree.root?.bind (·.construct.header?)

/-- The qualifier of the module's own names. -/
def ownQualifier? (tree : SchemaTree) : Option String :=
  tree.header?.map (·.qualifier)

def type? (tree : SchemaTree) (id : NodeId) : Option TypeUse :=
  (tree.construct? id).bind (·.type?)

end SchemaTree

end YangSchema
