import YangSchema.Draft.Frame
import YangSchema.Draft.Siblings
import YangSchema.Linking.Reference
import YangSchema.Statement.Value

/-!
# Drafts of schema trees

A draft is what the statements read so far amount to: the tree, the frames that
are still open, the references to be linked and the warnings. A step takes one
statement into account; it fails as a whole or not at all.
-/

namespace YangSchema

structure Draft where
  tree : SchemaTree
  stack : FrameStack
  queue : ReferenceQueue
  /-- Lists whose keys can be checked only when `uses` are linked. -/
  deferredKeys : List NodeId
  warnings : Diagnostics
  deriving Repr

namespace Draft

/-- What one statement does to a draft. -/
abbrev Step :=
  Draft → Statement → Except StatementError Draft

def empty (source : SourceId) : Draft :=
  { tree := .empty source
    stack := []
    queue := []
    deferredKeys := []
    warnings := [] }

/-- How an open frame is named in messages. -/
def holderName (draft : Draft) : Frame → String
  | .node id =>
      match draft.tree.kind? id with
      | some kind => kind.keyword
      | none => FrameKind.node.name
  | .type use => "type " ++ use.name.text
  | frame => frame.kind.name

/-- The error about a statement that its holder does not take. -/
def invalidHolder (draft : Draft) (statement : Statement) : StatementError :=
  match draft.stack with
  | [] => FrameStack.emptyError statement .entry
  | frame :: _ =>
      .of .invalidHolder statement .entry
        s!"`{statement.keywordText}` is not allowed under `{draft.holderName frame}`"

/-- The node on top of the stack, if its kind is accepted. -/
def nodeHolder (draft : Draft) (statement : Statement)
    (accepts : ConstructKind → Bool) : Except StatementError NodeId := do
  match ← draft.stack.top statement .entry with
  | .node id =>
      if (draft.tree.kind? id).any accepts then
        return id
      else
        throw (draft.invalidHolder statement)
  | _ => throw (draft.invalidHolder statement)

/-- The module or submodule on top of the stack. -/
def rootHolder (draft : Draft) (statement : Statement) :
    Except StatementError NodeId :=
  draft.nodeHolder statement ConstructKind.isModule

def push (draft : Draft) (frame : Frame) : Draft :=
  { draft with stack := frame :: draft.stack }

/-- The number that the next node gets. -/
def nextId (draft : Draft) : NodeId :=
  draft.tree.size

/-- Adds a node inside `parent` without opening it. -/
def addNode (draft : Draft) (statement : Statement) (parent : NodeId)
    (construct : Construct) (name : String) : Draft :=
  { draft with
    tree := draft.tree.addChild parent <|
      .ofConstruct construct name statement.position statement.headSpan }

/-- Adds a node inside `parent` and opens it. -/
def openNode (draft : Draft) (statement : Statement) (parent : NodeId)
    (construct : Construct) (name : String) : Draft :=
  (draft.addNode statement parent construct name).push (.node draft.nextId)

/-- Takes the node off the stack that the statement opened. -/
def closeNode (draft : Draft) (statement : Statement) :
    Except StatementError (NodeId × Draft) := do
  let keyword := statement.keywordText
  match ← draft.stack.top statement .exit with
  | .node id =>
      let found := draft.holderName (.node id)
      if found ≠ keyword then
        throw <| FrameStack.mismatch statement
          s!"expected `{keyword}` on top, found `{found}`"
      return (id, { draft with stack := ← draft.stack.popNode statement id })
  | _ =>
      throw <| FrameStack.mismatch statement
        s!"expected a `{keyword}` node on top"

/-- Takes the content of the frame off the stack that the statement opened. -/
def closeFrame {α : Type} (draft : Draft) (statement : Statement)
    (expected : FrameKind) (content? : Frame → Option α) :
    Except StatementError (α × Draft) := do
  let (content, stack) ← draft.stack.take statement expected content?
  return (content, { draft with stack })

/-- Closes a node that needs no check. -/
def closePlainNode : Step := fun draft statement => do
  let (_, draft) ← draft.closeNode statement
  return draft

def modifyConstruct (draft : Draft) (id : NodeId)
    (change : Construct → Construct) : Draft :=
  { draft with tree := draft.tree.modifyConstruct id change }

def modifyMetadata (draft : Draft) (id : NodeId)
    (change : Metadata → Metadata) : Draft :=
  { draft with tree := draft.tree.modifyMetadata id change }

def modifyHeader (draft : Draft) (id : NodeId)
    (change : ModuleHeader → ModuleHeader) : Draft :=
  draft.modifyConstruct id (Construct.mapHeader change)

/-- Writes into the holder: into a frame with `frame`, into a node with
`construct`. It fails when the chosen one takes nothing. -/
def fill (draft : Draft) (statement : Statement)
    (frame : Frame → Option Frame) (construct : Construct → Option Construct) :
    Except StatementError Draft := do
  match ← draft.stack.top statement .entry with
  | .node id =>
      match (draft.tree.construct? id).bind construct with
      | some filled => return draft.modifyConstruct id fun _ => filled
      | none => throw (draft.invalidHolder statement)
  | holder =>
      match frame holder with
      | some filled => return { draft with stack := filled :: draft.stack.tail }
      | none => throw (draft.invalidHolder statement)

/-- Writes into the holder: into a frame with `frame`, into the metadata of a
node if its kind is accepted. -/
def annotate (draft : Draft) (statement : Statement)
    (frame : Frame → Option Frame) (accepts : ConstructKind → Bool)
    (change : Metadata → Metadata) : Except StatementError Draft := do
  match ← draft.stack.top statement .entry with
  | .node id =>
      if (draft.tree.kind? id).any accepts then
        return draft.modifyMetadata id change
      else
        throw (draft.invalidHolder statement)
  | holder =>
      match frame holder with
      | some filled => return { draft with stack := filled :: draft.stack.tail }
      | none => throw (draft.invalidHolder statement)

/-- The config that holds at a node unless something says otherwise: that of the
innermost node around it that has one, and true outside of all. -/
def inheritedConfig (draft : Draft) (id : NodeId) : Bool :=
  let config? (id : NodeId) : Option Config :=
    (draft.tree.construct? id).bind (·.config?)
  match (id :: draft.tree.ancestors id).findSome? config? with
  | some config => config.value
  | none => true

/-- The config of a new data node inside `parent`. -/
def configWithin (draft : Draft) (statement : Statement) (parent : NodeId) :
    Except StatementError Config := do
  let inherited := draft.inheritedConfig parent
  match statement.find? .config with
  | none => return ⟨inherited, false⟩
  | some declared =>
      let value ← declared.booleanArgument
      if value && !inherited then
        throw <| .of .dataModelConstraintViolation declared .entry
          "`config true` under a `config false` node"
      return ⟨value, true⟩

/-- Whether the references of a node wait until a leaf uses its typedef. -/
def isTemplate (draft : Draft) (id : NodeId) : Bool :=
  (id :: draft.tree.ancestors id).any (draft.tree.isKind · .typedef)

/-- Queues a reference that the statement makes for a node. -/
def enqueue (draft : Draft) (statement : Statement) (kind : ReferenceKind)
    (text : String) (consumer : NodeId) : Draft :=
  { draft with
    queue := draft.queue ++
      [.ofText kind text consumer statement.position statement.headSpan] }

end Draft

/-- A rule of the data model that a complete statement breaks. -/
def Statement.violation (statement : Statement) (detail : String) :
    StatementError :=
  .of .dataModelConstraintViolation statement .exit detail

end YangSchema
