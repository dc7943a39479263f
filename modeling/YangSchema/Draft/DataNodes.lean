import YangSchema.Draft.Draft
import YangSchema.Statement.Cardinality

/-!
# Data nodes

Containers, lists, leaves, choices, and the `uses` and `augment` statements that
bring data nodes in from elsewhere. What a node must contain is checked when its
statement ends.
-/

namespace YangSchema

/-- Fails when a lower bound exceeds an upper bound. -/
def Statement.checkElementBounds (statement : Statement) (minElements : Nat)
    (maxElements : MaxElements) : Except StatementError Unit :=
  if maxElements.admits minElements then
    .ok ()
  else
    .error <| statement.violation
      s!"min-elements {minElements} exceeds max-elements {maxElements.text}"

namespace Draft

/-- The kinds that hold data definitions. -/
def holdsData (kind : ConstructKind) : Bool :=
  [.module, .submodule, .container, .list, .grouping, .case, .augment, .input,
    .output, .notification].contains kind

/-- A choice also holds data nodes, each of which is a case of its own. -/
def holdsDataOrChoice (kind : ConstructKind) : Bool :=
  holdsData kind || kind == .choice

/-- Opens a data node once its config is known. -/
def openDataNode (accepts : ConstructKind → Bool)
    (construct : Config → Construct) : Step := fun draft statement => do
  let name ← statement.identifierArgument
  Cardinality.check statement
  let parent ← draft.nodeHolder statement accepts
  let kind := (construct ⟨true, false⟩).kind
  match (draft.tree.kind? parent).bind (NameCategory.of? kind) with
  | some category =>
      NameCategory.checkFresh draft.tree parent statement name category
  | none => pure ()
  let config ← draft.configWithin statement parent
  return draft.openNode statement parent (construct config) name

def openContainer : Step :=
  openDataNode holdsDataOrChoice fun config => .container ⟨none, config⟩

def openLeaf : Step :=
  openDataNode holdsDataOrChoice fun config =>
    .leaf
      { type := none
        units := none
        default := none
        mandatory := false
        config }

def closeLeaf : Step := fun draft statement => do
  let (id, draft) ← draft.closeNode statement
  match draft.tree.construct? id with
  | some (.leaf body) =>
      if body.default.isSome && body.mandatory then
        throw <| statement.violation
          "a leaf with a `default` cannot be `mandatory true`"
  | _ => pure ()
  return draft

def openLeafList : Step :=
  openDataNode holdsDataOrChoice fun config =>
    .leafList
      { type := none
        units := none
        minElements := 0
        maxElements := .unbounded
        orderedBy := .system
        config }

def closeLeafList : Step := fun draft statement => do
  let (id, draft) ← draft.closeNode statement
  match draft.tree.construct? id with
  | some (.leafList body) =>
      statement.checkElementBounds body.minElements body.maxElements
  | _ => pure ()
  return draft

def openList : Step :=
  openDataNode holdsDataOrChoice fun config =>
    .list
      { keys := []
        uniques := []
        minElements := 0
        maxElements := .unbounded
        orderedBy := .system
        config
        keyPlace := none }

/-- Whether the config of a list is decided where it is instantiated, so that
it need not have a key where it is defined. -/
def isOutsideDatastore (tree : SchemaTree) (id : NodeId) : Bool :=
  (tree.ancestors id).any fun ancestor =>
    (tree.kind? ancestor).any
      [.grouping, .augment, .input, .output, .notification].contains

def hasChildOf (tree : SchemaTree) (id : NodeId)
    (accepts : ConstructKind → Bool) : Bool :=
  (tree.children id).any fun child => (tree.kind? child).any accepts

/-- Fails at the first key that is no leaf of the list. -/
def checkKeys (tree : SchemaTree) (statement : Statement) (list : NodeId)
    (body : ListBody) : Except StatementError Unit :=
  let missing := body.keys.find? fun key =>
    (tree.findChild? list .leaf key).isNone
  match missing, tree.node? list with
  | some key, some node =>
      let (position, span) :=
        body.keyPlace.getD (statement.position, statement.headSpan)
      .error <|
        (StatementError.atPlace .dataModelConstraintViolation "key"
          (some (" ".intercalate body.keys)) position span
          s!"key `{key}` is not a leaf of list `{node.name}`").inPhase .exit
  | _, _ => .ok ()

/-- Checks a complete list. Keys that a `uses` may bring in are left for
later. -/
def closeList : Step := fun draft statement => do
  let (id, draft) ← draft.closeNode statement
  match draft.tree.construct? id with
  | some (.list body) =>
      if !hasChildOf draft.tree id ConstructKind.isDataDefinition then
        throw <| statement.violation
          "a list must define at least one data node"
      statement.checkElementBounds body.minElements body.maxElements
      if body.keys.isEmpty then
        if body.config.value && !isOutsideDatastore draft.tree id then
          throw <| statement.violation
            "a configuration list must declare a `key`"
        return draft
      else if hasChildOf draft.tree id (· == .uses) then
        return { draft with deferredKeys := draft.deferredKeys ++ [id] }
      else
        checkKeys draft.tree statement id body
        return draft
  | _ => return draft

def openChoice : Step :=
  openDataNode holdsData fun config => .choice ⟨none, false, config⟩

/-- Whether a choice has a case of a name, written out or as a data node. -/
def hasCase (tree : SchemaTree) (choice : NodeId) (name : String) : Bool :=
  (tree.children choice).any fun child =>
    match tree.node? child with
    | some node =>
        node.name == name &&
          (node.kind == .case || node.kind.isDataDefinition)
    | none => false

def closeChoice : Step := fun draft statement => do
  let (id, draft) ← draft.closeNode statement
  match draft.tree.construct? id with
  | some (.choice body) =>
      match body.default with
      | none => return draft
      | some default =>
          if body.mandatory then
            throw <| statement.violation
              "a choice with a `default` cannot be `mandatory true`"
          if !hasCase draft.tree id default then
            throw <| statement.violation
              s!"default case `{default}` does not exist"
          return draft
  | _ => return draft

def openAnyxml : Step :=
  openDataNode holdsDataOrChoice fun config => .anyxml ⟨false, config⟩

def openUses : Step := fun draft statement => do
  let grouping ← statement.nameArgument
  Cardinality.check statement
  let parent ← draft.nodeHolder statement holdsData
  let opened := draft.openNode statement parent (.uses ⟨grouping, none, []⟩)
    grouping.text
  return opened.enqueue statement .uses grouping.text draft.nextId

def openRefine : Step := fun draft statement => do
  let _ ← statement.schemaNodeIdArgument false
  Cardinality.check statement
  let _ ← draft.nodeHolder statement (· == .uses)
  let target ← statement.requiredArgument
  return draft.push <| .refine <|
    .ofTarget target statement.position statement.headSpan

def closeRefine : Step := fun draft statement => do
  let (refine, draft) ← draft.closeFrame statement .refine fun
    | .refine refine => some refine
    | _ => none
  match refine.minElements with
  | some minElements =>
      statement.checkElementBounds minElements
        (refine.maxElements.getD .unbounded)
  | none => pure ()
  match ← draft.stack.top statement .exit with
  | .node id =>
      return draft.modifyConstruct id fun
        | .uses body =>
            .uses { body with refines := body.refines ++ [refine] }
        | construct => construct
  | _ => return draft

def holdsAugment (kind : ConstructKind) : Bool :=
  kind.isModule || kind == .uses

/-- The target path is absolute at the top level and descends inside `uses`. -/
def openAugment : Step := fun draft statement => do
  let path ← statement.requiredArgument
  let parent ← draft.nodeHolder statement holdsAugment
  let absolute := (draft.tree.kind? parent).any ConstructKind.isModule
  let _ ← statement.schemaNodeIdArgument absolute
  Cardinality.check statement
  let opened := draft.openNode statement parent (.augment ⟨path, none⟩) path
  return opened.enqueue statement .augment path draft.nextId

def isAugmentation (kind : ConstructKind) : Bool :=
  kind.isDataDefinition || kind == .case

def closeAugment : Step := fun draft statement => do
  let (id, draft) ← draft.closeNode statement
  if !hasChildOf draft.tree id isAugmentation then
    throw <| statement.violation "an augment must add at least one data node"
  return draft

def readKey : Step := fun draft statement => do
  let keys ← statement.keyListArgument
  let place := some (statement.position, statement.headSpan)
  draft.fill statement (fun _ => none) fun
    | .list body => some (.list { body with keys, keyPlace := place })
    | _ => none

def readUnique : Step := fun draft statement => do
  let paths ← statement.uniqueListArgument
  draft.fill statement (fun _ => none) fun
    | .list body => some (.list { body with uniques := body.uniques ++ [paths] })
    | _ => none

end Draft

end YangSchema
