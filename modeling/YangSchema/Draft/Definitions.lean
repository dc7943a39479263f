import YangSchema.Draft.Draft
import YangSchema.Statement.Cardinality

/-!
# Definitions and operations

Identities, features, extensions, groupings, operations and notifications: the
named nodes that hold no data of their own.
-/

namespace YangSchema

namespace Draft

/-- Opens a named node in a holder of an accepted kind, where no earlier sibling
of its category has the name. -/
def openDefinition (accepts : ConstructKind → Bool) (category : NameCategory)
    (construct : Construct) : Step := fun draft statement => do
  let name ← statement.identifierArgument
  Cardinality.check statement
  let parent ← draft.nodeHolder statement accepts
  NameCategory.checkFresh draft.tree parent statement name category
  return draft.openNode statement parent construct name

def openIdentity : Step :=
  openDefinition ConstructKind.isModule .identity (.identity ⟨none, none⟩)

def openFeature : Step :=
  openDefinition ConstructKind.isModule .feature .feature

def openExtension : Step :=
  openDefinition ConstructKind.isModule .extension (.extension none)

def openRpc : Step :=
  openDefinition ConstructKind.isModule .dataTree .rpc

def openNotification : Step :=
  openDefinition ConstructKind.isModule .dataTree .notification

def holdsCase (kind : ConstructKind) : Bool :=
  kind == .choice

def openCase : Step :=
  openDefinition holdsCase .case .case

/-- The kinds inside which groupings and typedefs may be defined. -/
def holdsScopedDefinitions (kind : ConstructKind) : Bool :=
  [.module, .submodule, .container, .list, .grouping, .rpc, .input, .output,
    .notification].contains kind

def openGrouping : Step :=
  openDefinition holdsScopedDefinitions .grouping .grouping

/-- `input` and `output` are named after their keyword. -/
def openRpcPart (construct : Construct) : Step := fun draft statement => do
  statement.requireNoArgument
  let parent ← draft.nodeHolder statement (· == .rpc)
  return draft.openNode statement parent construct statement.keywordText

def takesIfFeature (kind : ConstructKind) : Bool :=
  [.container, .leaf, .leafList, .list, .choice, .case, .anyxml, .uses,
    .augment, .rpc, .notification, .feature].contains kind

def readIfFeature : Step := fun draft statement => do
  let name ← statement.nameArgument
  let id ← draft.nodeHolder statement takesIfFeature
  let index :=
    match draft.tree.node? id with
    | some node => node.metadata.ifFeatures.length
    | none => 0
  let draft := draft.modifyMetadata id fun metadata =>
    { metadata with ifFeatures := metadata.ifFeatures ++ [⟨name, none⟩] }
  return draft.enqueue statement (.ifFeature index) name.text id

def openArgument : Step := fun draft statement => do
  let name ← statement.identifierArgument
  Cardinality.check statement
  let _ ← draft.nodeHolder statement (· == .extension)
  return draft.push (.argument ⟨name, false⟩)

def closeArgument : Step := fun draft statement => do
  let (argument, draft) ← draft.closeFrame statement .argument fun
    | .argument argument => some argument
    | _ => none
  match ← draft.stack.top statement .exit with
  | .node id =>
      return draft.modifyConstruct id fun
        | .extension _ => .extension (some argument)
        | construct => construct
  | _ => return draft

def readYinElement : Step := fun draft statement => do
  let yinElement ← statement.booleanArgument
  draft.fill statement
    (fun
      | .argument argument => some (.argument { argument with yinElement })
      | _ => none)
    (fun _ => none)

end Draft

end YangSchema
