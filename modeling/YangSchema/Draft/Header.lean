import YangSchema.Draft.Draft
import YangSchema.Linking.Settling
import YangSchema.Statement.Cardinality

/-!
# Headers of modules and submodules

The statements that say what a unit is called, what it imports and includes and
how it was revised. Leaving the unit links what can be linked inside it.
-/

namespace YangSchema

namespace Draft

/-- Opens the unit itself, which must be the first node. -/
def openUnit (construct : Construct) : Step := fun draft statement => do
  let name ← statement.identifierArgument
  Cardinality.check statement
  if !draft.stack.isEmpty || !draft.tree.isEmpty then
    throw (draft.invalidHolder statement)
  let root := SchemaNode.ofConstruct construct name statement.position
    statement.headSpan
  return { draft.push (.node rootId) with tree := draft.tree.addRoot root }

/-- The first import whose qualifier is taken by the unit itself or by one of
the imports `before` it. -/
def clashingImport? (own : String) (before : List String) :
    List Import → Option Import
  | [] => none
  | declaration :: rest =>
      let qualifier := declaration.qualifier
      if qualifier = own ∨ qualifier ∈ before then
        some declaration
      else
        clashingImport? own (before ++ [qualifier]) rest

/-- Qualifiers of imports differ from each other and from the unit's own. -/
def checkQualifiers (draft : Draft) : Except StatementError Unit :=
  match draft.tree.header? with
  | none => .ok ()
  | some header =>
      match clashingImport? header.qualifier [] header.imports with
      | none => .ok ()
      | some declaration =>
          .error <|
            (StatementError.atPlace .duplicateIdentifier "import"
              (some declaration.module) declaration.position declaration.span
              s!"prefix {declaration.qualifier}").inPhase .exit

/-- The draft with the references bound that lead nowhere outside the unit. -/
def linkInside (draft : Draft) : Draft :=
  let unit : LinkUnit :=
    { tree := draft.tree
      queue := draft.queue
      usable := true
      deferredKeys := draft.deferredKeys }
  match Linking.link .intraFile [unit] with
  | [linked] => { draft with tree := linked.tree, queue := linked.queue }
  | _ => draft

def closeUnit : Step := fun draft statement => do
  draft.checkQualifiers
  let stack ← draft.stack.popNode statement rootId
  return { draft with stack }.linkInside

/-- Writes into the header of the unit on top of the stack. -/
def fillHeader (draft : Draft) (statement : Statement)
    (change : ModuleHeader → ModuleHeader) : Except StatementError Draft := do
  let id ← draft.rootHolder statement
  return draft.modifyHeader id change

def readYangVersion : Step := fun draft statement => do
  let version ← statement.yangVersionArgument
  draft.fillHeader statement ({ · with yangVersion := some version })

/-- Only a module has a namespace. -/
def readNamespace : Step := fun draft statement => do
  let uri ← statement.uriArgument
  let id ← draft.nodeHolder statement (· == .module)
  return draft.modifyHeader id ({ · with namespaceUri := some uri })

/-- A `prefix` qualifies the names of a module, of an import or of the module
that a submodule belongs to. -/
def readQualifier : Step := fun draft statement => do
  let qualifier ← statement.identifierArgument
  draft.fill statement
    (fun
      | .importing declaration =>
          some (.importing { declaration with qualifier })
      | .belongsTo belongsTo => some (.belongsTo { belongsTo with qualifier })
      | _ => none)
    (fun
      | .module header => some (.module { header with qualifier })
      | _ => none)

def openImport : Step := fun draft statement => do
  let module ← statement.identifierArgument
  Cardinality.check statement
  let _ ← draft.rootHolder statement
  return draft.push <| .importing
    { module
      qualifier := ""
      revisionDate := none
      position := statement.position
      span := statement.headSpan
      resolved := none }

def closeImport : Step := fun draft statement => do
  let (declaration, draft) ← draft.closeFrame statement .importing fun
    | .importing declaration => some declaration
    | _ => none
  draft.fillHeader statement fun header =>
    { header with imports := header.imports ++ [declaration] }

def openInclude : Step := fun draft statement => do
  let submodule ← statement.identifierArgument
  Cardinality.check statement
  let _ ← draft.rootHolder statement
  return draft.push <| .including
    { submodule
      revisionDate := none
      position := statement.position
      span := statement.headSpan
      resolved := none }

def closeInclude : Step := fun draft statement => do
  let (declaration, draft) ← draft.closeFrame statement .including fun
    | .including declaration => some declaration
    | _ => none
  draft.fillHeader statement fun header =>
    { header with includes := header.includes ++ [declaration] }

def readRevisionDate : Step := fun draft statement => do
  let date ← statement.dateArgument
  draft.fill statement
    (fun
      | .importing declaration =>
          some (.importing { declaration with revisionDate := some date })
      | .including declaration =>
          some (.including { declaration with revisionDate := some date })
      | _ => none)
    (fun _ => none)

def openBelongsTo : Step := fun draft statement => do
  let module ← statement.identifierArgument
  Cardinality.check statement
  let _ ← draft.nodeHolder statement (· == .submodule)
  return draft.push (.belongsTo ⟨module, ""⟩)

/-- A submodule takes over the qualifier of the module it belongs to. -/
def closeBelongsTo : Step := fun draft statement => do
  let (belongsTo, draft) ← draft.closeFrame statement .belongsTo fun
    | .belongsTo belongsTo => some belongsTo
    | _ => none
  draft.fillHeader statement fun header =>
    { header with
      qualifier := belongsTo.qualifier
      belongsTo := some belongsTo }

def readOrganization : Step := fun draft statement => do
  let text ← statement.requiredArgument
  draft.fillHeader statement ({ · with organization := some text })

def readContact : Step := fun draft statement => do
  let text ← statement.requiredArgument
  draft.fillHeader statement ({ · with contact := some text })

def openRevision : Step := fun draft statement => do
  let date ← statement.dateArgument
  Cardinality.check statement
  let _ ← draft.rootHolder statement
  return draft.push (.revision ⟨date, none, none⟩)

def closeRevision : Step := fun draft statement => do
  let (revision, draft) ← draft.closeFrame statement .revision fun
    | .revision revision => some revision
    | _ => none
  draft.fillHeader statement fun header =>
    { header with revisions := header.revisions ++ [revision] }

end Draft

end YangSchema
