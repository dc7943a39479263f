import YangSchema.Draft.Draft
import YangSchema.Statement.Cardinality

/-!
# Statements that write into their holder

Documentation, status, defaults and bounds. Where a `refine` is the holder, the
statement records a change to the node that the `refine` names.
-/

namespace YangSchema

/-- Which of the two documentation texts a statement gives. -/
inductive DocumentationPart where
  | description
  | reference
  deriving DecidableEq, Repr

namespace DocumentationPart

/-- A pair of texts with this one replaced. -/
def write (part : DocumentationPart) (text : String)
    (description reference : Option String) : Option String × Option String :=
  match part with
  | .description => (some text, reference)
  | .reference => (description, some text)

def writeExplanation (part : DocumentationPart) (text : String)
    (explanation : Explanation) : Explanation :=
  let texts := part.write text explanation.description explanation.reference
  { explanation with description := texts.1, reference := texts.2 }

def writeMember (part : DocumentationPart) (text : String)
    (member : NumberedMember) : NumberedMember :=
  let texts := part.write text member.description member.reference
  { member with description := texts.1, reference := texts.2 }

def writeMetadata (part : DocumentationPart) (text : String)
    (metadata : Metadata) : Metadata :=
  let texts := part.write text metadata.description metadata.reference
  { metadata with description := texts.1, reference := texts.2 }

end DocumentationPart

/-- The frame with its explanation changed, if it has one. -/
def Frame.explain? (change : Explanation → Explanation) : Frame → Option Frame
  | .range restriction =>
      some <| .range
        { restriction with explanation := change restriction.explanation }
  | .length restriction =>
      some <| .length
        { restriction with explanation := change restriction.explanation }
  | .pattern restriction =>
      some <| .pattern
        { restriction with explanation := change restriction.explanation }
  | .must condition =>
      some <| .must
        { condition with explanation := change condition.explanation }
  | _ => none

/-- The frame with a documentation text written, if it takes one. -/
def Frame.document? (part : DocumentationPart) (text : String) :
    Frame → Option Frame
  | .revision entry =>
      let texts := part.write text entry.description entry.reference
      some <| .revision
        { entry with description := texts.1, reference := texts.2 }
  | .enum member => some (.enum (part.writeMember text member))
  | .bit member => some (.bit (part.writeMember text member))
  | .when condition =>
      let texts := part.write text condition.description condition.reference
      some <| .when
        { condition with description := texts.1, reference := texts.2 }
  | .refine changes =>
      let texts := part.write text changes.description changes.reference
      some <| .refine
        { changes with description := texts.1, reference := texts.2 }
  | frame => frame.explain? (part.writeExplanation text)

/-- The frame of a `refine` with a change recorded. -/
def Frame.refine? (change : Refine → Refine) : Frame → Option Frame
  | .refine changes => some (.refine (change changes))
  | _ => none

namespace Draft

def takesDocumentation (kind : ConstructKind) : Bool :=
  !([.input, .output, .enumeration, .bits, .union].contains kind)

def readDocumentation (part : DocumentationPart) : Step :=
  fun draft statement => do
    let text ← statement.requiredArgument
    draft.annotate statement (Frame.document? part text) takesDocumentation
      (part.writeMetadata text)

def takesStatus (kind : ConstructKind) : Bool :=
  [.extension, .identity, .feature, .typedef, .grouping, .container, .leaf,
    .leafList, .list, .choice, .case, .anyxml, .uses, .augment, .rpc,
    .notification].contains kind

def readStatus : Step := fun draft statement => do
  let status ← statement.statusArgument
  draft.annotate statement
    (fun
      | .enum member => some (.enum { member with status })
      | .bit member => some (.bit { member with status })
      | _ => none)
    takesStatus ({ · with status })

def readUnits : Step := fun draft statement => do
  let text ← statement.requiredArgument
  draft.fill statement (fun _ => none) fun
    | .leaf body => some (.leaf { body with units := some text })
    | .leafList body => some (.leafList { body with units := some text })
    | .typedef body => some (.typedef { body with units := some text })
    | _ => none

/-- Whether a choice is on top of the stack. -/
def isInChoice (draft : Draft) : Bool :=
  match draft.stack with
  | .node id :: _ => draft.tree.isKind id .choice
  | _ => false

/-- The default of a choice is the name of a case. -/
def readDefault : Step := fun draft statement => do
  let value ← statement.requiredArgument
  if draft.isInChoice then
    let _ ← statement.identifierArgument
  draft.fill statement (Frame.refine? ({ · with default := some value })) fun
    | .leaf body => some (.leaf { body with default := some value })
    | .typedef body => some (.typedef { body with default := some value })
    | .choice body => some (.choice { body with default := some value })
    | _ => none

/-- The config of a node is settled when the node is opened. -/
def readConfig : Step := fun draft statement => do
  let value ← statement.booleanArgument
  draft.fill statement (Frame.refine? ({ · with config := some value }))
    fun construct =>
      if construct.kind.bearsConfig then some construct else none

def readMandatory : Step := fun draft statement => do
  let mandatory ← statement.booleanArgument
  draft.fill statement (Frame.refine? ({ · with mandatory := some mandatory }))
    fun
      | .leaf body => some (.leaf { body with mandatory })
      | .choice body => some (.choice { body with mandatory })
      | .anyxml body => some (.anyxml { body with mandatory })
      | _ => none

def readPresence : Step := fun draft statement => do
  let text ← statement.requiredArgument
  draft.fill statement (Frame.refine? ({ · with presence := some text })) fun
    | .container body => some (.container { body with presence := some text })
    | _ => none

def readMinElements : Step := fun draft statement => do
  let minElements ← statement.nonNegativeArgument
  draft.fill statement
    (Frame.refine? ({ · with minElements := some minElements }))
    fun
      | .list body => some (.list { body with minElements })
      | .leafList body => some (.leafList { body with minElements })
      | _ => none

def readMaxElements : Step := fun draft statement => do
  let maxElements ← statement.maxElementsArgument
  draft.fill statement
    (Frame.refine? ({ · with maxElements := some maxElements }))
    fun
      | .list body => some (.list { body with maxElements })
      | .leafList body => some (.leafList { body with maxElements })
      | _ => none

def readOrderedBy : Step := fun draft statement => do
  let orderedBy ← statement.orderedByArgument
  draft.fill statement (fun _ => none) fun
    | .list body => some (.list { body with orderedBy })
    | .leafList body => some (.leafList { body with orderedBy })
    | _ => none

def takesMust (kind : ConstructKind) : Bool :=
  [.container, .leaf, .leafList, .list, .anyxml].contains kind

def openMust : Step := fun draft statement => do
  let condition ← statement.requiredArgument
  Cardinality.check statement
  match ← draft.stack.top statement .entry with
  | .refine _ => pure ()
  | _ =>
      let _ ← draft.nodeHolder statement takesMust
  return draft.push (.must ⟨condition, .empty⟩)

def closeMust : Step := fun draft statement => do
  let (must, draft) ← draft.closeFrame statement .must fun
    | .must must => some must
    | _ => none
  match ← draft.stack.top statement .exit with
  | .refine refine =>
      let refine := { refine with musts := refine.musts ++ [must] }
      return { draft with stack := .refine refine :: draft.stack.tail }
  | .node id =>
      return draft.modifyMetadata id fun metadata =>
        { metadata with musts := metadata.musts ++ [must] }
  | _ => return draft

def takesWhen (kind : ConstructKind) : Bool :=
  [.container, .leaf, .leafList, .list, .choice, .case, .anyxml, .uses,
    .augment].contains kind

def openWhen : Step := fun draft statement => do
  let condition ← statement.requiredArgument
  Cardinality.check statement
  let _ ← draft.nodeHolder statement takesWhen
  return draft.push (.when ⟨condition, none, none⟩)

def closeWhen : Step := fun draft statement => do
  let (condition, draft) ← draft.closeFrame statement .when fun
    | .when condition => some condition
    | _ => none
  match ← draft.stack.top statement .exit with
  | .node id =>
      return draft.modifyMetadata id ({ · with when := some condition })
  | _ => return draft

def readErrorMessage : Step := fun draft statement => do
  let text ← statement.requiredArgument
  draft.fill statement
    (Frame.explain? ({ · with errorMessage := some text })) (fun _ => none)

def readErrorAppTag : Step := fun draft statement => do
  let text ← statement.requiredArgument
  draft.fill statement
    (Frame.explain? ({ · with errorAppTag := some text })) (fun _ => none)

end Draft

end YangSchema
