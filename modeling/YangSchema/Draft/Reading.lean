import YangSchema.Draft.Annotations
import YangSchema.Draft.DataNodes
import YangSchema.Draft.Header
import YangSchema.Draft.Members
import YangSchema.Draft.Types
import YangSchema.Text.EditDistance

/-!
# Reading a unit

Every keyword has a role: it opens and closes a block, writes into its holder,
is passed over, or is refused. The statements of a unit are read in source
order, sub-statements between the opening and the closing of their block. The
first error ends the reading; the draft so far is kept.
-/

namespace YangSchema

namespace Draft

/-- What a statement of some keyword does. -/
inductive Role where
  /-- It opens a block, which is closed after its sub-statements. -/
  | block (openBlock closeBlock : Step)
  /-- It writes into its holder and has no sub-statements of its own. -/
  | entry (write : Step)
  /-- It belongs to an extension and is passed over. -/
  | foreign
  /-- It is an error. -/
  | refused (error : Statement → StatementError)

def unsupportedStatement (statement : Statement) : StatementError :=
  .of .unsupportedStatement statement .entry statement.keywordText

/-- The error about an unknown keyword, with a similar one as a hint. -/
def unknownStatement (statement : Statement) : StatementError :=
  let error := StatementError.of .unknownStatement statement .entry
    statement.keywordText
  match Text.suggestion statement.keywordText Keyword.spellings with
  | some hint => error.withHint hint
  | none => error

def role : Keyword → Role
  | .module => .block (openUnit (.module .empty)) closeUnit
  | .submodule => .block (openUnit (.submodule .empty)) closeUnit
  | .yangVersion => .entry readYangVersion
  | .namespaceUri => .entry readNamespace
  | .prefixName => .entry readQualifier
  | .importModule => .block openImport closeImport
  | .includeSubmodule => .block openInclude closeInclude
  | .revisionDate => .entry readRevisionDate
  | .belongsTo => .block openBelongsTo closeBelongsTo
  | .organization => .entry readOrganization
  | .contact => .entry readContact
  | .description => .entry (readDocumentation .description)
  | .reference => .entry (readDocumentation .reference)
  | .revision => .block openRevision closeRevision
  | .extensionDefinition => .block openExtension closePlainNode
  | .argument => .block openArgument closeArgument
  | .yinElement => .entry readYinElement
  | .identity => .block openIdentity closePlainNode
  | .base => .entry readBase
  | .feature => .block openFeature closePlainNode
  | .ifFeature => .entry readIfFeature
  | .typedef => .block openTypedef closeTypedef
  | .type => .block openType closeType
  | .units => .entry readUnits
  | .default => .entry readDefault
  | .status => .entry readStatus
  | .config => .entry readConfig
  | .mandatory => .entry readMandatory
  | .presence => .entry readPresence
  | .orderedBy => .entry readOrderedBy
  | .must => .block openMust closeMust
  | .errorMessage => .entry readErrorMessage
  | .errorAppTag => .entry readErrorAppTag
  | .minElements => .entry readMinElements
  | .maxElements => .entry readMaxElements
  | .value => .entry readValue
  | .grouping => .block openGrouping closePlainNode
  | .container => .block openContainer closePlainNode
  | .leaf => .block openLeaf closeLeaf
  | .leafList => .block openLeafList closeLeafList
  | .list => .block openList closeList
  | .key => .entry readKey
  | .unique => .entry readUnique
  | .choice => .block openChoice closeChoice
  | .case => .block openCase closePlainNode
  | .anyxml => .block openAnyxml closePlainNode
  | .uses => .block openUses closePlainNode
  | .refine => .block openRefine closeRefine
  | .augment => .block openAugment closeAugment
  | .when => .block openWhen closeWhen
  | .rpc => .block openRpc closePlainNode
  | .input => .block (openRpcPart .input) closePlainNode
  | .output => .block (openRpcPart .output) closePlainNode
  | .notification => .block openNotification closePlainNode
  | .range => .block openRange closeRange
  | .length => .block openLength closeLength
  | .pattern => .block openPattern closePattern
  | .enum => .block openEnum closeEnum
  | .bit => .block openBit closeBit
  | .position => .entry readPosition
  | .path => .entry readPath
  | .requireInstance => .entry readRequireInstance
  | .fractionDigits => .entry readFractionDigits
  | .deviation | .deviate => .refused unsupportedStatement
  | .extensionInstance => .foreign
  | .unknown => .refused unknownStatement

/-- Whether a qualifier is the unit's own, that of the module it belongs to, or
that of an import. -/
def isDeclared (draft : Draft) (qualifier : String) : Bool :=
  match draft.tree.header? with
  | some header =>
      header.qualifier == qualifier ||
        header.belongsTo.any (·.qualifier == qualifier) ||
        (header.importFor? qualifier).isSome
  | none => false

/-- Passes over an instance of an extension. One whose qualifier nothing
declares is warned about. -/
def passOver (draft : Draft) (statement : Statement) : Draft :=
  let keyword := statement.keywordText
  let qualifier := String.ofList (keyword.toList.takeWhile (· ≠ ':'))
  if draft.isDeclared qualifier then
    draft
  else
    let warning :=
      ((Diagnostic.ofKind draft.tree.source .extensionSkipped
        statement.headSpan).withDetail keyword).withPosition statement.position
          |>.withHint s!"no `import` declares the prefix `{qualifier}`"
    { draft with warnings := draft.warnings ++ [warning] }

/-- A draft and the error that ended its reading, if one did. -/
structure Progress where
  draft : Draft
  error : Option StatementError
  deriving Repr

namespace Progress

/-- The outcome of a step; a failed one leaves the draft as it was. -/
def ofStep (draft : Draft) : Except StatementError Draft → Progress
  | .ok next => ⟨next, none⟩
  | .error error => ⟨draft, some error⟩

/-- Goes on unless an error has ended the reading. -/
def andThen (progress : Progress) (next : Draft → Progress) : Progress :=
  match progress.error with
  | none => next progress.draft
  | some _ => progress

end Progress

/-- Reads the sub-statements of a statement that takes none of its own: only
instances of extensions. -/
def readForeign (holder : Statement) (draft : Draft) :
    List Statement → Progress
  | [] => ⟨draft, none⟩
  | statement :: rest =>
      match statement.known with
      | .extensionInstance => readForeign holder (draft.passOver statement) rest
      | .unknown => ⟨draft, some (unknownStatement statement)⟩
      | _ =>
          ⟨draft, some <| .of .invalidHolder statement .entry
            s!"`{statement.keywordText}` is not allowed under `{holder.keywordText}`"⟩

mutual

/-- Reads one statement with all that it contains. -/
def read (draft : Draft) : Statement → Progress
  | ⟨keyword, argument, span, block, substatements⟩ =>
      let statement : Statement :=
        ⟨keyword, argument, span, block, substatements⟩
      match role statement.known with
      | .block openBlock closeBlock =>
          (Progress.ofStep draft (openBlock draft statement)).andThen
            fun draft =>
              (readAll draft substatements).andThen fun draft =>
                .ofStep draft (closeBlock draft statement)
      | .entry write =>
          (Progress.ofStep draft (write draft statement)).andThen
            fun draft => readForeign statement draft substatements
      | .foreign => ⟨draft.passOver statement, none⟩
      | .refused error => ⟨draft, some (error statement)⟩

/-- Reads statements in their order. -/
def readAll (draft : Draft) : List Statement → Progress
  | [] => ⟨draft, none⟩
  | statement :: rest =>
      (read draft statement).andThen fun draft => readAll draft rest

end

/-- The error about a file without a unit. -/
def noUnit : StatementError :=
  (StatementError.atPlace .missingRequiredSubstatement "module" none .start
    ⟨0, 0⟩ "a file must contain a `module` or `submodule`").inPhase .entry

/-- Reads the statements at the top level of a file: one module or submodule,
and instances of extensions. `seen` tells whether the unit was read. -/
def readTopLevel (draft : Draft) (seen : Bool) : List Statement → Progress
  | [] => ⟨draft, if seen then none else some noUnit⟩
  | statement :: rest =>
      let refuse (detail : String) : Progress :=
        ⟨draft, some (.of .invalidHolder statement .entry detail)⟩
      match statement.known with
      | .module | .submodule =>
          if seen then
            refuse "a file holds exactly one `module` or `submodule`"
          else
            (read draft statement).andThen (readTopLevel · true rest)
      | .extensionInstance =>
          (read draft statement).andThen (readTopLevel · seen rest)
      | _ =>
          refuse s!"`{statement.keywordText}` is not allowed at the top level"

end Draft

/-- What reading one source amounts to. -/
structure Analysis where
  tree : SchemaTree
  queue : ReferenceQueue
  deferredKeys : List NodeId
  /-- The warnings, and behind them the error that ended the reading. -/
  diagnostics : Diagnostics
  failed : Bool
  deriving Repr

/-- Reads the statements of one source. -/
def Analysis.ofStatements (source : SourceId) (statements : List Statement) :
    Analysis :=
  let progress := Draft.readTopLevel (.empty source) false statements
  let draft := progress.draft
  { tree := draft.tree
    queue := draft.queue
    deferredKeys := draft.deferredKeys
    diagnostics :=
      draft.warnings ++ progress.error.toList.map (·.toDiagnostic source)
    failed := progress.error.isSome }

end YangSchema
