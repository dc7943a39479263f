import YangSchema.Schema.TypeUse

/-!
# Constructs

The kinds of nodes of a schema tree, each with the fields that its statements
fill in.
-/

namespace YangSchema

structure Must where
  condition : String
  explanation : Explanation
  deriving DecidableEq, Repr

structure When where
  condition : String
  description : Option String
  reference : Option String
  deriving DecidableEq, Repr

structure IfFeature where
  name : QualifiedName
  target : Option NodeRef
  deriving DecidableEq, Repr

/-- Statements that every definition may carry. -/
structure Metadata where
  description : Option String
  reference : Option String
  status : Status
  when : Option When
  musts : List Must
  ifFeatures : List IfFeature
  deriving DecidableEq, Repr

def Metadata.empty : Metadata :=
  ⟨none, none, .current, none, [], []⟩

/-- Whether a data node holds configuration, and whether it says so itself. -/
structure Config where
  value : Bool
  explicit : Bool
  deriving DecidableEq, Repr

structure Import where
  module : String
  qualifier : String
  revisionDate : Option String
  position : Position
  span : Span
  resolved : Option SourceId
  deriving DecidableEq, Repr

structure Include where
  submodule : String
  revisionDate : Option String
  position : Position
  span : Span
  resolved : Option SourceId
  deriving DecidableEq, Repr

structure Revision where
  date : String
  description : Option String
  reference : Option String
  deriving DecidableEq, Repr

structure BelongsTo where
  module : String
  qualifier : String
  deriving DecidableEq, Repr

/-- The header of a module or a submodule. -/
structure ModuleHeader where
  yangVersion : Option String
  namespaceUri : Option String
  /-- The qualifier of own names; a submodule takes that of `belongs-to`. -/
  qualifier : String
  organization : Option String
  contact : Option String
  imports : List Import
  includes : List Include
  revisions : List Revision
  belongsTo : Option BelongsTo
  deriving DecidableEq, Repr

namespace ModuleHeader

def empty : ModuleHeader :=
  { yangVersion := none
    namespaceUri := none
    qualifier := ""
    organization := none
    contact := none
    imports := []
    includes := []
    revisions := []
    belongsTo := none }

/-- The later of two dates. -/
def laterDate : Option String → String → Option String
  | none, date => some date
  | some best, date => some (if best < date then date else best)

/-- The most recent revision date. -/
def revision? (header : ModuleHeader) : Option String :=
  (header.revisions.map (·.date)).foldl laterDate none

def importFor? (header : ModuleHeader) (qualifier : String) : Option Import :=
  header.imports.find? (·.qualifier == qualifier)

end ModuleHeader

structure ContainerBody where
  presence : Option String
  config : Config
  deriving DecidableEq, Repr

structure ListBody where
  keys : List String
  uniques : List (List String)
  minElements : Nat
  maxElements : MaxElements
  orderedBy : OrderedBy
  config : Config
  /-- Where the keys are declared. -/
  keyPlace : Option (Position × Span)
  deriving DecidableEq, Repr

structure LeafBody where
  type : Option TypeUse
  units : Option String
  default : Option String
  mandatory : Bool
  config : Config
  deriving DecidableEq, Repr

structure LeafListBody where
  type : Option TypeUse
  units : Option String
  minElements : Nat
  maxElements : MaxElements
  orderedBy : OrderedBy
  config : Config
  deriving DecidableEq, Repr

structure ChoiceBody where
  default : Option String
  mandatory : Bool
  config : Config
  deriving DecidableEq, Repr

structure AnyxmlBody where
  mandatory : Bool
  config : Config
  deriving DecidableEq, Repr

/-- Changes to a node of a used grouping. -/
structure Refine where
  target : String
  position : Position
  span : Span
  description : Option String
  reference : Option String
  config : Option Bool
  mandatory : Option Bool
  presence : Option String
  default : Option String
  minElements : Option Nat
  maxElements : Option MaxElements
  musts : List Must
  deriving DecidableEq, Repr

def Refine.ofTarget (target : String) (position : Position) (span : Span) :
    Refine :=
  { target, position, span
    description := none
    reference := none
    config := none
    mandatory := none
    presence := none
    default := none
    minElements := none
    maxElements := none
    musts := [] }

structure UsesBody where
  grouping : QualifiedName
  target : Option NodeRef
  refines : List Refine
  deriving DecidableEq, Repr

structure AugmentBody where
  targetPath : String
  target : Option NodeRef
  deriving DecidableEq, Repr

structure TypedefBody where
  type : Option TypeUse
  units : Option String
  default : Option String
  deriving DecidableEq, Repr

structure IdentityBody where
  base : Option QualifiedName
  baseTarget : Option NodeRef
  deriving DecidableEq, Repr

structure ExtensionArgument where
  name : String
  yinElement : Bool
  deriving DecidableEq, Repr

inductive Construct where
  | module (header : ModuleHeader)
  | submodule (header : ModuleHeader)
  | container (body : ContainerBody)
  | list (body : ListBody)
  | leaf (body : LeafBody)
  | leafList (body : LeafListBody)
  | choice (body : ChoiceBody)
  | case
  | anyxml (body : AnyxmlBody)
  | grouping
  | uses (body : UsesBody)
  | augment (body : AugmentBody)
  | typedef (body : TypedefBody)
  | enumeration (members : List NumberedMember)
  | bits (members : List NumberedMember)
  | union (members : List TypeUse)
  | identity (body : IdentityBody)
  | extension (argument : Option ExtensionArgument)
  | feature
  | rpc
  | input
  | output
  | notification
  deriving DecidableEq, Repr

/-- A construct without its fields. -/
inductive ConstructKind where
  | module
  | submodule
  | container
  | list
  | leaf
  | leafList
  | choice
  | case
  | anyxml
  | grouping
  | uses
  | augment
  | typedef
  | enumeration
  | bits
  | union
  | identity
  | extension
  | feature
  | rpc
  | input
  | output
  | notification
  deriving DecidableEq, Repr

namespace ConstructKind

def all : List ConstructKind :=
  [.module, .submodule, .container, .list, .leaf, .leafList, .choice, .case,
    .anyxml, .grouping, .uses, .augment, .typedef, .enumeration, .bits,
    .union, .identity, .extension, .feature, .rpc, .input, .output,
    .notification]

def keyword : ConstructKind → String
  | .module => "module"
  | .submodule => "submodule"
  | .container => "container"
  | .list => "list"
  | .leaf => "leaf"
  | .leafList => "leaf-list"
  | .choice => "choice"
  | .case => "case"
  | .anyxml => "anyxml"
  | .grouping => "grouping"
  | .uses => "uses"
  | .augment => "augment"
  | .typedef => "typedef"
  | .enumeration => "enumeration"
  | .bits => "bits"
  | .union => "union"
  | .identity => "identity"
  | .extension => "extension"
  | .feature => "feature"
  | .rpc => "rpc"
  | .input => "input"
  | .output => "output"
  | .notification => "notification"

def ofKeyword? (keyword : String) : Option ConstructKind :=
  all.find? (·.keyword == keyword)

/-- Data nodes, to which `config` applies. -/
def bearsConfig (kind : ConstructKind) : Bool :=
  [container, list, leaf, leafList, choice, anyxml].contains kind

/-- What a list or an augment must contain. -/
def isDataDefinition (kind : ConstructKind) : Bool :=
  [container, list, leaf, leafList, choice, anyxml, uses].contains kind

/-- Nodes that hold the members of an unnamed type. -/
def isAnonymousType (kind : ConstructKind) : Bool :=
  [enumeration, bits, union].contains kind

def isModule (kind : ConstructKind) : Bool :=
  [module, submodule].contains kind

end ConstructKind

namespace Construct

def kind : Construct → ConstructKind
  | module _ => .module
  | submodule _ => .submodule
  | container _ => .container
  | list _ => .list
  | leaf _ => .leaf
  | leafList _ => .leafList
  | choice _ => .choice
  | case => .case
  | anyxml _ => .anyxml
  | grouping => .grouping
  | uses _ => .uses
  | augment _ => .augment
  | typedef _ => .typedef
  | enumeration _ => .enumeration
  | bits _ => .bits
  | union _ => .union
  | identity _ => .identity
  | extension _ => .extension
  | feature => .feature
  | rpc => .rpc
  | input => .input
  | output => .output
  | notification => .notification

def config? : Construct → Option Config
  | container body => some body.config
  | list body => some body.config
  | leaf body => some body.config
  | leafList body => some body.config
  | choice body => some body.config
  | anyxml body => some body.config
  | _ => none

def withConfig (config : Config) : Construct → Construct
  | container body => container { body with config }
  | list body => list { body with config }
  | leaf body => leaf { body with config }
  | leafList body => leafList { body with config }
  | choice body => choice { body with config }
  | anyxml body => anyxml { body with config }
  | construct => construct

def header? : Construct → Option ModuleHeader
  | module header => some header
  | submodule header => some header
  | _ => none

def mapHeader (change : ModuleHeader → ModuleHeader) : Construct → Construct
  | module header => module (change header)
  | submodule header => submodule (change header)
  | construct => construct

/-- The type that a leaf, a leaf-list or a typedef declares. -/
def type? : Construct → Option TypeUse
  | leaf body => body.type
  | leafList body => body.type
  | typedef body => body.type
  | _ => none

def mapType (change : TypeUse → TypeUse) : Construct → Construct
  | leaf body => leaf { body with type := body.type.map change }
  | leafList body => leafList { body with type := body.type.map change }
  | typedef body => typedef { body with type := body.type.map change }
  | construct => construct

end Construct

end YangSchema
