/-!
# Keywords

The keywords of the language, and two more kinds: a keyword with a colon names
an instance of an extension, and anything else is unknown.
-/

namespace YangSchema

inductive Keyword where
  | module
  | submodule
  | yangVersion
  | namespaceUri
  | prefixName
  | importModule
  | includeSubmodule
  | revisionDate
  | belongsTo
  | organization
  | contact
  | description
  | reference
  | revision
  | extensionDefinition
  | argument
  | yinElement
  | identity
  | base
  | feature
  | ifFeature
  | typedef
  | type
  | units
  | default
  | status
  | config
  | mandatory
  | presence
  | orderedBy
  | must
  | errorMessage
  | errorAppTag
  | minElements
  | maxElements
  | value
  | grouping
  | container
  | leaf
  | leafList
  | list
  | key
  | unique
  | choice
  | case
  | anyxml
  | uses
  | refine
  | augment
  | when
  | rpc
  | input
  | output
  | notification
  | range
  | length
  | pattern
  | enum
  | bit
  | position
  | path
  | requireInstance
  | fractionDigits
  | deviation
  | deviate
  | extensionInstance
  | unknown
  deriving DecidableEq, Repr

namespace Keyword

/-- The keywords that have a spelling of their own. -/
def all : List Keyword :=
  [.module, .submodule, .yangVersion, .namespaceUri, .prefixName,
    .importModule, .includeSubmodule, .revisionDate, .belongsTo,
    .organization, .contact, .description, .reference, .revision,
    .extensionDefinition, .argument, .yinElement, .identity, .base, .feature,
    .ifFeature, .typedef, .type, .units, .default, .status, .config,
    .mandatory, .presence, .orderedBy, .must, .errorMessage, .errorAppTag,
    .minElements, .maxElements, .value, .grouping, .container, .leaf,
    .leafList, .list, .key, .unique, .choice, .case, .anyxml, .uses, .refine,
    .augment, .when, .rpc, .input, .output, .notification, .range, .length,
    .pattern, .enum, .bit, .position, .path, .requireInstance,
    .fractionDigits, .deviation, .deviate]

def text : Keyword → String
  | .module => "module"
  | .submodule => "submodule"
  | .yangVersion => "yang-version"
  | .namespaceUri => "namespace"
  | .prefixName => "prefix"
  | .importModule => "import"
  | .includeSubmodule => "include"
  | .revisionDate => "revision-date"
  | .belongsTo => "belongs-to"
  | .organization => "organization"
  | .contact => "contact"
  | .description => "description"
  | .reference => "reference"
  | .revision => "revision"
  | .extensionDefinition => "extension"
  | .argument => "argument"
  | .yinElement => "yin-element"
  | .identity => "identity"
  | .base => "base"
  | .feature => "feature"
  | .ifFeature => "if-feature"
  | .typedef => "typedef"
  | .type => "type"
  | .units => "units"
  | .default => "default"
  | .status => "status"
  | .config => "config"
  | .mandatory => "mandatory"
  | .presence => "presence"
  | .orderedBy => "ordered-by"
  | .must => "must"
  | .errorMessage => "error-message"
  | .errorAppTag => "error-app-tag"
  | .minElements => "min-elements"
  | .maxElements => "max-elements"
  | .value => "value"
  | .grouping => "grouping"
  | .container => "container"
  | .leaf => "leaf"
  | .leafList => "leaf-list"
  | .list => "list"
  | .key => "key"
  | .unique => "unique"
  | .choice => "choice"
  | .case => "case"
  | .anyxml => "anyxml"
  | .uses => "uses"
  | .refine => "refine"
  | .augment => "augment"
  | .when => "when"
  | .rpc => "rpc"
  | .input => "input"
  | .output => "output"
  | .notification => "notification"
  | .range => "range"
  | .length => "length"
  | .pattern => "pattern"
  | .enum => "enum"
  | .bit => "bit"
  | .position => "position"
  | .path => "path"
  | .requireInstance => "require-instance"
  | .fractionDigits => "fraction-digits"
  | .deviation => "deviation"
  | .deviate => "deviate"
  | .extensionInstance => "<extension>"
  | .unknown => "<unknown>"

/-- Every spelling, for suggestions. -/
def spellings : List String :=
  all.map text

def ofText (spelling : String) : Keyword :=
  match all.find? (·.text == spelling) with
  | some keyword => keyword
  | none => if spelling.contains ':' then .extensionInstance else .unknown

end Keyword

end YangSchema
