import YangSchema.Statement.Error

/-!
# How often sub-statements may appear

Each statement lists the sub-statements whose number is bounded. Whether a
sub-statement may appear at all is decided where it is read.
-/

namespace YangSchema

inductive Cardinality where
  | one
  | maxOne
  | nonZero
  deriving DecidableEq, Repr

def Cardinality.name : Cardinality → String
  | .one => "One"
  | .maxOne => "MaxOne"
  | .nonZero => "NonZero"

namespace Cardinality

abbrev Rule := Keyword × Cardinality

def atMostOnce (keywords : List Keyword) : List Rule :=
  keywords.map fun keyword => (keyword, maxOne)

/-- The bounds of the sub-statements particular to a keyword. -/
def rules : Keyword → List Rule
  | .module =>
      [(.yangVersion, maxOne), (.namespaceUri, one), (.prefixName, one)] ++
        atMostOnce [.organization, .contact, .description, .reference]
  | .submodule =>
      [(.yangVersion, maxOne), (.belongsTo, one)] ++
        atMostOnce [.organization, .contact, .description, .reference]
  | .importModule => [(.prefixName, one), (.revisionDate, maxOne)]
  | .includeSubmodule => [(.revisionDate, maxOne)]
  | .revision => atMostOnce [.description, .reference]
  | .belongsTo => [(.prefixName, one)]
  | .extensionDefinition => [(.argument, maxOne)]
  | .argument => [(.yinElement, maxOne)]
  | .identity => [(.base, maxOne)]
  | .typedef => [(.type, one), (.units, maxOne), (.default, maxOne)]
  | .type =>
      atMostOnce [.fractionDigits, .range, .length, .path, .base,
        .requireInstance]
  | .range | .length | .pattern | .must =>
      atMostOnce [.errorMessage, .errorAppTag, .description, .reference]
  | .when => atMostOnce [.description, .reference]
  | .enum => [(.value, maxOne)]
  | .bit => [(.position, maxOne)]
  | .container => atMostOnce [.when, .presence, .config]
  | .leaf =>
      [(.when, maxOne), (.type, one)] ++
        atMostOnce [.units, .default, .config, .mandatory]
  | .leafList =>
      [(.when, maxOne), (.type, one)] ++
        atMostOnce [.units, .config, .minElements, .maxElements, .orderedBy]
  | .list =>
      atMostOnce [.when, .key, .config, .minElements, .maxElements,
        .orderedBy]
  | .choice => atMostOnce [.when, .default, .config, .mandatory]
  | .case | .uses | .augment => [(.when, maxOne)]
  | .anyxml => atMostOnce [.when, .config, .mandatory]
  | .refine =>
      atMostOnce [.description, .reference, .config, .mandatory, .presence,
        .default, .minElements, .maxElements]
  | .rpc => atMostOnce [.input, .output]
  | _ => []

/-- Whether a keyword takes `status`, `description` and `reference` once. -/
def takesMetadata (keyword : Keyword) : Bool :=
  [.extensionDefinition, .identity, .feature, .typedef, .enum, .bit,
    .grouping, .container, .leaf, .leafList, .list, .choice, .case, .anyxml,
    .uses, .augment, .rpc, .notification].contains keyword

def allRules (keyword : Keyword) : List Rule :=
  rules keyword ++
    if takesMetadata keyword then
      atMostOnce [.status, .description, .reference]
    else
      []

/-- Families of sub-statements: members of one family combine freely, members
of two families never do. -/
def families : Keyword → List (List Keyword)
  | .type =>
      [[.range, .fractionDigits], [.length, .pattern],
        [.path, .requireInstance], [.base], [.enum], [.bit], [.type]]
  | _ => []

/-- Checks the bound of one sub-statement. -/
def checkOne (statement : Statement) (rule : Rule) :
    Except StatementError Unit :=
  let (keyword, cardinality) := rule
  match cardinality, statement.findAll keyword with
  | .one, [] | .nonZero, [] =>
      .error <| .of .missingRequiredSubstatement statement .entry
        s!"`{keyword.text}`"
  | .one, _ :: second :: _ | .maxOne, _ :: second :: _ =>
      .error <| .of .cardinalityViolation second .entry
        s!"`{keyword.text}` may appear at most once under `{statement.known.text}`"
  | _, _ => .ok ()

/-- The first member of each family that a statement has. -/
def presentFamilies (statement : Statement) : List Keyword :=
  (families statement.known).filterMap fun family =>
    family.find? statement.has

/-- Checks that no two families are present. -/
def checkFamilies (statement : Statement) : Except StatementError Unit :=
  match presentFamilies statement with
  | first :: second :: _ =>
      let offender := (statement.find? second).getD statement
      .error <| .of .cardinalityViolation offender .entry
        s!"`{first.text}` and `{second.text}` cannot both appear under `{statement.known.text}`"
  | _ => .ok ()

/-- Checks all bounds of a statement in the order of its rules. -/
def check (statement : Statement) : Except StatementError Unit := do
  (allRules statement.known).forM (checkOne statement)
  checkFamilies statement

end Cardinality

end YangSchema
