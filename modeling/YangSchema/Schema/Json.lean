import YangSchema.Json.Value
import YangSchema.Schema.Tree

/-!
# Schema trees as JSON

Every node is an object with its name, its kind, the fields of its construct,
its position, its metadata and its children. Fields without a value are left
out.
-/

namespace YangSchema

open Json (optional unlessEmpty)

def Position.toJson (position : Position) : Json :=
  .object [("line", .nat position.line), ("column", .nat position.column)]

def NodeRef.toJson (ref : NodeRef) : Json :=
  .object [("source", .nat ref.source), ("node", .nat ref.node)]

def Decimal.Binary64.toJson (value : Decimal.Binary64) : Json :=
  .object [("decimal",
    match value.magnitude with
    | .infinite => .null
    | .finite _ _ => .decimal value)]

def Bound.toJson : Bound → Json
  | .min => .string "min"
  | .max => .string "max"
  | .int value => .object [("int", .int value)]
  | .decimal value => value.toJson

def Interval.toJson (interval : Interval) : Json :=
  .object [("min", interval.min.toJson), ("max", interval.max.toJson)]

def Intervals.toJson (intervals : Intervals) : Json :=
  .array (intervals.map Interval.toJson)

/-- A status is left out while the definition is current. -/
def Status.members : Status → List (String × Json)
  | .current => []
  | status => [("status", .string status.keyword)]

def documentation (description reference : Option String) :
    List (String × Json) :=
  optional "description" .string description ++
    optional "reference" .string reference

def Explanation.members (explanation : Explanation) : List (String × Json) :=
  optional "error_message" .string explanation.errorMessage ++
    optional "error_app_tag" .string explanation.errorAppTag ++
    documentation explanation.description explanation.reference

def IntervalRestriction.toJson (restriction : IntervalRestriction) : Json :=
  .object <| [("intervals", restriction.intervals.toJson)] ++
    restriction.explanation.members ++
    [("pos", restriction.position.toJson)]

def PatternRestriction.toJson (restriction : PatternRestriction) : Json :=
  .object <| ("regex", .string restriction.regex) ::
    restriction.explanation.members

/-- A member whose number is called `label`. -/
def NumberedMember.toJson (label : String) (member : NumberedMember) : Json :=
  .object <| [("name", .string member.name), (label, .int member.number)] ++
    documentation member.description member.reference ++ member.status.members

def EffectiveType.toJson (type : EffectiveType) : Json :=
  .object <| [("builtin", .string type.builtin.name)] ++
    optional "range" Intervals.toJson type.range ++
    optional "length" Intervals.toJson type.length ++
    unlessEmpty "patterns" .string type.patterns ++
    optional "fraction_digits" .nat type.fractionDigits ++
    optional "members_from" NodeRef.toJson type.membersFrom

def TypeUse.toJson (use : TypeUse) : Json :=
  .object <| [("name", use.name.toJson)] ++
    optional "builtin" (.string ·.name) use.builtin ++
    [("pos", use.position.toJson)] ++
    optional "range" IntervalRestriction.toJson use.range ++
    optional "length" IntervalRestriction.toJson use.length ++
    unlessEmpty "patterns" PatternRestriction.toJson use.patterns ++
    optional "fraction_digits" .nat use.fractionDigits ++
    optional "path" .string use.path ++
    optional "require_instance" .bool use.requireInstance ++
    optional "base" QualifiedName.toJson use.base ++
    optional "typedef" NodeRef.toJson use.links.typedef ++
    optional "leafref_target" NodeRef.toJson use.links.leafrefTarget ++
    optional "identity" NodeRef.toJson use.links.identity ++
    optional "effective" EffectiveType.toJson use.links.effective

def Must.toJson (must : Must) : Json :=
  .object <| ("condition", .string must.condition) :: must.explanation.members

def When.toJson (when : When) : Json :=
  .object <| ("condition", .string when.condition) ::
    documentation when.description when.reference

def IfFeature.toJson (feature : IfFeature) : Json :=
  .object <| ("name", feature.name.toJson) ::
    optional "target" NodeRef.toJson feature.target

def Metadata.toJson (metadata : Metadata) : Json :=
  .object <| documentation metadata.description metadata.reference ++
    metadata.status.members ++
    optional "when" When.toJson metadata.when ++
    unlessEmpty "musts" Must.toJson metadata.musts ++
    unlessEmpty "if_features" IfFeature.toJson metadata.ifFeatures

def Config.toJson (config : Config) : Json :=
  .object [("value", .bool config.value), ("explicit", .bool config.explicit)]

def Import.toJson (declaration : Import) : Json :=
  .object <| [("module", .string declaration.module),
      ("prefix", .string declaration.qualifier)] ++
    optional "revision_date" .string declaration.revisionDate ++
    [("pos", declaration.position.toJson)] ++
    optional "resolved" .nat declaration.resolved

def Include.toJson (declaration : Include) : Json :=
  .object <| [("submodule", .string declaration.submodule)] ++
    optional "revision_date" .string declaration.revisionDate ++
    [("pos", declaration.position.toJson)] ++
    optional "resolved" .nat declaration.resolved

def Revision.toJson (revision : Revision) : Json :=
  .object <| ("date", .string revision.date) ::
    documentation revision.description revision.reference

def BelongsTo.toJson (belongsTo : BelongsTo) : Json :=
  .object [("module", .string belongsTo.module),
    ("prefix", .string belongsTo.qualifier)]

def ModuleHeader.members (header : ModuleHeader) : List (String × Json) :=
  optional "yang_version" .string header.yangVersion ++
    optional "namespace" .string header.namespaceUri ++
    [("prefix", .string header.qualifier)] ++
    optional "organization" .string header.organization ++
    optional "contact" .string header.contact ++
    unlessEmpty "imports" Import.toJson header.imports ++
    unlessEmpty "includes" Include.toJson header.includes ++
    unlessEmpty "revisions" Revision.toJson header.revisions ++
    optional "belongs_to" BelongsTo.toJson header.belongsTo

def Refine.toJson (refine : Refine) : Json :=
  .object <| [("target", .string refine.target),
      ("pos", refine.position.toJson)] ++
    documentation refine.description refine.reference ++
    optional "config" .bool refine.config ++
    optional "mandatory" .bool refine.mandatory ++
    optional "presence" .string refine.presence ++
    optional "default" .string refine.default ++
    optional "min_elements" .nat refine.minElements ++
    optional "max_elements" MaxElements.toJson refine.maxElements ++
    unlessEmpty "musts" Must.toJson refine.musts

def ExtensionArgument.toJson (argument : ExtensionArgument) : Json :=
  .object [("name", .string argument.name),
    ("yin_element", .bool argument.yinElement)]

private def elementBounds (least : Nat) (greatest : MaxElements)
    (orderedBy : OrderedBy) : List (String × Json) :=
  [("min_elements", .nat least), ("max_elements", greatest.toJson),
    ("ordered_by", .string orderedBy.keyword)]

private def configMember (config : Config) : List (String × Json) :=
  [("config", config.toJson)]

/-- The fields of a construct. -/
def Construct.members : Construct → List (String × Json)
  | .module header => header.members
  | .submodule header => header.members
  | .container body =>
      optional "presence" .string body.presence ++ configMember body.config
  | .list body =>
      unlessEmpty "keys" .string body.keys ++
        unlessEmpty "uniques" (fun paths => .array (paths.map .string))
          body.uniques ++
        elementBounds body.minElements body.maxElements body.orderedBy ++
        configMember body.config
  | .leaf body =>
      [("type", .orNull TypeUse.toJson body.type)] ++
        optional "units" .string body.units ++
        optional "default" .string body.default ++
        [("mandatory", .bool body.mandatory)] ++ configMember body.config
  | .leafList body =>
      [("type", .orNull TypeUse.toJson body.type)] ++
        optional "units" .string body.units ++
        elementBounds body.minElements body.maxElements body.orderedBy ++
        configMember body.config
  | .choice body =>
      optional "default" .string body.default ++
        [("mandatory", .bool body.mandatory)] ++ configMember body.config
  | .anyxml body =>
      [("mandatory", .bool body.mandatory)] ++ configMember body.config
  | .uses body =>
      [("grouping", body.grouping.toJson)] ++
        optional "target" NodeRef.toJson body.target ++
        unlessEmpty "refines" Refine.toJson body.refines
  | .augment body =>
      [("target_path", .string body.targetPath)] ++
        optional "target" NodeRef.toJson body.target
  | .typedef body =>
      [("type", .orNull TypeUse.toJson body.type)] ++
        optional "units" .string body.units ++
        optional "default" .string body.default
  | .enumeration members =>
      [("members", .array (members.map (NumberedMember.toJson "value")))]
  | .bits members =>
      [("members", .array (members.map (NumberedMember.toJson "position")))]
  | .union members =>
      [("members", .array (members.map TypeUse.toJson))]
  | .identity body =>
      optional "base" QualifiedName.toJson body.base ++
        optional "base_target" NodeRef.toJson body.baseTarget
  | .extension argument =>
      optional "argument" ExtensionArgument.toJson argument
  | _ => []

namespace SchemaTree

private def metadataMember (metadata : Metadata) : List (String × Json) :=
  if metadata = .empty then [] else [("meta", metadata.toJson)]

/-- The object of a node, with what it encloses to a depth of `levels`. -/
def nodeToJson (tree : SchemaTree) : Nat → NodeId → Json
  | 0, _ => .null
  | levels + 1, id =>
      match tree.node? id with
      | none => .null
      | some node =>
          .object <| [("name", .string node.name),
              ("kind", .string node.kind.keyword)] ++
            node.construct.members ++
            [("pos", node.position.toJson)] ++
            metadataMember node.metadata ++
            unlessEmpty "children" (tree.nodeToJson levels) (tree.children id)

/-- The root object, or `null` for an empty tree. -/
def toJson (tree : SchemaTree) : Json :=
  tree.nodeToJson tree.size rootId

end SchemaTree

end YangSchema
