import YangSchema.Draft.Reading
import YangSchema.Proofs.Draft.TypeBlock
import YangSchema.Proofs.Linking.Fields

/-!
# What sub-statements are stored as

A sub-statement gives its holder a value, or it becomes a part of the holder
that has sub-statements of its own.  The attributes of a node or of a frame are
the places for both:  values, parts of which there is one at most, and parts that
are listed.  Statements obey the attributes of their holder if each value is that
of the one sub-statement which gives it, or the initial one if none does, and if
the parts are built from the sub-statements of their keywords.

A later sub-statement overwrites what an earlier one has stored.  So after some
sub-statements a place holds what the last of them gives;  where the statement
has passed its check, the last one is the only one.
-/

namespace YangSchema

/-- A value that an argument stands for. -/
inductive AttributeValue where
  | text (text : String)
  | name (name : QualifiedName)
  | names (names : List String)
  | status (status : Status)
  | order (order : OrderedBy)
  | flag (flag : Bool)
  | count (count : Nat)
  | bound (bound : MaxElements)
  | number (number : Int)
  deriving DecidableEq

namespace Statement

/-- The value that a statement gives its holder, if its argument is valid. -/
def attribute? (statement : Statement) : Option AttributeValue :=
  match statement.known with
  | .organization | .contact | .description | .reference | .units | .default
  | .presence | .errorMessage | .errorAppTag | .path =>
      statement.requiredArgument.toOption.map .text
  | .prefixName => statement.identifierArgument.toOption.map .text
  | .yangVersion => statement.yangVersionArgument.toOption.map .text
  | .namespaceUri => statement.uriArgument.toOption.map .text
  | .revisionDate => statement.dateArgument.toOption.map .text
  | .base => statement.nameArgument.toOption.map .name
  | .key => statement.keyListArgument.toOption.map .names
  | .status => statement.statusArgument.toOption.map .status
  | .orderedBy => statement.orderedByArgument.toOption.map .order
  | .config | .mandatory | .requireInstance | .yinElement =>
      statement.booleanArgument.toOption.map .flag
  | .minElements => statement.nonNegativeArgument.toOption.map .count
  | .fractionDigits => statement.fractionDigitsArgument.toOption.map .count
  | .maxElements => statement.maxElementsArgument.toOption.map .bound
  | .value => statement.integerArgument.toOption.map .number
  | .position =>
      statement.nonNegativeArgument.toOption.map fun number => .number number
  | _ => none

/-- The part that a statement becomes, before its sub-statements are read. -/
def frame? (statement : Statement) : Option Frame :=
  let position := statement.position
  let span := statement.headSpan
  match statement.known with
  | .type =>
      statement.nameArgument.toOption.map fun name =>
        .type (.ofName name position span)
  | .range =>
      (statement.intervalsArgument .range).toOption.map fun intervals =>
        .range (Draft.intervalRestriction statement intervals)
  | .length =>
      (statement.intervalsArgument .length).toOption.map fun intervals =>
        .length (Draft.intervalRestriction statement intervals)
  | .pattern =>
      statement.patternArgument.toOption.map fun regex =>
        .pattern ⟨regex, .empty⟩
  | .enum =>
      statement.enumNameArgument.toOption.map fun name =>
        .enum (Draft.newMember statement name)
  | .bit =>
      statement.identifierArgument.toOption.map fun name =>
        .bit (Draft.newMember statement name)
  | .importModule =>
      statement.identifierArgument.toOption.map fun module =>
        .importing ⟨module, "", none, position, span, none⟩
  | .includeSubmodule =>
      statement.identifierArgument.toOption.map fun submodule =>
        .including ⟨submodule, none, position, span, none⟩
  | .revision =>
      statement.dateArgument.toOption.map fun date =>
        .revision ⟨date, none, none⟩
  | .belongsTo =>
      statement.identifierArgument.toOption.map fun module =>
        .belongsTo ⟨module, ""⟩
  | .must =>
      statement.requiredArgument.toOption.map fun condition =>
        .must ⟨condition, .empty⟩
  | .when =>
      statement.requiredArgument.toOption.map fun condition =>
        .when ⟨condition, none, none⟩
  | .refine =>
      statement.requiredArgument.toOption.map fun target =>
        .refine (.ofTarget target position span)
  | .argument =>
      statement.identifierArgument.toOption.map fun name =>
        .argument ⟨name, false⟩
  | _ => none

end Statement

/-- The place for the value that sub-statements of a keyword give. -/
structure Attribute where
  keyword : Keyword
  /-- What is stored before a sub-statement gives a value. -/
  initial : Option AttributeValue
  stored : Option AttributeValue

namespace Attribute

def text (keyword : Keyword) (stored : Option String) : Attribute :=
  ⟨keyword, none, stored.map .text⟩

def flag (keyword : Keyword) (stored : Bool) : Attribute :=
  ⟨keyword, some (.flag false), some (.flag stored)⟩

def qualifier (stored : String) : Attribute :=
  ⟨.prefixName, some (.text ""), some (.text stored)⟩

def documentation (description reference : Option String) : List Attribute :=
  [text .description description, text .reference reference]

def status (stored : Status) : Attribute :=
  ⟨.status, some (.status .current), some (.status stored)⟩

/-- The bounds and the order of a list or a leaf-list. -/
def elements (minElements : Nat) (maxElements : MaxElements)
    (orderedBy : OrderedBy) : List Attribute :=
  [⟨.minElements, some (.count 0), some (.count minElements)⟩,
    ⟨.maxElements, some (.bound .unbounded), some (.bound maxElements)⟩,
    ⟨.orderedBy, some (.order .system), some (.order orderedBy)⟩]

end Attribute

/-- The places for what sub-statements say. -/
structure Attributes where
  values : List Attribute
  singles : List (Keyword × Option Frame)
  lists : List (Keyword × List Frame)

namespace Attributes

def ofValues (values : List Attribute) : Attributes :=
  ⟨values, [], []⟩

def append (attributes more : Attributes) : Attributes where
  values := attributes.values ++ more.values
  singles := attributes.singles ++ more.singles
  lists := attributes.lists ++ more.lists

/-- The keywords of values and of parts of which there is one at most. -/
def singleKeywords (attributes : Attributes) : List Keyword :=
  attributes.values.map (·.keyword) ++ attributes.singles.map (·.1)

def keywords (attributes : Attributes) : List Keyword :=
  attributes.singleKeywords ++ attributes.lists.map (·.1)

end Attributes

def Explanation.attributes (explanation : Explanation) : Attributes :=
  .ofValues <|
    [.text .errorMessage explanation.errorMessage,
      .text .errorAppTag explanation.errorAppTag] ++
    Attribute.documentation explanation.description explanation.reference

/-- The places of a member, whose number is given by statements of a keyword. -/
def NumberedMember.attributes (member : NumberedMember) (keyword : Keyword) :
    Attributes :=
  .ofValues <|
    [⟨keyword, none, if member.explicit then some (.number member.number)
      else none⟩, .status member.status] ++
    Attribute.documentation member.description member.reference

namespace Frame

def attributes : Frame → Attributes
  | .node _ => .ofValues []
  | .type use =>
      { values :=
          [⟨.fractionDigits, none, use.fractionDigits.map .count⟩,
            .text .path use.path,
            ⟨.requireInstance, none, use.requireInstance.map .flag⟩,
            ⟨.base, none, use.base.map .name⟩]
        singles :=
          [(.range, use.range.map .range), (.length, use.length.map .length)]
        lists := [(.pattern, use.patterns.map .pattern)] }
  | .range restriction | .length restriction =>
      restriction.explanation.attributes
  | .pattern restriction => restriction.explanation.attributes
  | .enum member => member.attributes .value
  | .bit member => member.attributes .position
  | .importing declaration =>
      .ofValues [.qualifier declaration.qualifier,
        .text .revisionDate declaration.revisionDate]
  | .including declaration =>
      .ofValues [.text .revisionDate declaration.revisionDate]
  | .revision entry =>
      .ofValues (Attribute.documentation entry.description entry.reference)
  | .belongsTo parent => .ofValues [.qualifier parent.qualifier]
  | .must condition => condition.explanation.attributes
  | .when condition =>
      .ofValues
        (Attribute.documentation condition.description condition.reference)
  | .refine changes =>
      { values :=
          Attribute.documentation changes.description changes.reference ++
          [⟨.config, none, changes.config.map .flag⟩,
            ⟨.mandatory, none, changes.mandatory.map .flag⟩,
            .text .presence changes.presence, .text .default changes.default,
            ⟨.minElements, none, changes.minElements.map .count⟩,
            ⟨.maxElements, none, changes.maxElements.map .bound⟩]
        singles := []
        lists := [(.must, changes.musts.map .must)] }
  | .argument declared => .ofValues [.flag .yinElement declared.yinElement]

/-- The frame as it was when its statement opened it. -/
def bare : Frame → Frame
  | .node id => .node id
  | .type use => .type (.ofName use.name use.position use.span)
  | .range restriction => .range { restriction with explanation := .empty }
  | .length restriction => .length { restriction with explanation := .empty }
  | .pattern restriction => .pattern { restriction with explanation := .empty }
  | .enum member =>
      .enum { member with
        number := 0, explicit := false, description := none, reference := none
        status := .current }
  | .bit member =>
      .bit { member with
        number := 0, explicit := false, description := none, reference := none
        status := .current }
  | .importing declaration =>
      .importing { declaration with
        qualifier := "", revisionDate := none, resolved := none }
  | .including declaration =>
      .including { declaration with revisionDate := none, resolved := none }
  | .revision entry =>
      .revision { entry with description := none, reference := none }
  | .belongsTo parent => .belongsTo { parent with qualifier := "" }
  | .must condition => .must { condition with explanation := .empty }
  | .when condition =>
      .when { condition with description := none, reference := none }
  | .refine changes =>
      .refine (.ofTarget changes.target changes.position changes.span)
  | .argument declared => .argument { declared with yinElement := false }

/-- A part without what linking adds to it. -/
def unlinked : Frame → Frame
  | .type use => .type use.unlinked
  | .importing declaration => .importing { declaration with resolved := none }
  | .including declaration => .including { declaration with resolved := none }
  | frame => frame

end Frame

/-- The declarations that a header lists. -/
def ModuleHeader.lists (header : ModuleHeader) : List (Keyword × List Frame) :=
  [(.importModule, header.imports.map fun declaration =>
      (Frame.importing declaration).unlinked),
    (.includeSubmodule, header.includes.map fun declaration =>
      (Frame.including declaration).unlinked),
    (.revision, header.revisions.map .revision)]

/-- The places of a construct; those that many constructs have are part of the
metadata. -/
def Construct.attributes : Construct → Attributes
  | .module header =>
      { values :=
          [.text .yangVersion header.yangVersion,
            .text .namespaceUri header.namespaceUri,
            .qualifier header.qualifier,
            .text .organization header.organization,
            .text .contact header.contact]
        singles := []
        lists := header.lists }
  | .submodule header =>
      { values :=
          [.text .yangVersion header.yangVersion,
            .text .organization header.organization,
            .text .contact header.contact]
        singles := [(.belongsTo, header.belongsTo.map .belongsTo)]
        lists := header.lists }
  | .container body => .ofValues [.text .presence body.presence]
  | .list body =>
      .ofValues <|
        ⟨.key, some (.names []), some (.names body.keys)⟩ ::
          Attribute.elements body.minElements body.maxElements body.orderedBy
  | .leaf body =>
      { values :=
          [.text .units body.units, .text .default body.default,
            .flag .mandatory body.mandatory]
        singles := [(.type, body.type.map fun use => (Frame.type use).unlinked)]
        lists := [] }
  | .leafList body =>
      { values :=
          .text .units body.units ::
            Attribute.elements body.minElements body.maxElements body.orderedBy
        singles := [(.type, body.type.map fun use => (Frame.type use).unlinked)]
        lists := [] }
  | .choice body =>
      .ofValues [.text .default body.default, .flag .mandatory body.mandatory]
  | .anyxml body => .ofValues [.flag .mandatory body.mandatory]
  | .uses body => ⟨[], [], [(.refine, body.refines.map .refine)]⟩
  | .typedef body =>
      { values := [.text .units body.units, .text .default body.default]
        singles := [(.type, body.type.map fun use => (Frame.type use).unlinked)]
        lists := [] }
  | .enumeration members => ⟨[], [], [(.enum, members.map .enum)]⟩
  | .bits members => ⟨[], [], [(.bit, members.map .bit)]⟩
  | .union members =>
      ⟨[], [], [(.type, members.map fun use => (Frame.type use).unlinked)]⟩
  | .identity body => .ofValues [⟨.base, none, body.base.map .name⟩]
  | .extension argument => ⟨[], [(.argument, argument.map .argument)], []⟩
  | .case | .grouping | .augment _ | .feature | .rpc | .input | .output
  | .notification => .ofValues []

/-- The places for metadata that nodes of a kind have. -/
def Metadata.attributes (metadata : Metadata) (kind : ConstructKind) :
    Attributes where
  values :=
    (if Draft.takesDocumentation kind then
      Attribute.documentation metadata.description metadata.reference
    else []) ++
    if Draft.takesStatus kind then [.status metadata.status] else []
  singles :=
    if Draft.takesWhen kind then [(.when, metadata.when.map .when)] else []
  lists :=
    if Draft.takesMust kind then [(.must, metadata.musts.map .must)] else []

def SchemaNode.attributes (node : SchemaNode) : Attributes :=
  node.construct.attributes.append (node.metadata.attributes node.kind)

/-- The keywords of all places.  The config of a node is not among them, since it
is settled when the node is opened. -/
def attributeKeywords : List Keyword :=
  [.yangVersion, .namespaceUri, .prefixName, .importModule, .includeSubmodule,
    .revisionDate, .belongsTo, .organization, .contact, .description,
    .reference, .revision, .argument, .yinElement, .base, .type, .units,
    .default, .status, .mandatory, .presence, .orderedBy, .must, .errorMessage,
    .errorAppTag, .minElements, .maxElements, .value, .key, .refine, .when,
    .range, .length, .pattern, .enum, .bit, .position, .path, .requireInstance,
    .fractionDigits]

/-- What is stored is what one sub-statement gives, or nothing is given. -/
def Attribute.Obeys (place : Attribute) (statement : Statement) : Prop :=
  match statement.findAll place.keyword with
  | [] => place.stored = place.initial
  | [given] =>
      ∃ value, given.attribute? = some value ∧ place.stored = some value
  | _ => False

mutual

/-- A part that a statement has become with its sub-statements. -/
inductive Built : Statement → Frame → Prop
  | intro {statement : Statement} {frame : Frame}
      (opened : statement.frame? = some frame.bare)
      (obeys : Obeys statement frame.attributes) : Built statement frame

/-- The sub-statements of a statement have been stored in attributes, none of
them over another one. -/
inductive Obeys : Statement → Attributes → Prop
  | intro {statement : Statement} {attributes : Attributes}
      (values : ∀ place ∈ attributes.values, place.Obeys statement)
      (singles : ∀ keyword part, (keyword, part) ∈ attributes.singles →
        List.Forall₂ Built (statement.findAll keyword) part.toList)
      (lists : ∀ keyword parts, (keyword, parts) ∈ attributes.lists →
        List.Forall₂ Built (statement.findAll keyword) parts) :
      Obeys statement attributes

end

theorem Built.obeys {statement : Statement} {frame : Frame}
    (built : Built statement frame) : Obeys statement frame.attributes := by
  cases built with
  | intro _ obeys => exact obeys

theorem Built.opened {statement : Statement} {frame : Frame}
    (built : Built statement frame) :
    statement.frame? = some frame.bare := by
  cases built with
  | intro opened _ => exact opened

/-- Frames with the same places are built from the same statements. -/
theorem Built.of_same {statement : Statement} {frame frame' : Frame}
    (built : Built statement frame) (bare : frame'.bare = frame.bare)
    (attributes : frame'.attributes = frame.attributes) :
    Built statement frame' :=
  .intro (bare ▸ built.opened) (attributes ▸ built.obeys)

theorem Built.unlinked {statement : Statement} {frame : Frame}
    (built : Built statement frame) : Built statement frame.unlinked := by
  apply built.of_same <;> cases frame <;> rfl

/-- Linking changes no place. -/
theorem SchemaNode.attributes_unlinked (node : SchemaNode) :
    node.unlinked.attributes = node.attributes := by
  have construct : node.construct.unlinked.attributes =
      node.construct.attributes := by
    cases node.construct <;>
      simp [Construct.unlinked, Construct.attributes, ModuleHeader.unlinked,
        ModuleHeader.lists, Frame.unlinked, TypeUse.unlinked, Option.map_map,
        Function.comp_def]
  have kind : node.unlinked.kind = node.kind := by
    unfold SchemaNode.kind SchemaNode.unlinked
    cases node.construct <;> rfl
  simp only [attributes, kind]
  congr 1

section

variable {statement : Statement} {attributes attributes' : Attributes}
  {part : Option Frame} {done : List Statement}

/-- The place after a sub-statement of some keyword, which overwrites what is
stored. -/
def Attribute.put (place : Attribute) (keyword : Keyword)
    (value : Option AttributeValue) : Attribute :=
  if keyword = place.keyword then { place with stored := value } else place

/-- The places after a sub-statement of some keyword, which gives a value or has
become a part. -/
def Attributes.put (attributes : Attributes) (keyword : Keyword)
    (value : Option AttributeValue) (part : Option Frame) : Attributes where
  values := attributes.values.map (·.put keyword value)
  singles := attributes.singles.map fun (own, held) =>
    (own, if keyword = own then part else held)
  lists := attributes.lists.map fun (own, held) =>
    (own, if keyword = own then held ++ part.toList else held)

/-- A sub-statement has been stored in attributes. -/
structure Attributes.Takes (statement : Statement) (part : Option Frame)
    (attributes attributes' : Attributes) : Prop where
  same : attributes' = attributes.put statement.known statement.attribute? part
  value : statement.known ∈ attributes.values.map (·.keyword) →
    statement.attribute?.isSome
  part : statement.known ∈
      attributes.singles.map (·.1) ++ attributes.lists.map (·.1) →
    ∃ frame, part = some frame ∧ Built statement frame
  accepted : statement.known ∈ attributeKeywords →
    statement.known ∈ attributes.keywords

/-- The last sub-statement of each keyword is what the attributes hold. -/
structure Attributes.Hold (attributes : Attributes) (done : List Statement) :
    Prop where
  values : ∀ place ∈ attributes.values,
    match (done.filter (·.known == place.keyword)).getLast? with
    | none => place.stored = place.initial
    | some given =>
        ∃ value, given.attribute? = some value ∧ place.stored = some value
  singles : ∀ keyword part, (keyword, part) ∈ attributes.singles →
    List.Forall₂ Built (done.filter (·.known == keyword)).getLast?.toList
      part.toList
  lists : ∀ keyword parts, (keyword, parts) ∈ attributes.lists →
    List.Forall₂ Built (done.filter (·.known == keyword)) parts
  accepted : ∀ statement ∈ done, statement.known ∈ attributeKeywords →
    statement.known ∈ attributes.keywords

/-- Attributes in which nothing has been stored. -/
structure Attributes.IsInitial (attributes : Attributes) : Prop where
  values : ∀ place ∈ attributes.values, place.stored = place.initial
  singles : ∀ single ∈ attributes.singles, single.2 = none
  lists : ∀ list ∈ attributes.lists, list.2 = []

namespace Attributes

theorem IsInitial.hold (initial : attributes.IsInitial) :
    attributes.Hold [] where
  values place listed := initial.values place listed
  singles keyword part listed := by
    obtain rfl : part = none := initial.singles _ listed
    exact .nil
  lists keyword parts listed := by
    obtain rfl : parts = [] := initial.lists _ listed
    exact .nil
  accepted := by simp

@[simp]
theorem singleKeywords_put (keyword : Keyword) (value : Option AttributeValue) :
    (attributes.put keyword value part).singleKeywords =
      attributes.singleKeywords := by
  have same (place : Attribute) :
      (place.put keyword value).keyword = place.keyword := by
    unfold Attribute.put
    split <;> rfl
  simp [singleKeywords, put, Function.comp_def, same]

@[simp]
theorem keywords_put (keyword : Keyword) (value : Option AttributeValue) :
    (attributes.put keyword value part).keywords = attributes.keywords := by
  simp only [keywords, singleKeywords_put]
  simp [put, Function.comp_def]

/-- A sub-statement that concerns none of the places changes none. -/
theorem put_of_not_mem {keyword : Keyword} {value : Option AttributeValue}
    (foreign : keyword ∉ attributes.keywords) :
    attributes.put keyword value part = attributes := by
  simp only [keywords, singleKeywords, List.mem_append, List.mem_map,
    not_or, not_exists, not_and] at foreign
  obtain ⟨⟨values, singles⟩, lists⟩ := foreign
  obtain ⟨_, _, _⟩ := attributes
  simp only [put, mk.injEq]
  refine ⟨?_, ?_, ?_⟩ <;> refine (List.map_congr_left fun place listed => ?_).trans
    (List.map_id _)
  · exact if_neg (Ne.symm (values place listed))
  · simp [Ne.symm (singles place listed)]
  · simp [Ne.symm (lists place listed)]

theorem takes_of_not_mem (foreign : statement.known ∉ attributes.keywords)
    (other : statement.known ∉ attributeKeywords) :
    Takes statement part attributes attributes where
  same := (put_of_not_mem foreign).symm
  value listed := absurd (by simp [keywords, singleKeywords, listed]) foreign
  part listed := by
    refine absurd ?_ foreign
    obtain listed | listed := List.mem_append.mp listed <;>
      simp [keywords, singleKeywords, listed]
  accepted listed := absurd listed other

theorem filter_concat (keyword : Keyword) :
    (done ++ [statement]).filter (·.known == keyword) =
      if statement.known = keyword then
        done.filter (·.known == keyword) ++ [statement]
      else
        done.filter (·.known == keyword) := by
  rw [List.filter_append, List.filter_singleton]
  split
  next same => simp [same]
  next other => simp [beq_false_of_ne other]

theorem Hold.put (hold : attributes.Hold done)
    (takes : Takes statement part attributes attributes') :
    attributes'.Hold (done ++ [statement]) := by
  obtain ⟨rfl, value, built, accepted⟩ := takes
  refine ⟨fun place' listed => ?_, fun keyword part' listed => ?_,
    fun keyword parts' listed => ?_, fun other listed => ?_⟩
  · obtain ⟨place, listed', rfl⟩ := List.mem_map.mp listed
    by_cases given : statement.known = place.keyword
    · have known : statement.known ∈ attributes.values.map (·.keyword) := by
        rw [given]
        exact List.mem_map_of_mem listed'
      obtain ⟨stored, valid⟩ := Option.isSome_iff_exists.mp (value known)
      simp [Attribute.put, given, valid]
    · simpa only [Attribute.put, given, filter_concat, if_false] using
        hold.values place listed'
  · obtain ⟨⟨keyword', held⟩, listed', same⟩ := List.mem_map.mp listed
    obtain ⟨rfl, rfl⟩ := Prod.mk.inj same
    by_cases given : statement.known = keyword'
    · have known : statement.known ∈
          attributes.singles.map (·.1) ++ attributes.lists.map (·.1) := by
        rw [given]
        exact List.mem_append_left _ (List.mem_map_of_mem (f := (·.1)) listed')
      obtain ⟨frame, rfl, whole⟩ := built known
      rw [filter_concat, if_pos given, if_pos given, List.getLast?_concat]
      exact .cons whole .nil
    · rw [filter_concat, if_neg given, if_neg given]
      exact hold.singles keyword' held listed'
  · obtain ⟨⟨keyword', held⟩, listed', same⟩ := List.mem_map.mp listed
    obtain ⟨rfl, rfl⟩ := Prod.mk.inj same
    have before := hold.lists keyword' held listed'
    by_cases given : statement.known = keyword'
    · have known : statement.known ∈
          attributes.singles.map (·.1) ++ attributes.lists.map (·.1) := by
        rw [given]
        exact List.mem_append_right _ (List.mem_map_of_mem (f := (·.1)) listed')
      obtain ⟨frame, rfl, whole⟩ := built known
      rw [filter_concat, if_pos given, if_pos given]
      exact List.rel_append before (.cons whole .nil)
    · rw [filter_concat, if_neg given, if_neg given]
      exact before
  · rw [keywords_put]
    obtain listed | last := List.mem_append.mp listed
    · exact hold.accepted other listed
    · obtain rfl := List.mem_singleton.mp last
      exact accepted

/-- The last sub-statement of a keyword is the only one where no keyword is
repeated. -/
theorem Hold.obeys (hold : attributes.Hold statement.substatements)
    (single : ∀ keyword ∈ attributes.singleKeywords,
      (statement.findAll keyword).length ≤ 1) : Obeys statement attributes := by
  refine .intro (fun place listed => ?_) (fun keyword part listed => ?_)
    fun keyword parts listed => hold.lists keyword parts listed
  · have only := single place.keyword <| List.mem_append_left _ <|
      List.mem_map_of_mem listed
    have last := hold.values place listed
    unfold Attribute.Obeys
    change match (statement.findAll place.keyword).getLast? with
      | none => _ | some _ => _ at last
    match found : statement.findAll place.keyword with
    | [] => simpa [found] using last
    | [given] => simpa [found] using last
    | _ :: _ :: _ => simp [found] at only
  · have only := single keyword <| List.mem_append_right _ <|
      List.mem_map_of_mem (f := (·.1)) listed
    have last := hold.singles keyword part listed
    change List.Forall₂ Built (statement.findAll keyword).getLast?.toList _
      at last
    match found : statement.findAll keyword with
    | [] => simpa [found] using last
    | [given] => simpa [found] using last
    | _ :: _ :: _ => simp [found] at only

end Attributes

end

end YangSchema
