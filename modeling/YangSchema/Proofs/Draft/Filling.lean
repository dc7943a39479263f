import YangSchema.Proofs.Draft.Attributes
import YangSchema.Proofs.Draft.Closing

/-!
# Statements that are stored in their holder

A statement fills its holder if it is stored in the place of its keyword, and
nothing but that place changes in the draft.  Statements that write into their
holder do so at once, and the end of a block stores the part that the block has
built.
-/

namespace YangSchema

variable {statement : Statement} {part : Option Frame}

/-- The keywords of metadata, which no construct has a place for. -/
def metadataKeywords : List Keyword :=
  [.description, .reference, .status, .when, .must]

namespace Attributes

variable {attributes attributes' more more' : Attributes} {keyword : Keyword}
  {value : AttributeValue}

theorem mem_keywords_append :
    keyword ∈ (attributes.append more).keywords ↔
      keyword ∈ attributes.keywords ∨ keyword ∈ more.keywords := by
  simp only [keywords, singleKeywords, append, List.map_append, List.mem_append]
  tauto

theorem put_append (value : Option AttributeValue) :
    (attributes.append more).put keyword value part =
      (attributes.put keyword value part).append
        (more.put keyword value part) := by
  simp [append, put]

/-- A value is stored where there is a place for it. -/
theorem takes_value (known : statement.known = keyword)
    (given : statement.attribute? = some value)
    (same : attributes' = attributes.put keyword (some value) none)
    (listed : (attributes.values.map (·.keyword)).contains keyword = true)
    (apart : (attributes.singles.map (·.1) ++
      attributes.lists.map (·.1)).contains keyword = false) :
    Takes statement none attributes attributes' where
  same := by rw [same, known, given]
  value _ := by rw [given]; rfl
  part is := by
    rw [← known, ← Bool.not_eq_true, List.contains_iff_mem] at apart
    exact absurd is apart
  accepted _ := by
    rw [← known, List.contains_iff_mem] at listed
    simp [keywords, singleKeywords, listed]

/-- A part is stored where there is a place for it. -/
theorem takes_part {frame : Frame} (known : statement.known = keyword)
    (built : Built statement frame)
    (same : ∀ value, attributes' = attributes.put keyword value (some frame))
    (listed : (attributes.singles.map (·.1) ++
      attributes.lists.map (·.1)).contains keyword = true)
    (apart : (attributes.values.map (·.keyword)).contains keyword = false) :
    Takes statement (some frame) attributes attributes' where
  same := by rw [known, same statement.attribute?]
  value is := by
    rw [← known, ← Bool.not_eq_true, List.contains_iff_mem] at apart
    exact absurd is apart
  part _ := ⟨frame, rfl, built⟩
  accepted _ := by
    rw [← known, List.contains_iff_mem] at listed
    obtain listed | listed := List.mem_append.mp listed <;>
      simp [keywords, singleKeywords, listed]

theorem Takes.append_left (takes : Takes statement part attributes attributes')
    (foreign : statement.known ∉ more.keywords) :
    Takes statement part (attributes.append more) (attributes'.append more) where
  same := by rw [put_append, put_of_not_mem foreign, ← takes.same]
  value listed := by
    have other : statement.known ∉ more.values.map (·.keyword) := fun is =>
      foreign (by simp [keywords, singleKeywords, is])
    simp only [append, List.map_append, List.mem_append] at listed
    exact takes.value (listed.resolve_right other)
  part listed := by
    have other : statement.known ∉
        more.singles.map (·.1) ++ more.lists.map (·.1) := fun is =>
      foreign (by
        obtain is | is := List.mem_append.mp is <;>
          simp [keywords, singleKeywords, is])
    refine takes.part ?_
    simp only [append, List.map_append, List.mem_append, not_or] at listed other ⊢
    tauto
  accepted known := mem_keywords_append.mpr (.inl (takes.accepted known))

theorem Takes.append_right (takes : Takes statement part more more')
    (foreign : statement.known ∉ attributes.keywords) :
    Takes statement part (attributes.append more) (attributes.append more') where
  same := by rw [put_append, put_of_not_mem foreign, ← takes.same]
  value listed := by
    have other : statement.known ∉ attributes.values.map (·.keyword) := fun is =>
      foreign (by simp [keywords, singleKeywords, is])
    simp only [append, List.map_append, List.mem_append] at listed
    exact takes.value (listed.resolve_left other)
  part listed := by
    have other : statement.known ∉
        attributes.singles.map (·.1) ++ attributes.lists.map (·.1) := fun is =>
      foreign (by
        obtain is | is := List.mem_append.mp is <;>
          simp [keywords, singleKeywords, is])
    refine takes.part ?_
    simp only [append, List.map_append, List.mem_append, not_or] at listed other ⊢
    tauto
  accepted known := mem_keywords_append.mpr (.inr (takes.accepted known))

end Attributes

theorem Metadata.keywords_subset (metadata : Metadata) (kind : ConstructKind) :
    (metadata.attributes kind).keywords ⊆ metadataKeywords := by
  intro keyword listed
  simp only [attributes, Attributes.keywords, Attributes.singleKeywords,
    Attribute.documentation, Attribute.text, Attribute.status] at listed
  split at listed <;> split at listed <;> split at listed <;> split at listed <;>
    simp_all [metadataKeywords] <;> tauto

theorem Construct.not_mem_keywords (construct : Construct) {keyword : Keyword}
    (listed : keyword ∈ metadataKeywords) :
    keyword ∉ construct.attributes.keywords := by
  simp only [metadataKeywords, List.mem_cons, List.not_mem_nil, or_false]
    at listed
  obtain rfl | rfl | rfl | rfl | rfl := listed
  all_goals
    cases construct <;>
      simp [attributes, Attributes.keywords, Attributes.singleKeywords,
        Attributes.ofValues, Attribute.text, Attribute.flag,
        Attribute.qualifier, Attribute.elements, ModuleHeader.lists]

/-- Nodes of which only the attributes may differ. -/
structure SchemaNode.SameHead (node node' : SchemaNode) : Prop where
  name : node'.name = node.name
  kind : node'.kind = node.kind
  ancestors : node'.ancestors = node.ancestors
  position : node'.position = node.position
  span : node'.span = node.span
  config : node'.construct.config? = node.construct.config?

namespace SchemaNode.SameHead

variable {node node' node'' : SchemaNode}

theorem refl (node : SchemaNode) : node.SameHead node :=
  ⟨rfl, rfl, rfl, rfl, rfl, rfl⟩

theorem trans (first : node.SameHead node') (second : node'.SameHead node'') :
    node.SameHead node'' where
  name := second.name.trans first.name
  kind := second.kind.trans first.kind
  ancestors := second.ancestors.trans first.ancestors
  position := second.position.trans first.position
  span := second.span.trans first.span
  config := second.config.trans first.config

end SchemaNode.SameHead

/-- A statement is stored in a construct. -/
structure Construct.Takes (statement : Statement) (part : Option Frame)
    (construct construct' : Construct) : Prop where
  kind : construct'.kind = construct.kind
  config : construct'.config? = construct.config?
  takes : Attributes.Takes statement part construct.attributes
    construct'.attributes
  own : statement.known ∉ metadataKeywords

/-- A statement is stored in a frame. -/
structure Frame.Takes (statement : Statement) (part : Option Frame)
    (frame frame' : Frame) : Prop where
  bare : frame'.bare = frame.bare
  other : frame.kind ≠ .node
  takes : Attributes.Takes statement part frame.attributes frame'.attributes

theorem Construct.takes_value {construct construct' : Construct}
    {keyword : Keyword} {value : AttributeValue}
    (known : statement.known = keyword)
    (given : statement.attribute? = some value)
    (kind : construct'.kind = construct.kind)
    (config : construct'.config? = construct.config?)
    (same : construct'.attributes =
      construct.attributes.put keyword (some value) none)
    (listed : (construct.attributes.values.map (·.keyword)).contains keyword =
      true)
    (apart : (construct.attributes.singles.map (·.1) ++
      construct.attributes.lists.map (·.1)).contains keyword = false) :
    construct.Takes statement none construct' where
  kind := kind
  config := config
  takes := Attributes.takes_value known given same listed apart
  own := fun is => by
    refine construct.not_mem_keywords is ?_
    rw [known]
    rw [List.contains_iff_mem] at listed
    simp [Attributes.keywords, Attributes.singleKeywords, listed]

theorem Frame.takes_value {frame frame' : Frame} {keyword : Keyword}
    {value : AttributeValue} (known : statement.known = keyword)
    (given : statement.attribute? = some value)
    (bare : frame'.bare = frame.bare)
    (same : frame'.attributes = frame.attributes.put keyword (some value) none)
    (listed : (frame.attributes.values.map (·.keyword)).contains keyword = true)
    (apart : (frame.attributes.singles.map (·.1) ++
      frame.attributes.lists.map (·.1)).contains keyword = false) :
    frame.Takes statement none frame' where
  bare := bare
  other := by
    cases frame with
    | node id => simp [attributes, Attributes.ofValues] at listed
    | _ => simp [Frame.kind]
  takes := Attributes.takes_value known given same listed apart

/-- A statement is stored in what is on top of the stack. -/
inductive Draft.Fills (statement : Statement) (before after : Draft) : Prop
  | node {id : NodeId} {rest : FrameStack} {node node' : SchemaNode}
      {part : Option Frame}
      (stack : before.stack = .node id :: rest)
      (same : after.stack = before.stack)
      (found : before.tree.node? id = some node)
      (nodes : ∀ other, after.tree.node? other =
        if id = other then some node' else before.tree.node? other)
      (head : node.SameHead node')
      (takes : Attributes.Takes statement part node.attributes
        node'.attributes) :
      Fills statement before after
  | frame {frame frame' : Frame} {rest : FrameStack} {part : Option Frame}
      (stack : before.stack = frame :: rest)
      (same : after.stack = frame' :: rest)
      (nodes : ∀ id, after.tree.node? id = before.tree.node? id)
      (takes : frame.Takes statement part frame') :
      Fills statement before after

namespace Draft

variable {draft result : Draft} {id : NodeId} {node : SchemaNode}
  {rest : FrameStack} {keyword : Keyword} {value : AttributeValue}

theorem fills_modifyConstruct (part : Option Frame)
    {change : Construct → Construct}
    (stack : draft.stack = .node id :: rest)
    (found : draft.tree.node? id = some node)
    (takes : node.construct.Takes statement part (change node.construct)) :
    draft.Fills statement (draft.modifyConstruct id change) := by
  have foreign : statement.known ∉
      (node.metadata.attributes node.kind).keywords := fun listed =>
    takes.own (node.metadata.keywords_subset node.kind listed)
  have stored := takes.takes.append_left foreign
  let node' : SchemaNode := { node with construct := change node.construct }
  have attributes : node'.attributes =
      (change node.construct).attributes.append
        (node.metadata.attributes node.kind) := by
    simp only [SchemaNode.attributes, SchemaNode.kind, node', takes.kind]
  refine .node stack rfl found (fun other => ?_)
    (show node.SameHead node' from
      ⟨rfl, takes.kind, rfl, rfl, rfl, takes.config⟩) (attributes ▸ stored)
  simp only [modifyConstruct, SchemaTree.node?_modifyConstruct]
  split
  next same =>
    subst same
    simp [found, node']
  · rfl

theorem fills_modifyMetadata (part : Option Frame)
    {change : Metadata → Metadata}
    (stack : draft.stack = .node id :: rest)
    (found : draft.tree.node? id = some node)
    (takes : Attributes.Takes statement part
      (node.metadata.attributes node.kind)
      ((change node.metadata).attributes node.kind))
    (listed : statement.known ∈ metadataKeywords) :
    draft.Fills statement (draft.modifyMetadata id change) := by
  have stored :=
    takes.append_right (node.construct.not_mem_keywords listed)
  let node' : SchemaNode := { node with metadata := change node.metadata }
  refine .node stack rfl found (fun other => ?_)
    (show node.SameHead node' from ⟨rfl, rfl, rfl, rfl, rfl, rfl⟩) stored
  simp only [modifyMetadata, SchemaTree.node?_modifyMetadata]
  split
  next same =>
    subst same
    simp [found, node']
  · rfl

/-- Writing into the holder, whichever part of it takes the statement. -/
theorem fill_fills {frame : Frame → Option Frame}
    {construct : Construct → Option Construct}
    (filled : draft.fill statement frame construct = .ok result)
    (frames : ∀ top top', frame top = some top' →
      top.Takes statement none top')
    (constructs : ∀ holder holder', construct holder = some holder' →
      holder.Takes statement none holder') : draft.Fills statement result := by
  cases stack : draft.stack with
  | nil => simp [fill, FrameStack.top, stack] at filled
  | cons top rest =>
      simp only [fill, FrameStack.top, stack, bind_eq_ok_iff, Except.ok.injEq,
        exists_eq_left'] at filled
      split at filled
      next id =>
        split at filled
        next holder' written =>
          obtain rfl := pure_eq_ok_iff.mp filled
          obtain ⟨holder, known, written⟩ := Option.bind_eq_some_iff.mp written
          obtain ⟨node, found, rfl⟩ := SchemaTree.construct?_eq_some_iff.mp known
          exact fills_modifyConstruct none stack found (constructs _ _ written)
        · simp at filled
      next =>
        split at filled
        next top' written =>
          obtain rfl := pure_eq_ok_iff.mp filled
          exact .frame stack rfl (fun _ => rfl) (frames top top' written)
        · simp at filled

theorem annotate_fills {frame : Frame → Option Frame}
    {accepts : ConstructKind → Bool} {change : Metadata → Metadata}
    (written : draft.annotate statement frame accepts change = .ok result)
    (frames : ∀ top top', frame top = some top' →
      top.Takes statement none top')
    (metadata : ∀ kind metadata, accepts kind = true →
      Attributes.Takes statement none (Metadata.attributes metadata kind)
        ((change metadata).attributes kind))
    (listed : statement.known ∈ metadataKeywords) :
    draft.Fills statement result := by
  cases stack : draft.stack with
  | nil => simp [annotate, FrameStack.top, stack] at written
  | cons top rest =>
      simp only [annotate, FrameStack.top, stack, bind_eq_ok_iff,
        Except.ok.injEq, exists_eq_left'] at written
      split at written
      next id =>
        split at written
        next accepted =>
          obtain rfl := pure_eq_ok_iff.mp written
          obtain ⟨kind, is, accepted⟩ := Option.any_eq_true _ _ |>.mp accepted
          obtain ⟨node, found, rfl⟩ := Option.map_eq_some_iff.mp is
          exact fills_modifyMetadata none stack found
            (metadata node.kind node.metadata accepted) listed
        · simp at written
      · split at written
        next top' filled =>
          obtain rfl := pure_eq_ok_iff.mp written
          exact .frame stack rfl (fun _ => rfl) (frames top top' filled)
        · simp at written

/-- Writing into the header of a unit. -/
theorem fillHeader_fills {change : ModuleHeader → ModuleHeader}
    (filled : draft.fillHeader statement change = .ok result)
    (module : ∀ header, (Construct.module header).Takes statement part
      (.module (change header)))
    (submodule : ∀ header, (Construct.submodule header).Takes statement part
      (.submodule (change header))) :
    draft.Fills statement result := by
  simp only [fillHeader, rootHolder, bind_eq_ok_iff, pure_eq_ok_iff] at filled
  obtain ⟨id, held, rfl⟩ := filled
  obtain ⟨kind, rest, stack, known, isModule⟩ := nodeHolder_eq_ok held
  obtain ⟨node, found, rfl⟩ := Option.map_eq_some_iff.mp known
  refine fills_modifyConstruct part stack found ?_
  cases construct : node.construct with
  | module header => exact module header
  | submodule header => exact submodule header
  | _ => simp [SchemaNode.kind, construct, Construct.kind,
      ConstructKind.isModule] at isModule

theorem fillType_fills {change : TypeUse → TypeUse}
    (filled : draft.fillType statement change = .ok result)
    (takes : ∀ use, (Frame.type use).Takes statement part
      (.type (change use))) : draft.Fills statement result := by
  obtain ⟨use, rest, stack, rfl⟩ := fillType_eq_ok filled
  exact .frame stack rfl (fun _ => rfl) (takes use)

end Draft

end YangSchema
