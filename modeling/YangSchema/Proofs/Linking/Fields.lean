import YangSchema.Proofs.Linking.Binding

/-!
# The fields that linking fills in

A node has fields for what linking finds out: targets, the links of its types,
and what a header imports and includes.  Without these fields it is what its
statements say.  A change writes to some fields if it leaves the others alone and
everything else as well.  Links go further from one tree to another one if only
such fields differ, and those that had a value still have it.
-/

namespace YangSchema

/-- What a field that linking fills in can hold. -/
inductive LinkValue where
  | node (target : NodeRef)
  | effective (type : EffectiveType)
  | source (id : SourceId)
  deriving DecidableEq

/-- The fields of one node that linking fills in. -/
inductive LinkPart where
  | uses
  | augment
  | base
  | feature (index : Nat)
  | typedef (member : Option Nat)
  | effective (member : Option Nat)
  | identity (member : Option Nat)
  | leafrefTarget (member : Option Nat)
  | importing (index : Nat)
  | including (index : Nat)
  deriving DecidableEq

structure LinkField where
  node : NodeId
  part : LinkPart
  deriving DecidableEq

/-- What a construct holds in a field; the features are those of a node. -/
def Construct.link? (construct : Construct) : LinkPart → Option LinkValue
  | .uses =>
      match construct with
      | .uses body => body.target.map .node
      | _ => none
  | .augment =>
      match construct with
      | .augment body => body.target.map .node
      | _ => none
  | .base =>
      match construct with
      | .identity body => body.baseTarget.map .node
      | _ => none
  | .feature _ => none
  | .typedef member =>
      (construct.typeAt? member).bind fun use => use.links.typedef.map .node
  | .effective member =>
      (construct.typeAt? member).bind fun use =>
        use.links.effective.map .effective
  | .identity member =>
      (construct.typeAt? member).bind fun use => use.links.identity.map .node
  | .leafrefTarget member =>
      (construct.typeAt? member).bind fun use =>
        use.links.leafrefTarget.map .node
  | .importing index =>
      construct.header?.bind fun header =>
        header.imports[index]?.bind fun declaration =>
          declaration.resolved.map .source
  | .including index =>
      construct.header?.bind fun header =>
        header.includes[index]?.bind fun declaration =>
          declaration.resolved.map .source

def SchemaNode.link? (node : SchemaNode) : LinkPart → Option LinkValue
  | .feature index =>
      node.metadata.ifFeatures[index]?.bind fun feature =>
        feature.target.map .node
  | part => node.construct.link? part

def SchemaTree.link? (tree : SchemaTree) (field : LinkField) :
    Option LinkValue :=
  (tree.node? field.node).bind (·.link? field.part)

section

/-- A header without what it imports and includes is bound to. -/
def ModuleHeader.unlinked (header : ModuleHeader) : ModuleHeader :=
  { header with
    imports := header.imports.map ({ · with resolved := none })
    includes := header.includes.map ({ · with resolved := none }) }

/-- What the statements say about a construct, without any links. -/
def Construct.unlinked : Construct → Construct
  | .module header => .module header.unlinked
  | .submodule header => .submodule header.unlinked
  | .leaf body => .leaf { body with type := body.type.map (·.unlinked) }
  | .leafList body => .leafList { body with type := body.type.map (·.unlinked) }
  | .typedef body => .typedef { body with type := body.type.map (·.unlinked) }
  | .union members => .union (members.map (·.unlinked))
  | .uses body => .uses { body with target := none }
  | .augment body => .augment { body with target := none }
  | .identity body => .identity { body with baseTarget := none }
  | construct => construct

def Metadata.unlinked (metadata : Metadata) : Metadata :=
  { metadata with
    ifFeatures := metadata.ifFeatures.map ({ · with target := none }) }

def SchemaNode.unlinked (node : SchemaNode) : SchemaNode :=
  { node with
    construct := node.construct.unlinked
    metadata := node.metadata.unlinked }

end

/-- A change that cannot be seen in what a function reads. -/
theorem map_modify_eq {α β : Type} (change : α → α) (read : α → β)
    (same : ∀ item, read (change item) = read item) (items : List α)
    (place : Nat) : (items.modify place change).map read = items.map read := by
  refine List.ext_getElem? fun other => ?_
  simp only [List.getElem?_map, List.getElem?_modify]
  split
  · cases items[other]? <;> simp [same]
  · simp

namespace SchemaTree

/-- Only some fields of a tree have been written to. -/
structure WritesTo (written : LinkField → Prop) (before after : SchemaTree) :
    Prop where
  source : after.source = before.source
  nodes : ∀ id,
    (after.node? id).map (·.unlinked) = (before.node? id).map (·.unlinked)
  others : ∀ field, ¬ written field → after.link? field = before.link? field

/-- Only links differ, and those that were there are still there. -/
structure LinksFurther (before after : SchemaTree) : Prop where
  source : after.source = before.source
  nodes : ∀ id,
    (after.node? id).map (·.unlinked) = (before.node? id).map (·.unlinked)
  kept : ∀ field value, before.link? field = some value →
    after.link? field = some value

variable {tree before middle after : SchemaTree}
  {written : LinkField → Prop}

theorem LinksFurther.refl (tree : SchemaTree) : tree.LinksFurther tree :=
  ⟨rfl, fun _ => rfl, fun _ _ => id⟩

theorem LinksFurther.trans (first : before.LinksFurther middle)
    (second : middle.LinksFurther after) : before.LinksFurther after where
  source := second.source.trans first.source
  nodes id := (second.nodes id).trans (first.nodes id)
  kept field value held := second.kept field value (first.kept field value held)

theorem WritesTo.refl (written : LinkField → Prop) (tree : SchemaTree) :
    tree.WritesTo written tree :=
  ⟨rfl, fun _ => rfl, fun _ _ => rfl⟩

/-- What is written to fields without a value takes nothing away. -/
theorem WritesTo.linksFurther (writes : before.WritesTo written after)
    (vacant : ∀ field, written field → before.link? field = none) :
    before.LinksFurther after where
  source := writes.source
  nodes := writes.nodes
  kept field value held := by
    have other : ¬ written field := fun listed => by
      simp [vacant field listed] at held
    rw [writes.others field other, held]

/-- One node has been changed. -/
theorem WritesTo.of_node {target : NodeId} {change : SchemaNode → SchemaNode}
    (source : after.source = before.source)
    (nodes : ∀ id, after.node? id =
      if target = id then (before.node? id).map change else before.node? id)
    (same : ∀ node, before.node? target = some node →
      (change node).unlinked = node.unlinked)
    (others : ∀ node, before.node? target = some node → ∀ part,
      ¬ written ⟨target, part⟩ → (change node).link? part = node.link? part) :
    before.WritesTo written after where
  source := source
  nodes id := by
    rw [nodes]
    split
    next is =>
      cases known : before.node? id with
      | none => rfl
      | some node => exact congrArg some (same node (is ▸ known))
    · rfl
  others field other := by
    rw [link?, link?, nodes]
    split
    next at_target =>
      obtain ⟨id, part⟩ := field
      obtain rfl : target = id := at_target
      cases known : before.node? target with
      | none => rfl
      | some node => exact others node known part other
    · rfl

theorem WritesTo.modifyConstruct {target : NodeId}
    {change : Construct → Construct}
    (same : ∀ construct, tree.construct? target = some construct →
      (change construct).unlinked = construct.unlinked)
    (others : ∀ construct, tree.construct? target = some construct → ∀ part,
      ¬ written ⟨target, part⟩ →
        (change construct).link? part = construct.link? part) :
    tree.WritesTo written (tree.modifyConstruct target change) := by
  have has {node : SchemaNode} (known : tree.node? target = some node) :
      tree.construct? target = some node.construct :=
    construct?_eq_some_iff.mpr ⟨node, known, rfl⟩
  refine .of_node rfl (node?_modifyConstruct tree target change)
    (fun node known => ?_) fun node known part other => ?_
  · simp [SchemaNode.unlinked, same _ (has known)]
  · cases part with
    | feature index => rfl
    | _ => exact others node.construct (has known) _ other

/-- Writing the links of a type leaves the other links alone. -/
theorem WritesTo.modifyLinks {slot : TypeSlot}
    {change : TypeLinks → TypeLinks}
    (others : ∀ (links : TypeLinks),
      (¬ written ⟨slot.node, .typedef slot.member⟩ →
        (change links).typedef = links.typedef) ∧
      (¬ written ⟨slot.node, .effective slot.member⟩ →
        (change links).effective = links.effective) ∧
      (¬ written ⟨slot.node, .identity slot.member⟩ →
        (change links).identity = links.identity) ∧
      (¬ written ⟨slot.node, .leafrefTarget slot.member⟩ →
        (change links).leafrefTarget = links.leafrefTarget)) :
    tree.WritesTo written (tree.modifyLinks slot change) := by
  rw [modifyLinks_eq]
  apply WritesTo.modifyConstruct
  · intro construct _
    have erased (use : TypeUse) :
        (relink change use).unlinked = use.unlinked := rfl
    cases slot.member with
    | none =>
        cases construct <;>
          simp [Construct.mapTypeAt, Construct.mapType, Construct.unlinked,
            Option.map_map, Function.comp_def, erased]
    | some index =>
        cases construct with
        | union members =>
            exact congrArg Construct.union (map_modify_eq _ _ erased members index)
        | _ => rfl
  · intro construct _ part other
    have type (member : Option Nat) {α : Type} (part : TypeUse → Option α)
        (same : member = slot.member → ∀ use,
          part (relink change use) = part use) :
        ((construct.mapTypeAt (relink change) slot.member).typeAt? member).bind
          part = (construct.typeAt? member).bind part := by
      rw [Construct.typeAt?_mapTypeAt]
      split
      next is =>
        cases construct.typeAt? member with
        | none => rfl
        | some use => exact same is use
      · rfl
    cases part with
    | uses | augment | base =>
        cases member : slot.member <;> cases construct <;> rfl
    | feature index => rfl
    | importing index | including index =>
        simp [Construct.link?]
    | typedef member =>
        refine type member _ fun is use => ?_
        exact congrArg (Option.map _) ((others use.links).1 (is ▸ other))
    | effective member =>
        refine type member _ fun is use => ?_
        exact congrArg (Option.map _) ((others use.links).2.1 (is ▸ other))
    | identity member =>
        refine type member _ fun is use => ?_
        exact congrArg (Option.map _) ((others use.links).2.2.1 (is ▸ other))
    | leafrefTarget member =>
        refine type member _ fun is use => ?_
        exact congrArg (Option.map _) ((others use.links).2.2.2 (is ▸ other))

theorem WritesTo.modifyFeature {target : NodeId} (index : Nat)
    {change : IfFeature → IfFeature}
    (same : ∀ feature, (change feature).name = feature.name)
    (listed : written ⟨target, .feature index⟩) :
    tree.WritesTo written (tree.modifyMetadata target fun metadata =>
      { metadata with
        ifFeatures := metadata.ifFeatures.modify index change }) := by
  refine .of_node rfl (node?_modifyMetadata tree target _) (fun node _ => ?_)
    fun node _ part other => ?_
  · have features := map_modify_eq change
      (fun feature => { feature with target := none })
      (fun feature => by simp [same]) node.metadata.ifFeatures index
    simp [SchemaNode.unlinked, Metadata.unlinked, features]
  · cases part with
    | feature place =>
        have another : index ≠ place := by
          rintro rfl
          exact other listed
        simp [SchemaNode.link?, another]
    | _ => rfl

end SchemaTree

end YangSchema
