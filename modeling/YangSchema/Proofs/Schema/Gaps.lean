import YangSchema.Proofs.Schema.Types

/-!
# Gaps that linking has to fill

A gap is a place in a schema tree that some reference has to fill: the target of
a `uses`, an `augment`, a base or an if-feature, and what the type of a leaf or
of a member of a union refers to.  Types inside typedefs have no gaps, since
they are linked where the typedef is used, and neither has a leafref inside a
grouping.  A queue accounts for a tree if every gap has a reference in the queue
that has not been resolved.
-/

namespace YangSchema

/-- What is still missing in the links of a type. -/
inductive TypeUse.HasGap (use : TypeUse) (slot : TypeSlot)
    (inGrouping : Prop) : ReferenceKind → Prop
  | typedef (derived : use.builtin = none)
      (missing : use.links.typedef = none ∨ use.links.effective = none) :
      HasGap use slot inGrouping (.derivedType slot)
  | identity (based : use.effectiveBuiltin? = some .identityref)
      (missing : use.links.identity = none) :
      HasGap use slot inGrouping (.identityref slot)
  | leafref (refers : use.effectiveBuiltin? = some .leafref)
      (outside : ¬ inGrouping) (missing : use.links.leafrefTarget = none) :
      HasGap use slot inGrouping (.leafref slot)

/-- The kind of reference whose target a construct lacks. -/
def Construct.missingTarget? : Construct → Option ReferenceKind
  | .uses body => if body.target.isNone then some .uses else none
  | .augment body => if body.target.isNone then some .augment else none
  | .identity body =>
      if body.base.isSome && body.baseTarget.isNone then some .base else none
  | _ => none

/-- The target that a construct is linked to. -/
def Construct.target? : Construct → Option NodeRef
  | .uses body => body.target
  | .augment body => body.target
  | .identity body => body.baseTarget
  | _ => none

inductive Construct.HasGap (construct : Construct) (id : NodeId)
    (inTypedef inGrouping : Prop) : ReferenceKind → Prop
  | target {kind : ReferenceKind}
      (missing : construct.missingTarget? = some kind) :
      HasGap construct id inTypedef inGrouping kind
  | type {member : Option Nat} {use : TypeUse} {kind : ReferenceKind}
      (declared : construct.typeAt? member = some use)
      (outside : ¬ inTypedef) (gap : use.HasGap ⟨id, member⟩ inGrouping kind) :
      HasGap construct id inTypedef inGrouping kind

inductive Metadata.HasGap (metadata : Metadata) : ReferenceKind → Prop
  | ifFeature {index : Nat} {feature : IfFeature}
      (listed : metadata.ifFeatures[index]? = some feature)
      (missing : feature.target = none) :
      HasGap metadata (.ifFeature index)

/-- A node of a tree lacks what a reference of a kind would fill in. -/
inductive SchemaTree.HasGap (tree : SchemaTree) (id : NodeId)
    (kind : ReferenceKind) : Prop
  | construct {node : SchemaNode} (found : tree.node? id = some node)
      (gap : node.construct.HasGap id (tree.IsTemplate id)
        (tree.IsInGrouping id) kind)
  | metadata {node : SchemaNode} (found : tree.node? id = some node)
      (gap : node.metadata.HasGap kind)

/-- The node that a resolved reference writes into. -/
def Reference.place (item : Reference) : NodeId :=
  match item.kind with
  | .derivedType slot | .identityref slot | .leafref slot => slot.node
  | .uses | .base | .ifFeature _ | .augment => item.consumer

/-- An own reference of a node is waiting to be resolved. -/
def ReferenceQueue.Awaits (queue : ReferenceQueue) (kind : ReferenceKind)
    (id : NodeId) : Prop :=
  ∃ item ∈ queue, item.kind = kind ∧ item.place = id ∧ item.origin = none ∧
    ∀ target, item.state ≠ .resolved target

/-- Every gap of a tree has a reference that waits to fill it. -/
def ReferenceQueue.AccountsFor (queue : ReferenceQueue)
    (tree : SchemaTree) : Prop :=
  ∀ {id kind}, tree.HasGap id kind → queue.Awaits kind id

namespace ReferenceQueue

variable {queue more : ReferenceQueue} {kind : ReferenceKind} {id : NodeId}

theorem Awaits.append_left (awaits : queue.Awaits kind id)
    (more : ReferenceQueue) : ReferenceQueue.Awaits (queue ++ more) kind id := by
  obtain ⟨item, member, properties⟩ := awaits
  exact ⟨item, List.mem_append_left _ member, properties⟩

theorem Awaits.append_right (queue : ReferenceQueue)
    (awaits : more.Awaits kind id) :
    ReferenceQueue.Awaits (queue ++ more) kind id := by
  obtain ⟨item, member, properties⟩ := awaits
  exact ⟨item, List.mem_append_right _ member, properties⟩

/-- A fresh reference awaits its kind at the node that it writes into. -/
theorem awaits_ofText (kind : ReferenceKind) (text : String)
    (consumer : NodeId) (position : Position) (span : Span) :
    ReferenceQueue.Awaits [.ofText kind text consumer position span] kind
      (Reference.ofText kind text consumer position span).place :=
  ⟨_, List.mem_singleton_self _, rfl, rfl, rfl, by simp [Reference.ofText]⟩

end ReferenceQueue

theorem TypeUse.HasGap.mono {use : TypeUse} {slot : TypeSlot}
    {inGrouping inGrouping' : Prop} {kind : ReferenceKind}
    (gap : use.HasGap slot inGrouping kind)
    (grouping : inGrouping' → inGrouping) :
    use.HasGap slot inGrouping' kind := by
  cases gap with
  | typedef derived missing => exact .typedef derived missing
  | identity based missing => exact .identity based missing
  | leafref refers outside missing =>
      exact .leafref refers (fun inside => outside (grouping inside)) missing

/-- Around a node there are only ever more typedefs and groupings, so gaps do
not arise from that. -/
theorem Construct.HasGap.mono {construct : Construct} {id : NodeId}
    {inTypedef inTypedef' inGrouping inGrouping' : Prop}
    {kind : ReferenceKind}
    (gap : construct.HasGap id inTypedef inGrouping kind)
    (typedef : inTypedef' → inTypedef) (grouping : inGrouping' → inGrouping) :
    construct.HasGap id inTypedef' inGrouping' kind := by
  cases gap with
  | target missing => exact .target missing
  | type declared outside gap =>
      exact .type declared (fun inside => outside (typedef inside))
        (gap.mono grouping)

/-- A construct has changed in nothing that linking reads or fills in, but for
an import or an include that is not bound yet. -/
structure Construct.Agrees (construct other : Construct) : Prop where
  kind : other.kind = construct.kind
  missingTarget : other.missingTarget? = construct.missingTarget?
  target : other.target? = construct.target?
  typeAt : other.typeAt? = construct.typeAt?
  bindings : ∀ binding ∈ other.bindings,
    binding ∈ construct.bindings ∨ binding = none

theorem Construct.Agrees.refl (construct : Construct) :
    construct.Agrees construct :=
  ⟨rfl, rfl, rfl, rfl, fun _ => .inl⟩

theorem Construct.Agrees.hasGap {construct other : Construct}
    (agrees : construct.Agrees other) {id : NodeId}
    {inTypedef inGrouping : Prop} {kind : ReferenceKind}
    (gap : other.HasGap id inTypedef inGrouping kind) :
    construct.HasGap id inTypedef inGrouping kind := by
  cases gap with
  | target missing => exact .target (agrees.missingTarget ▸ missing)
  | type declared outside gap =>
      exact .type (agrees.typeAt ▸ declared) outside gap

namespace SchemaTree

variable {tree : SchemaTree} {id target : NodeId} {kind : ReferenceKind}

/-- Where a tree gets a gap that it did not have: at a node that was not there,
or that was different. -/
theorem HasGap.of_keeps {before after : SchemaTree}
    (keeps : before.Keeps after) (gap : after.HasGap id kind) :
    before.HasGap id kind ∨
      ∃ node', after.node? id = some node' ∧
        before.node? id ≠ some node' ∧
        (node'.construct.HasGap id (after.IsTemplate id)
            (after.IsInGrouping id) kind ∨
          node'.metadata.HasGap kind) := by
  cases gap with
  | @construct node found gap =>
      by_cases same : before.node? id = some node
      · exact .inl (.construct same
          (gap.mono (keeps.isTemplate same) (keeps.isInGrouping same)))
      · exact .inr ⟨node, found, same, .inl gap⟩
  | @metadata node found gap =>
      by_cases same : before.node? id = some node
      · exact .inl (.metadata same gap)
      · exact .inr ⟨node, found, same, .inr gap⟩

theorem hasGap_addChild {parent : NodeId} {node : SchemaNode}
    (gap : (tree.addChild parent node).HasGap id kind) :
    tree.HasGap id kind ∨ id = tree.size ∧
      (node.construct.HasGap id ((tree.addChild parent node).IsTemplate id)
          ((tree.addChild parent node).IsInGrouping id) kind ∨
        node.metadata.HasGap kind) := by
  obtain old | ⟨node', found, fresh, gap⟩ :=
    gap.of_keeps (.addChild tree parent node)
  · exact .inl old
  · rw [node?_addChild] at found
    split at found
    next same =>
      obtain rfl := by simpa using found
      exact .inr ⟨same, gap⟩
    · exact absurd found fresh

theorem hasGap_addRoot {node : SchemaNode}
    (gap : (tree.addRoot node).HasGap id kind) :
    tree.HasGap id kind ∨ id = tree.size ∧
      (node.construct.HasGap id ((tree.addRoot node).IsTemplate id)
          ((tree.addRoot node).IsInGrouping id) kind ∨
        node.metadata.HasGap kind) := by
  obtain old | ⟨node', found, fresh, gap⟩ := gap.of_keeps (.addRoot tree node)
  · exact .inl old
  · rw [node?_addRoot] at found
    split at found
    next same =>
      obtain rfl := by simpa using found
      exact .inr ⟨same, gap⟩
    · exact absurd found fresh

/-- A changed construct has a gap only where the change leaves one. -/
theorem hasGap_modifyConstruct {change : Construct → Construct}
    (sameKind : ∀ construct, tree.construct? target = some construct →
      (change construct).kind = construct.kind)
    (gap : (tree.modifyConstruct target change).HasGap id kind) :
    tree.HasGap id kind ∨ id = target ∧
      ∃ construct, tree.construct? id = some construct ∧
        (change construct).HasGap id
          ((tree.modifyConstruct target change).IsTemplate id)
          ((tree.modifyConstruct target change).IsInGrouping id) kind := by
  have keeps : tree.Keeps (tree.modifyConstruct target change) :=
    .modifyConstruct sameKind
  obtain old | ⟨node', found', changed, gap⟩ := gap.of_keeps keeps
  · exact .inl old
  rw [node?_modifyConstruct] at found'
  split at found'
  next same =>
    subst same
    obtain ⟨node, found, rfl⟩ := Option.map_eq_some_iff.mp found'
    obtain gap | gap := gap
    · exact .inr ⟨rfl, node.construct,
        construct?_eq_some_iff.mpr ⟨node, found, rfl⟩, gap⟩
    · exact .inl (.metadata found gap)
  · exact absurd found' changed

theorem hasGap_modifyMetadata {change : Metadata → Metadata}
    (gap : (tree.modifyMetadata target change).HasGap id kind) :
    tree.HasGap id kind ∨ id = target ∧
      ∃ node, tree.node? id = some node ∧
        (change node.metadata).HasGap kind := by
  have keeps : tree.Keeps (tree.modifyMetadata target change) :=
    .modifyMetadata tree target change
  obtain old | ⟨node', found', changed, gap⟩ := gap.of_keeps keeps
  · exact .inl old
  rw [node?_modifyMetadata] at found'
  split at found'
  next same =>
    subst same
    obtain ⟨node, found, rfl⟩ := Option.map_eq_some_iff.mp found'
    obtain gap | gap := gap
    · exact .inl (.construct found
        (gap.mono (keeps.isTemplate found) (keeps.isInGrouping found)))
    · exact .inr ⟨rfl, node, found, gap⟩
  · exact absurd found' changed

end SchemaTree

end YangSchema
