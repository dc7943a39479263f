import Mathlib.Logic.Unique
import YangSchema.Draft.Types
import YangSchema.Linking.Outcome
import YangSchema.Proofs.Except
import YangSchema.Proofs.Schema.Trees

/-!
# Types that have been read

A type is complete when its `type` statement has ended: the built-in type is the
one that its name spells, the sub-statement which that built-in type requires
has been read, and its restrictions come from expressions.  All types of a tree
are complete, and no typedef is called like a built-in type.  The members of an
unnamed type stand in a node behind it that belongs to no other type.
-/

namespace YangSchema

namespace TypeUse

/-- The restriction of a kind that a type declares. -/
def restriction? (use : TypeUse) : IntervalKind → Option IntervalRestriction
  | .range => use.range
  | .length => use.length

/-- The restrictions of a kind were read from expressions. -/
def IsRead (kind : IntervalKind) (use : TypeUse) : Prop :=
  ∀ restriction ∈ use.restriction? kind, ∃ expression,
    Intervals.parse kind expression = .ok restriction.intervals

/-- The built-in type is the one that the name spells, if it spells one. -/
def IsNamed (use : TypeUse) : Prop :=
  use.builtin = (ofName use.name use.position use.span).builtin

/-- What a sub-statement writes into its type has been written. -/
def Has (use : TypeUse) : Keyword → Prop
  | .base => use.base.isSome
  | .path => use.path.isSome
  | .fractionDigits => use.fractionDigits.isSome
  | _ => True

structure IsComplete (use : TypeUse) : Prop where
  named : use.IsNamed
  required : ∀ builtin, use.builtin = some builtin →
    ∀ keyword, Draft.requiredPart builtin = some keyword → use.Has keyword
  read : ∀ kind, use.IsRead kind

/-- A name that is not that of a built-in type belongs to no built-in type. -/
theorem IsNamed.isDerived {use : TypeUse} (named : use.IsNamed)
    (other : BuiltinType.ofName? use.name.name = none) : use.builtin = none := by
  rw [named]
  cases qualifier : use.name.qualifier <;> simp [ofName, qualifier, other]

end TypeUse

/-- What the check of a type that names a built-in one amounts to. -/
theorem Draft.checkTypeBody_eq_ok_iff {use : TypeUse} {builtin : BuiltinType}
    {statement : Statement} (named : use.builtin = some builtin) :
    checkTypeBody statement use = .ok () ↔
      (∀ keyword ∈ requiredPart builtin,
        Cardinality.checkOne statement (keyword, .nonZero) = .ok ()) ∧
      checkWithin "range" builtin use.range
        (builtin.naturalRange? use.fractionDigits) = .ok () ∧
      checkWithin "length" builtin use.length builtin.naturalLength? =
        .ok () := by
  unfold checkTypeBody
  simp only [named]
  cases requiredPart builtin <;> simp [bind_eq_ok_iff, Unique.exists_iff]

/-- The type of a construct, or a member if it is a union. -/
def Construct.typeAt? (construct : Construct) : Option Nat → Option TypeUse
  | none => construct.type?
  | some index =>
      match construct with
      | .union members => members[index]?
      | _ => none

/-- What the imports and the includes of a unit are bound to. -/
def ModuleHeader.bindings (header : ModuleHeader) : List (Option SourceId) :=
  header.imports.map (·.resolved) ++ header.includes.map (·.resolved)

def Construct.bindings (construct : Construct) : List (Option SourceId) :=
  (construct.header?.map (·.bindings)).getD []

theorem Construct.mem_bindings_of_import {construct : Construct}
    {header : ModuleHeader} {declaration : Import}
    (declared : construct.header? = some header)
    (listed : declaration ∈ header.imports) :
    declaration.resolved ∈ construct.bindings := by
  rw [bindings, declared]
  exact List.mem_append_left _ (List.mem_map_of_mem listed)

theorem Construct.mem_bindings_of_include {construct : Construct}
    {header : ModuleHeader} {declaration : Include}
    (declared : construct.header? = some header)
    (listed : declaration ∈ header.includes) :
    declaration.resolved ∈ construct.bindings := by
  rw [bindings, declared]
  exact List.mem_append_right _ (List.mem_map_of_mem listed)

structure SchemaNode.IsSound (node : SchemaNode) : Prop where
  typedef : node.kind = .typedef → BuiltinType.ofName? node.name = none
  types : ∀ {member use}, node.construct.typeAt? member = some use →
    use.IsComplete

namespace SchemaTree

def IsSound (tree : SchemaTree) : Prop :=
  ∀ {id node}, tree.node? id = some node → node.IsSound

theorem typeAt?_eq (tree : SchemaTree) (slot : TypeSlot) :
    tree.typeAt? slot =
      (tree.construct? slot.node).bind (·.typeAt? slot.member) := by
  obtain ⟨node, member⟩ := slot
  unfold typeAt? Construct.typeAt?
  cases member <;> cases tree.construct? node <;> try rfl
  next construct => cases construct <;> rfl

theorem typeAt?_eq_some_iff {tree : SchemaTree} {slot : TypeSlot}
    {use : TypeUse} :
    tree.typeAt? slot = some use ↔
      ∃ node, tree.node? slot.node = some node ∧
        node.construct.typeAt? slot.member = some use := by
  rw [typeAt?_eq]
  simp [construct?, Option.bind_eq_some_iff]

theorem IsSound.typeAt {tree : SchemaTree} (sound : tree.IsSound)
    {slot : TypeSlot} {use : TypeUse} (declared : tree.typeAt? slot = some use) :
    use.IsComplete := by
  obtain ⟨node, found, declared⟩ := typeAt?_eq_some_iff.mp declared
  exact (sound found).types declared

theorem IsSound.type {tree : SchemaTree} (sound : tree.IsSound) {id : NodeId}
    {use : TypeUse} (declared : tree.type? id = some use) : use.IsComplete := by
  have declared : tree.typeAt? ⟨id, none⟩ = some use := by
    rw [typeAt?_eq]
    exact declared
  exact sound.typeAt declared

section

variable (tree : SchemaTree)

theorem typeAt?_addChild {parent : NodeId} {node : SchemaNode}
    (bare : ∀ member, node.construct.typeAt? member = none) (slot : TypeSlot) :
    (tree.addChild parent node).typeAt? slot = tree.typeAt? slot := by
  rw [typeAt?_eq, typeAt?_eq, construct?, construct?, node?_addChild]
  split
  next same => simp [same, node?_size, bare]
  · rfl

theorem typeAt?_addRoot {node : SchemaNode}
    (bare : ∀ member, node.construct.typeAt? member = none) (slot : TypeSlot) :
    (tree.addRoot node).typeAt? slot = tree.typeAt? slot := by
  rw [typeAt?_eq, typeAt?_eq, construct?, construct?, node?_addRoot]
  split
  next same => simp [same, node?_size, bare]
  · rfl

theorem typeAt?_modifyMetadata (target : NodeId)
    (change : Metadata → Metadata) (slot : TypeSlot) :
    (tree.modifyMetadata target change).typeAt? slot = tree.typeAt? slot := by
  rw [typeAt?_eq, typeAt?_eq, construct?, construct?, node?_modifyMetadata]
  split
  · cases tree.node? slot.node <;> rfl
  · rfl

theorem typeAt?_modifyConstruct {target : NodeId}
    {change : Construct → Construct}
    (types : ∀ construct, tree.construct? target = some construct →
      (change construct).typeAt? = construct.typeAt?) (slot : TypeSlot) :
    (tree.modifyConstruct target change).typeAt? slot = tree.typeAt? slot := by
  rw [typeAt?_eq, typeAt?_eq, construct?, construct?, node?_modifyConstruct]
  split
  next same =>
    subst same
    cases found : tree.node? slot.node with
    | none => rfl
    | some node =>
        have same := types node.construct
          (construct?_eq_some_iff.mpr ⟨node, found, rfl⟩)
        simp [same]
  · rfl

end

/-- The type at a slot has its members in a node. -/
def HoldsMembers (tree : SchemaTree) (slot : TypeSlot) (id : NodeId) : Prop :=
  ∃ use, tree.typeAt? slot = some use ∧ use.members = some id

/-- Every node for members is that of one type, and stands behind it. -/
structure HasApartMembers (tree : SchemaTree) : Prop where
  later : ∀ {slot id}, tree.HoldsMembers slot id → slot.node < id
  inside : ∀ {slot id}, tree.HoldsMembers slot id → id < tree.size
  single : ∀ {slot slot' id}, tree.HoldsMembers slot id →
    tree.HoldsMembers slot' id → slot = slot'

variable {before after : SchemaTree}

/-- Trees with the same types have them in the same nodes. -/
theorem holdsMembers_congr
    (same : ∀ slot, after.typeAt? slot = before.typeAt? slot) {slot : TypeSlot}
    {id : NodeId} : after.HoldsMembers slot id ↔ before.HoldsMembers slot id := by
  simp only [HoldsMembers, same]

/-- Members stay apart if no type gets others. -/
theorem HasApartMembers.of_holds (apart : before.HasApartMembers)
    (old : ∀ {slot id}, after.HoldsMembers slot id →
      before.HoldsMembers slot id)
    (grows : before.size ≤ after.size) : after.HasApartMembers where
  later holds := apart.later (old holds)
  inside holds := Nat.lt_of_lt_of_le (apart.inside (old holds)) grows
  single holds holds' := apart.single (old holds) (old holds')

theorem HasApartMembers.of_sameTypes (apart : before.HasApartMembers)
    (same : ∀ slot, after.typeAt? slot = before.typeAt? slot)
    (grows : before.size ≤ after.size) : after.HasApartMembers :=
  apart.of_holds (holdsMembers_congr same).mp grows

end SchemaTree

/-- Where a type is written: in a node, or as a member of a union. -/
structure TypePlace where
  node : NodeRef
  member : Option Nat

/-- The place of the type that a reference to a typedef stands for. -/
def Reference.derivedPlace (item : Reference) (source : SourceId)
    (slot : TypeSlot) : TypePlace :=
  match item.origin with
  | some (.unionMember union member _) => ⟨union, some member⟩
  | _ => ⟨⟨source, slot.node⟩, slot.member⟩

namespace Scene

def typeAt? (scene : Scene) (place : TypePlace) : Option TypeUse :=
  (scene.construct? place.node).bind (·.typeAt? place.member)

theorem derivedUse_eq (scene : Scene) (source : SourceId) (item : Reference)
    (slot : TypeSlot) : scene.derivedUse source item slot =
      ((item.derivedPlace source slot).node,
        scene.typeAt? (item.derivedPlace source slot)) := by
  have at_node (ref : NodeRef) (member : Option Nat) :
      (scene.tree? ref.source).bind (·.typeAt? ⟨ref.node, member⟩) =
        scene.typeAt? ⟨ref, member⟩ := by
    unfold typeAt? construct? node?
    cases scene.tree? ref.source with
    | none => rfl
    | some tree => exact SchemaTree.typeAt?_eq tree ⟨ref.node, member⟩
  unfold derivedUse Reference.derivedPlace
  cases item.origin with
  | none => exact congrArg (Prod.mk _) (at_node ⟨source, slot.node⟩ slot.member)
  | some origin =>
      cases origin with
      | unionMember union member typedefs =>
          exact congrArg (Prod.mk _) (at_node union (some member))
      | grouping leaf uses =>
          exact congrArg (Prod.mk _)
            (at_node ⟨source, slot.node⟩ slot.member)

/-- A reference of its own to a typedef is made by the type at its slot. -/
theorem derivedUse_of_own (scene : Scene) {source : SourceId} {item : Reference}
    (own : item.origin = none) (slot : TypeSlot) :
    scene.derivedUse source item slot = (⟨source, slot.node⟩,
      scene.typeAt? ⟨⟨source, slot.node⟩, slot.member⟩) := by
  rw [derivedUse_eq, Reference.derivedPlace, own]

end Scene

end YangSchema
