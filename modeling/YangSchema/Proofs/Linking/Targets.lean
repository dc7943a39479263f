import YangSchema.Proofs.Linking.Binding

/-!
# What nodes are linked to

A node has a link for every reference that has been bound for it:  to the target
of its construct, to those of its features and to what its types refer to.
Binding a reference adds a link to one node and leaves all others as they are.
-/

namespace YangSchema

/-- The kind of reference that links a construct. -/
def Construct.targetKind? : Construct → Option ReferenceKind
  | .uses _ => some .uses
  | .augment _ => some .augment
  | .identity _ => some .base
  | _ => none

namespace Construct

variable (change : TypeUse → TypeUse) (member : Option Nat)
  (construct : Construct)

@[simp]
theorem targetKind?_mapTypeAt :
    (construct.mapTypeAt change member).targetKind? =
      construct.targetKind? := by
  cases member <;> cases construct <;> rfl

@[simp]
theorem target?_mapTypeAt :
    (construct.mapTypeAt change member).target? = construct.target? := by
  cases member <;> cases construct <;> rfl

end Construct

/-- What the type at a slot is linked to. -/
inductive TypeLinks.LeadTo (links : TypeLinks) (slot : TypeSlot) :
    ReferenceKind → NodeRef → Prop
  | typedef {target : NodeRef} (linked : links.typedef = some target) :
      LeadTo links slot (.derivedType slot) target
  | identity {target : NodeRef} (linked : links.identity = some target) :
      LeadTo links slot (.identityref slot) target
  | leafref {target : NodeRef} (linked : links.leafrefTarget = some target) :
      LeadTo links slot (.leafref slot) target

/-- What a node of a tree is linked to by a reference of a kind. -/
inductive SchemaTree.Links (tree : SchemaTree) (id : NodeId) :
    ReferenceKind → NodeRef → Prop
  | construct {construct : Construct} {kind : ReferenceKind} {target : NodeRef}
      (found : tree.construct? id = some construct)
      (ofKind : construct.targetKind? = some kind)
      (linked : construct.target? = some target) : Links tree id kind target
  | type {member : Option Nat} {use : TypeUse} {kind : ReferenceKind}
      {target : NodeRef} (declared : tree.typeAt? ⟨id, member⟩ = some use)
      (linked : use.links.LeadTo ⟨id, member⟩ kind target) :
      Links tree id kind target
  | feature {node : SchemaNode} {index : Nat} {feature : IfFeature}
      {target : NodeRef} (found : tree.node? id = some node)
      (listed : node.metadata.ifFeatures[index]? = some feature)
      (linked : feature.target = some target) :
      Links tree id (.ifFeature index) target

theorem TypeLinks.LeadTo.slot?_eq {links : TypeLinks} {slot : TypeSlot}
    {kind : ReferenceKind} {target : NodeRef}
    (linked : links.LeadTo slot kind target) : kind.slot? = some slot := by
  cases linked <;> rfl

namespace SchemaTree

variable {tree : SchemaTree} {id : NodeId} {kind : ReferenceKind}
  {target : NodeRef}

/-- Only the links of the node with the changed construct can be others. -/
theorem links_modifyConstruct {change : Construct → Construct} {place : NodeId}
    (linked : (tree.modifyConstruct place change).Links id kind target) :
    tree.Links id kind target ∨ id = place ∧
      ∃ construct, tree.construct? id = some construct ∧
        ((change construct).targetKind? = some kind ∧
            (change construct).target? = some target ∨
          ∃ member use, (change construct).typeAt? member = some use ∧
            use.links.LeadTo ⟨id, member⟩ kind target) := by
  have changed {construct' : Construct}
      (found : (tree.modifyConstruct place change).construct? id =
        some construct') :
      tree.construct? id = some construct' ∨ id = place ∧
        ∃ construct, tree.construct? id = some construct ∧
          change construct = construct' := by
    obtain ⟨node', known', rfl⟩ := construct?_eq_some_iff.mp found
    rw [node?_modifyConstruct] at known'
    split at known'
    next same =>
      subst same
      obtain ⟨node, known, rfl⟩ := Option.map_eq_some_iff.mp known'
      exact .inr ⟨rfl, _, construct?_eq_some_iff.mpr ⟨node, known, rfl⟩, rfl⟩
    · exact .inl (construct?_eq_some_iff.mpr ⟨node', known', rfl⟩)
  cases linked with
  | construct found ofKind linked =>
      obtain old | ⟨same, construct, known, rfl⟩ := changed found
      · exact .inl (.construct old ofKind linked)
      · exact .inr ⟨same, construct, known, .inl ⟨ofKind, linked⟩⟩
  | type declared linked =>
      rw [typeAt?_eq] at declared
      obtain ⟨construct', found, declared⟩ := Option.bind_eq_some_iff.mp declared
      obtain old | ⟨same, construct, known, rfl⟩ := changed found
      · refine .inl (.type ?_ linked)
        rw [typeAt?_eq]
        exact Option.bind_eq_some_iff.mpr ⟨construct', old, declared⟩
      · exact .inr ⟨same, construct, known, .inr ⟨_, _, declared, linked⟩⟩
  | feature found listed linked =>
      refine .inl ?_
      rw [node?_modifyConstruct] at found
      split at found
      · obtain ⟨node, known, rfl⟩ := Option.map_eq_some_iff.mp found
        exact .feature known listed linked
      · exact .feature found listed linked

/-- Only the links of the type at a slot can be others. -/
theorem links_modifyLinks {change : TypeLinks → TypeLinks} {slot : TypeSlot}
    (linked : (tree.modifyLinks slot change).Links id kind target) :
    tree.Links id kind target ∨ id = slot.node ∧
      ∃ use, tree.typeAt? slot = some use ∧
        (change use.links).LeadTo slot kind target := by
  rw [modifyLinks_eq] at linked
  obtain old | ⟨rfl, construct, found, linked⟩ := links_modifyConstruct linked
  · exact .inl old
  obtain ⟨ofKind, linked⟩ | ⟨member, use, declared, linked⟩ := linked
  · rw [Construct.targetKind?_mapTypeAt] at ofKind
    rw [Construct.target?_mapTypeAt] at linked
    exact .inl (.construct found ofKind linked)
  · have declares {use : TypeUse} (declared : construct.typeAt? member = some use) :
        tree.typeAt? ⟨slot.node, member⟩ = some use := by
      rw [typeAt?_eq]
      exact Option.bind_eq_some_iff.mpr ⟨construct, found, declared⟩
    rw [Construct.typeAt?_mapTypeAt] at declared
    split at declared
    next same =>
      subst same
      obtain ⟨use, written, rfl⟩ := Option.map_eq_some_iff.mp declared
      exact .inr ⟨rfl, use, declares written, linked⟩
    · exact .inl (.type (declares declared) linked)

theorem links_modifyFeature {place : NodeId} {index : Nat} {bound : NodeRef}
    (linked : (tree.modifyMetadata place fun metadata =>
      { metadata with
        ifFeatures := metadata.ifFeatures.modify index fun feature =>
          { feature with target := some bound } }).Links id kind target) :
    tree.Links id kind target ∨
      id = place ∧ kind = .ifFeature index ∧ target = bound := by
  cases linked with
  | construct found ofKind linked =>
      obtain ⟨node', known', rfl⟩ := construct?_eq_some_iff.mp found
      rw [node?_modifyMetadata] at known'
      split at known'
      · obtain ⟨node, known, rfl⟩ := Option.map_eq_some_iff.mp known'
        exact .inl (.construct (construct?_eq_some_iff.mpr ⟨node, known, rfl⟩)
          ofKind linked)
      · exact .inl (.construct (construct?_eq_some_iff.mpr ⟨node', known', rfl⟩)
          ofKind linked)
  | type declared linked =>
      obtain ⟨node', found, declared⟩ := typeAt?_eq_some_iff.mp declared
      rw [node?_modifyMetadata] at found
      split at found
      · obtain ⟨node, known, rfl⟩ := Option.map_eq_some_iff.mp found
        exact .inl (.type (typeAt?_eq_some_iff.mpr ⟨node, known, declared⟩)
          linked)
      · exact .inl (.type (typeAt?_eq_some_iff.mpr ⟨node', found, declared⟩)
          linked)
  | feature found listed linked =>
      rw [node?_modifyMetadata] at found
      split at found
      next same =>
        obtain ⟨node, known, rfl⟩ := Option.map_eq_some_iff.mp found
        simp only [List.getElem?_modify] at listed
        split at listed
        next position =>
          obtain ⟨feature, listed, rfl⟩ := Option.map_eq_some_iff.mp listed
          exact .inr ⟨same.symm, by rw [position],
            (Option.some.inj linked).symm⟩
        · exact .inl (.feature known (by simpa using listed) linked)
      · exact .inl (.feature found listed linked)

end SchemaTree

namespace LinkUnit

variable {tree : SchemaTree} {item : Reference} {id : NodeId}
  {kind : ReferenceKind} {target : NodeRef}

/-- Binding a reference links its own place to the target. -/
theorem links_bindTarget {bound : NodeRef}
    (linked : (bindTarget tree item bound).Links id kind target) :
    tree.Links id kind target ∨ item.origin = none ∧ id = item.place ∧
      kind = item.kind ∧ target = bound := by
  unfold bindTarget at linked
  split at linked
  · exact .inl linked
  next own =>
    have own : item.origin = none := by simpa using own
    have setsConstruct {change : Construct → Construct}
        (place : item.place = item.consumer)
        (sets : ∀ construct, change construct = construct ∨
          (change construct).targetKind? = some item.kind ∧
            (change construct).target? = some bound)
        (types : ∀ construct, (change construct).typeAt? = construct.typeAt?)
        (linked : (tree.modifyConstruct item.consumer change).Links id kind
          target) :
        tree.Links id kind target ∨ item.origin = none ∧ id = item.place ∧
          kind = item.kind ∧ target = bound := by
      obtain old | ⟨rfl, construct, found, linked⟩ :=
        SchemaTree.links_modifyConstruct linked
      · exact .inl old
      obtain ⟨ofKind, linked⟩ | ⟨member, use, declared, linked⟩ := linked
      · obtain same | ⟨ofKind', linked'⟩ := sets construct
        · rw [same] at ofKind linked
          exact .inl (.construct found ofKind linked)
        · exact .inr ⟨own, place.symm,
            Option.some.inj (ofKind.symm.trans ofKind'),
            Option.some.inj (linked.symm.trans linked')⟩
      · rw [types] at declared
        refine .inl (.type ?_ linked)
        rw [SchemaTree.typeAt?_eq]
        exact Option.bind_eq_some_iff.mpr ⟨construct, found, declared⟩
    cases ofKind : item.kind with
    | uses | augment | base =>
        rw [ofKind] at linked
        rw [← ofKind]
        refine setsConstruct (by simp [Reference.place, ofKind])
          (fun construct => ?_) (fun construct => ?_) linked
        · cases construct <;>
            simp [ofKind, Construct.targetKind?, Construct.target?]
        · cases construct <;> rfl
    | ifFeature index =>
        rw [ofKind] at linked
        obtain old | new := SchemaTree.links_modifyFeature linked
        · exact .inl old
        · exact .inr (by simpa [own, Reference.place, ofKind] using new)
    | identityref slot | leafref slot =>
        rw [ofKind] at linked
        obtain old | ⟨rfl, use, declared, linked⟩ :=
          SchemaTree.links_modifyLinks linked
        · exact .inl old
        have old (linked : use.links.LeadTo slot kind target) :
            tree.Links slot.node kind target := .type declared linked
        cases linked <;>
          simp_all [Reference.place, TypeLinks.LeadTo.typedef,
            TypeLinks.LeadTo.identity, TypeLinks.LeadTo.leafref]
    | derivedType slot =>
        rw [ofKind] at linked
        exact .inl linked

/-- Binding a derivation links the type at its slot to the typedef, and to the
identity if there is one. -/
theorem links_bindDerivation {slot : TypeSlot} {derivation : Derivation}
    (linked : (bindDerivation tree item slot derivation).Links id kind target) :
    tree.Links id kind target ∨ item.origin = none ∧ id = slot.node ∧
      (kind = .derivedType slot ∧ target = derivation.typedef ∨
        kind = .identityref slot ∧ derivation.identity = some target) := by
  unfold bindDerivation at linked
  split at linked
  · exact .inl linked
  next own =>
    have own : item.origin = none := by simpa using own
    obtain old | ⟨rfl, use, declared, linked⟩ :=
      SchemaTree.links_modifyLinks linked
    · exact .inl old
    cases linked with
    | typedef linked => exact .inr ⟨own, rfl, .inl ⟨rfl, by simp_all⟩⟩
    | identity linked => exact .inr ⟨own, rfl, .inr ⟨rfl, linked⟩⟩
    | leafref linked => exact .inl (.type declared (.leafref linked))

end LinkUnit

end YangSchema
