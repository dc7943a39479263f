import YangSchema.Linking.Settling
import YangSchema.Proofs.Linking.Derivations
import YangSchema.Proofs.Linking.Links

/-!
# What binding a reference fills

Writing a target down fills the gap that the reference was made for and opens
none.  Writing a derivation down fills the gap of its type; if the type turns
out to be a leafref then there is a gap for its target from now on.
-/

namespace YangSchema

/-- The type that a reference of a kind is about. -/
def ReferenceKind.slot? : ReferenceKind → Option TypeSlot
  | .derivedType slot | .identityref slot | .leafref slot => some slot
  | .uses | .base | .ifFeature _ | .augment => none

theorem TypeUse.HasGap.slot?_eq {use : TypeUse} {slot : TypeSlot}
    {inGrouping : Prop} {kind : ReferenceKind}
    (gap : use.HasGap slot inGrouping kind) : kind.slot? = some slot := by
  cases gap <;> rfl

theorem Construct.slot?_of_missingTarget? {construct : Construct}
    {kind : ReferenceKind} (missing : construct.missingTarget? = some kind) :
    kind.slot? = none ∧ ∀ index, kind ≠ .ifFeature index := by
  unfold missingTarget? at missing
  split at missing
  all_goals
    try split at missing
    all_goals simp at missing
    try subst missing
    try exact ⟨rfl, by simp⟩

/-- Changes the type of a construct, or a member if it is a union. -/
def Construct.mapTypeAt (change : TypeUse → TypeUse) (member : Option Nat)
    (construct : Construct) : Construct :=
  match member, construct with
  | none, construct => construct.mapType change
  | some index, .union members => .union (members.modify index change)
  | some _, construct => construct

namespace Construct

variable (change : TypeUse → TypeUse) (member : Option Nat)
  (construct : Construct)

@[simp]
theorem kind_mapTypeAt : (construct.mapTypeAt change member).kind =
    construct.kind := by
  cases member <;> cases construct <;> rfl

@[simp]
theorem header?_mapTypeAt : (construct.mapTypeAt change member).header? =
    construct.header? := by
  cases member <;> cases construct <;> rfl

@[simp]
theorem missingTarget?_mapTypeAt :
    (construct.mapTypeAt change member).missingTarget? =
      construct.missingTarget? := by
  cases member <;> cases construct <;> rfl

theorem typeAt?_mapTypeAt (other : Option Nat) :
    (construct.mapTypeAt change member).typeAt? other =
      if other = member then (construct.typeAt? other).map change
      else construct.typeAt? other := by
  cases member <;> cases other <;> cases construct <;>
    simp [mapTypeAt, mapType, typeAt?, type?, List.getElem?_modify, eq_comm]
  split <;> simp_all

end Construct

namespace SchemaTree

variable {tree : SchemaTree} {id : NodeId} {kind : ReferenceKind}
  {slot : TypeSlot}

theorem HasGap.type (gap : tree.HasGap id kind)
    (about : kind.slot? = some slot) :
    id = slot.node ∧ ∃ use, tree.typeAt? slot = some use ∧
      use.HasGap slot (tree.IsInGrouping id) kind := by
  cases gap with
  | construct found gap =>
      cases gap with
      | target missing =>
          simp [(Construct.slot?_of_missingTarget? missing).1] at about
      | type declared outside gap =>
          obtain rfl := Option.some.inj (gap.slot?_eq.symm.trans about)
          exact ⟨rfl, _, typeAt?_eq_some_iff.mpr ⟨_, found, declared⟩, gap⟩
  | metadata found gap =>
      cases gap
      simp [ReferenceKind.slot?] at about

theorem HasGap.target (gap : tree.HasGap id kind) (about : kind.slot? = none)
    (other : ∀ index, kind ≠ .ifFeature index) :
    ∃ construct, tree.construct? id = some construct ∧
      construct.missingTarget? = some kind := by
  cases gap with
  | construct found gap =>
      cases gap with
      | target missing =>
          exact ⟨_, construct?_eq_some_iff.mpr ⟨_, found, rfl⟩, missing⟩
      | type declared outside gap => simp [gap.slot?_eq] at about
  | metadata found gap =>
      cases gap
      simp at other

theorem HasGap.ifFeature {index : Nat}
    (gap : tree.HasGap id (.ifFeature index)) :
    ∃ node, tree.node? id = some node ∧
      ∃ feature, node.metadata.ifFeatures[index]? = some feature ∧
        feature.target = none := by
  cases gap with
  | construct found gap =>
      cases gap with
      | target missing =>
          exact absurd rfl
            ((Construct.slot?_of_missingTarget? missing).2 index)
      | type declared outside gap => cases gap
  | metadata found gap =>
      cases gap with
      | ifFeature listed missing => exact ⟨_, found, _, listed, missing⟩

/-- Setting the links of a type. -/
def relink (change : TypeLinks → TypeLinks) (use : TypeUse) : TypeUse :=
  { use with links := change use.links }

theorem modifyLinks_eq (tree : SchemaTree) (slot : TypeSlot)
    (change : TypeLinks → TypeLinks) :
    tree.modifyLinks slot change =
      tree.modifyConstruct slot.node
        (Construct.mapTypeAt (relink change) slot.member) := by
  unfold modifyLinks
  dsimp only
  congr
  funext construct
  cases slot.member <;> cases construct <;> rfl

theorem sameText_modifyLinks (tree : SchemaTree) (slot : TypeSlot)
    (change : TypeLinks → TypeLinks) :
    tree.SameText (tree.modifyLinks slot change) := by
  rw [modifyLinks_eq]
  refine .modifyConstruct (by simp) (by simp) fun construct member => ?_
  rw [Construct.typeAt?_mapTypeAt]
  split
  · cases construct.typeAt? member <;> rfl
  · rfl

theorem typeAt?_modifyLinks (tree : SchemaTree) (slot : TypeSlot)
    (change : TypeLinks → TypeLinks) (other : TypeSlot) :
    (tree.modifyLinks slot change).typeAt? other =
      if other = slot then (tree.typeAt? other).map (relink change)
      else tree.typeAt? other := by
  rw [modifyLinks_eq, typeAt?_eq, typeAt?_eq, construct?, construct?,
    node?_modifyConstruct]
  by_cases place : slot.node = other.node
  · have same : other.member = slot.member ↔ other = slot := by
      cases other
      cases slot
      simp_all
    rw [if_pos place]
    cases tree.node? other.node <;> simp [Construct.typeAt?_mapTypeAt, same]
  · have another : other ≠ slot := fun same => place (same ▸ rfl)
    rw [if_neg place, if_neg another]

/-- Changed links leave a gap only in the type that has them. -/
theorem hasGap_modifyLinks {change : TypeLinks → TypeLinks}
    (gap : (tree.modifyLinks slot change).HasGap id kind) :
    tree.HasGap id kind ∨ id = slot.node ∧
      ∃ use, tree.typeAt? slot = some use ∧ ¬ tree.IsTemplate id ∧
        (relink change use).HasGap slot (tree.IsInGrouping id) kind := by
  have keeps := (sameText_modifyLinks tree slot change).keeps
  rw [modifyLinks_eq] at gap keeps
  obtain old | ⟨rfl, construct, found, gap⟩ :=
    hasGap_modifyConstruct (by simp) gap
  · exact .inl old
  obtain ⟨node, known, rfl⟩ := construct?_eq_some_iff.mp found
  have gap := gap.mono (keeps.isTemplate known) (keeps.isInGrouping known)
  cases gap with
  | target missing =>
      exact .inl (.construct known (.target (by simpa using missing)))
  | type declared outside gap =>
      rw [Construct.typeAt?_mapTypeAt] at declared
      split at declared
      next same =>
        subst same
        obtain ⟨use, written, rfl⟩ := Option.map_eq_some_iff.mp declared
        exact .inr ⟨rfl, use,
          typeAt?_eq_some_iff.mpr ⟨node, known, written⟩, outside, gap⟩
      · exact .inl (.construct known (.type declared outside gap))

/-- A reference has been bound: there is no gap for it any more, and none that
was not there before. -/
structure Fills (before after : SchemaTree) (kind : ReferenceKind)
    (id : NodeId) : Prop where
  text : before.SameText after
  old : ∀ {place other}, after.HasGap place other → before.HasGap place other
  filled : ¬ after.HasGap id kind

end SchemaTree

/-- A change that sets the target of one kind of construct. -/
structure Construct.Fills (change : Construct → Construct)
    (kind : ReferenceKind) : Prop where
  sameKind : ∀ construct, (change construct).kind = construct.kind
  header : ∀ construct, (change construct).header? = construct.header?
  types : ∀ construct, (change construct).typeAt? = construct.typeAt?
  missing : ∀ construct other,
    (change construct).missingTarget? = some other →
      construct.missingTarget? = some other ∧ other ≠ kind

namespace SchemaTree

variable {tree : SchemaTree} {id : NodeId} {kind : ReferenceKind}
  {slot : TypeSlot}

theorem modifyConstruct_fills {change : Construct → Construct}
    (about : kind.slot? = none) (other : ∀ index, kind ≠ .ifFeature index)
    (fills : Construct.Fills change kind) :
    tree.Fills (tree.modifyConstruct id change) kind id := by
  have text : tree.SameText (tree.modifyConstruct id change) :=
    .modifyConstruct fills.sameKind fills.header (by simp [fills.types])
  refine ⟨text, fun gap => ?_, fun gap => ?_⟩
  · obtain old | ⟨rfl, construct, found, gap⟩ :=
      hasGap_modifyConstruct (fun construct _ => fills.sameKind construct) gap
    · exact old
    obtain ⟨node, known, rfl⟩ := construct?_eq_some_iff.mp found
    have gap := gap.mono (text.keeps.isTemplate known)
      (text.keeps.isInGrouping known)
    refine .construct known ?_
    cases gap with
    | target missing => exact .target (fills.missing _ _ missing).1
    | type declared outside gap =>
        exact .type (fills.types _ ▸ declared) outside gap
  · obtain ⟨construct, found, missing⟩ := gap.target about other
    rw [construct?, node?_modifyConstruct, if_pos rfl, Option.map_map] at found
    obtain ⟨node, _, rfl⟩ := Option.map_eq_some_iff.mp found
    exact (fills.missing _ _ missing).2 rfl

theorem modifyLinks_fills {change : TypeLinks → TypeLinks}
    (about : kind.slot? = some slot)
    (fills : ∀ use inGrouping other,
      (relink change use).HasGap slot inGrouping other →
        use.HasGap slot inGrouping other ∧ other ≠ kind) :
    tree.Fills (tree.modifyLinks slot change) kind slot.node := by
  refine ⟨sameText_modifyLinks tree slot change, fun gap => ?_, fun gap => ?_⟩
  · obtain old | ⟨rfl, use, declared, outside, gap⟩ := hasGap_modifyLinks gap
    · exact old
    obtain ⟨node, known, declared⟩ := typeAt?_eq_some_iff.mp declared
    exact .construct known (.type declared outside (fills _ _ _ gap).1)
  · obtain ⟨-, use, declared, gap⟩ := gap.type about
    rw [typeAt?_modifyLinks, if_pos rfl] at declared
    obtain ⟨use, _, rfl⟩ := Option.map_eq_some_iff.mp declared
    exact (fills _ _ _ gap).2 rfl

theorem modifyFeature_fills (index : Nat) (target : NodeRef) :
    tree.Fills
      (tree.modifyMetadata id fun metadata =>
        { metadata with
          ifFeatures := metadata.ifFeatures.modify index fun feature =>
            { feature with target := some target } })
      (.ifFeature index) id := by
  refine ⟨.modifyMetadata tree id _, fun gap => ?_, fun gap => ?_⟩
  · obtain old | ⟨rfl, node, known, gap⟩ := hasGap_modifyMetadata gap
    · exact old
    obtain ⟨listed, missing⟩ := gap
    simp only [List.getElem?_modify] at listed
    split at listed
    · obtain ⟨feature, listed, rfl⟩ := Option.map_eq_some_iff.mp listed
      simp at missing
    · exact .metadata known (.ifFeature (by simpa using listed) missing)
  · obtain ⟨node, found, feature, listed, missing⟩ := gap.ifFeature
    rw [node?_modifyMetadata, if_pos rfl] at found
    obtain ⟨node, _, rfl⟩ := Option.map_eq_some_iff.mp found
    simp only [List.getElem?_modify, if_true] at listed
    obtain ⟨feature, _, rfl⟩ := Option.map_eq_some_iff.mp listed
    simp at missing

end SchemaTree

namespace LinkUnit

variable {tree : SchemaTree} {item : Reference}

/-- Binding an own reference of the tree fills its gap. -/
theorem bindTarget_fills (target : NodeRef) (own : item.origin = none)
    (direct : ∀ slot, item.kind ≠ .derivedType slot) :
    tree.Fills (bindTarget tree item target) item.kind item.place := by
  simp only [bindTarget, Reference.place, own, Option.isSome_none,
    Bool.false_eq_true, if_false]
  cases kind : item.kind with
  | derivedType slot => exact absurd kind (direct slot)
  | ifFeature index => exact SchemaTree.modifyFeature_fills index target
  | identityref slot =>
      apply SchemaTree.modifyLinks_fills rfl
      intro use inGrouping other gap
      cases gap with
      | typedef derived missing => exact ⟨.typedef derived missing, by simp⟩
      | identity based missing => simp [SchemaTree.relink] at missing
      | leafref refers outside missing =>
          exact ⟨.leafref refers outside missing, by simp⟩
  | leafref slot =>
      apply SchemaTree.modifyLinks_fills rfl
      intro use inGrouping other gap
      cases gap with
      | typedef derived missing => exact ⟨.typedef derived missing, by simp⟩
      | identity based missing => exact ⟨.identity based missing, by simp⟩
      | leafref refers outside missing => simp [SchemaTree.relink] at missing
  | _ =>
      apply SchemaTree.modifyConstruct_fills rfl (by simp)
      constructor
      · intro construct
        cases construct <;> rfl
      · intro construct
        cases construct <;> rfl
      · intro construct
        cases construct <;> rfl
      · intro construct other missing
        cases construct <;> grind [Construct.missingTarget?]

theorem sameText_bindTarget (tree : SchemaTree) (item : Reference)
    (target : NodeRef) : tree.SameText (bindTarget tree item target) := by
  cases own : item.origin with
  | none =>
      by_cases direct : ∀ slot, item.kind ≠ .derivedType slot
      · exact (bindTarget_fills target own direct).text
      · obtain ⟨slot, kind⟩ := not_forall_not.mp direct
        simp only [bindTarget, own, kind, Option.isSome_none,
          Bool.false_eq_true, if_false]
        exact .refl tree
  | some origin =>
      simp only [bindTarget, own, Option.isSome_some, if_true]
      exact .refl tree

theorem sameText_bindDerivation (tree : SchemaTree) (item : Reference)
    (slot : TypeSlot) (derivation : Derivation) :
    tree.SameText (bindDerivation tree item slot derivation) := by
  unfold bindDerivation
  split
  · exact .refl tree
  · exact SchemaTree.sameText_modifyLinks tree slot _

/-- A complete derivation leaves nothing open but the target of a leafref. -/
theorem hasGap_bindDerivation {slot : TypeSlot} {derivation : Derivation}
    {id : NodeId} {kind : ReferenceKind} (own : item.origin = none)
    (complete : derivation.IsComplete)
    (derived : ∀ use, tree.typeAt? slot = some use → use.builtin = none)
    (gap : (bindDerivation tree item slot derivation).HasGap id kind) :
    kind ≠ .derivedType slot ∧ (tree.HasGap id kind ∨
      id = slot.node ∧ kind = .leafref slot ∧ derivation.leafref.isSome ∧
        ¬ (bindDerivation tree item slot derivation).IsInGrouping id) := by
  have text := sameText_bindDerivation tree item slot derivation
  simp only [bindDerivation, own, Option.isSome_none, Bool.false_eq_true,
    if_false] at gap
  constructor
  · rintro rfl
    obtain ⟨-, use, declared, gap⟩ := gap.type rfl
    rw [SchemaTree.typeAt?_modifyLinks, if_pos rfl] at declared
    obtain ⟨use, _, rfl⟩ := Option.map_eq_some_iff.mp declared
    cases gap with
    | typedef derived missing => simp [SchemaTree.relink] at missing
  · obtain old | ⟨rfl, use, declared, outside, gap⟩ :=
      SchemaTree.hasGap_modifyLinks gap
    · exact .inl old
    have effective : (SchemaTree.relink (fun links =>
        { links with
          typedef := some derivation.typedef
          effective := some derivation.effective
          identity := derivation.identity }) use).effectiveBuiltin? =
        some derivation.effective.builtin := by
      simp [TypeUse.effectiveBuiltin?, SchemaTree.relink, derived use declared]
    cases gap with
    | typedef derived missing => simp [SchemaTree.relink] at missing
    | identity based missing =>
        rw [effective] at based
        have found := complete.identity (Option.some.inj based)
        simp_all [SchemaTree.relink]
    | leafref refers outside missing =>
        rw [effective] at refers
        exact .inr ⟨rfl, rfl, complete.leafref (Option.some.inj refers),
          fun inside => outside (text.isInGrouping inside)⟩

end LinkUnit

end YangSchema
