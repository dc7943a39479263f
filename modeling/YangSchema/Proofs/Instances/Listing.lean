import YangSchema.Proofs.Instances.Additions
import YangSchema.Proofs.Instances.Deciding

/-!
# Listing the tree of instances

The spots next to a spot can be computed, so a list of spots that has the top
levels of all units and is closed under this has all the spots that there are.
Properties of the whole tree can be checked on such a list.
-/

namespace YangSchema

/-- The chain of `uses` in which a copy has been made. -/
def Spot.usesAround? : Spot → Option (List NodeRef)
  | copy place _ _ => some place.uses
  | _ => none

/-- The chains of `uses` around the copies that a spot lies in, and the empty
one. -/
def Spot.chains (spot : Spot) : List (List NodeRef) :=
  [] :: spot.enclosing.filterMap usesAround?

namespace Scene

section

variable (scene : Scene)

/-- What included submodules add to a spot. -/
def partsOf (spot : Spot) : List Spot :=
  match spot, (scene.tree? spot.ref.source).bind (·.header?) with
  | .root _, some header =>
      (header.includes.filterMap (·.resolved)).map (.part spot)
  | _, _ => []

/-- What a node inside a spot adds to it. -/
def spotsOf (spot : Spot) (ref : NodeRef) : List Spot :=
  (scene.usesTarget? ref).toList.map (.copy spot ref.node) ++
    if (scene.kind? ref).any isStep then [.child spot ref.node] else []

/-- The augments that are bound to a node. -/
def augmentsBoundTo (target : NodeRef) : List NodeRef :=
  scene.nodeRefs.filter fun augment =>
    (scene.augmentTarget? augment).any (·.1 == target)

/-- Spots that can be next to a spot. -/
def successors (spot : Spot) : List Spot :=
  scene.partsOf spot ++
    (scene.children spot.ref).flatMap (scene.spotsOf spot) ++
    (scene.augmentsBoundTo spot.ref).flatMap fun augment =>
      spot.chains.map (.addition spot augment)

/-- A list that has all the spots of the tree of instances. -/
structure IsListing (spots : List Spot) : Prop where
  roots : ∀ unit ∈ scene.units, .root unit.source ∈ spots
  closed : ∀ spot ∈ spots, ∀ next ∈ scene.successors spot, next ∈ spots

instance (spots : List Spot) : Decidable (scene.IsListing spots) :=
  decidable_of_iff
    ((∀ unit ∈ scene.units, .root unit.source ∈ spots) ∧
      ∀ spot ∈ spots, ∀ next ∈ scene.successors spot, next ∈ spots)
    ⟨fun checked => ⟨checked.1, checked.2⟩,
      fun listing => ⟨listing.roots, listing.closed⟩⟩

/-- An addition inside an instance is seen there. -/
def IsSeenIn (stand : Spot) : Spot → Prop
  | .addition target augment _ =>
      scene.host target = stand → augment ∈
        augmentsOf target.ref (scene.augments ++ scene.overlayAt target)
  | _ => True

instance (stand spot : Spot) : Decidable (scene.IsSeenIn stand spot) :=
  match spot with
  | .addition target augment _ =>
      inferInstanceAs (Decidable (scene.host target = stand → augment ∈
        augmentsOf target.ref (scene.augments ++ scene.overlayAt target)))
  | .root _ | .part _ _ | .child _ _ | .copy _ _ _ =>
      inferInstanceAs (Decidable True)

/-- Inside an instance the augments that are seen are those among some spots. -/
def ShowsListed (stand : Spot) (spots : List Spot) : Prop :=
  (∀ spot ∈ spots, scene.IsSeenIn stand spot) ∧
    ∀ spot ∈ spots, scene.host spot = stand → ∀ augment ∈
      augmentsOf spot.ref (scene.augments ++ scene.overlayAt spot),
        ∃ uses ∈ spot.chains, scene.Placed (.addition spot augment uses)

instance (stand : Spot) (spots : List Spot) :
    Decidable (scene.ShowsListed stand spots) := by
  unfold ShowsListed
  infer_instance

/-- Some spots have different names if they lie side by side. -/
def HasDistinctKeys (spots : List Spot) : Prop :=
  ∀ first ∈ spots, ∀ second ∈ spots, scene.siblingKey? first ≠ none →
    scene.siblingKey? first = scene.siblingKey? second → first = second

instance (spots : List Spot) : Decidable (scene.HasDistinctKeys spots) := by
  unfold HasDistinctKeys
  infer_instance

end

variable {scene : Scene} {spots : List Spot} {spot outer : Spot}

/-- A listing lists every spot. -/
theorem IsListing.mem (listing : scene.IsListing spots)
    (placed : scene.Placed spot) : spot ∈ spots := by
  have added {target : Spot} {augment : NodeRef} {uses : List NodeRef}
      (placed : scene.Placed (.addition target augment uses))
      (listed : target ∈ spots) : Spot.addition target augment uses ∈ spots := by
    obtain ⟨-, -, ⟨_, path⟩, declared, rfl, start, around, adds⟩ :=
      placed_addition_iff.mp placed
    have inChains : uses ∈ target.chains := by
      cases start with
      | root =>
          obtain ⟨-, rfl, -⟩ := adds
          exact List.mem_cons_self
      | copy =>
          obtain ⟨-, rfl, -⟩ := adds
          exact List.mem_cons_of_mem _
            (List.mem_filterMap.mpr ⟨_, around, rfl⟩)
      | part => exact adds.elim
      | child => exact adds.elim
      | addition => exact adds.elim
    have isBound : augment ∈ scene.augmentsBoundTo target.ref := by
      obtain ⟨body, isAugment, -⟩ := augmentTarget?_eq_some_iff.mp declared
      obtain ⟨found, known, -⟩ := Option.map_eq_some_iff.mp isAugment
      have declared : scene.augmentTarget? augment = some (target.ref, path) :=
        declared
      exact List.mem_filter.mpr
        ⟨mem_nodeRefs_of_node? known, by simp [declared]⟩
    refine listing.closed _ listed _ ?_
    simp only [successors, List.mem_append, List.mem_flatMap]
    exact .inr ⟨augment, isBound, List.mem_map_of_mem inChains⟩
  have whole := placed
  induction placed with
  | @root module isModule =>
      obtain ⟨node, known, -⟩ := Option.map_eq_some_iff.mp isModule
      obtain ⟨tree, isTree, -⟩ := Option.bind_eq_some_iff.mp known
      obtain ⟨unit, member, -, rfl⟩ := tree?_mem isTree
      exact listing.roots unit member
  | part placed declared included _ _ ih =>
      refine listing.closed _ (ih placed) _ ?_
      simp only [successors, partsOf, Spot.ref, declared, List.mem_append]
      exact .inl (.inl (List.mem_map_of_mem included))
  | @child place id kind placed inside isKind step ih =>
      refine listing.closed _ (ih placed) _ ?_
      simp only [successors, List.mem_append, List.mem_flatMap]
      refine .inl (.inr ⟨_, inside, List.mem_append_right _ ?_⟩)
      rw [isKind, Option.any_some, if_pos step]
      exact List.mem_singleton_self _
  | @copy place id body grouping placed inside isUses target ih =>
      refine listing.closed _ (ih placed) _ ?_
      simp only [successors, List.mem_append, List.mem_flatMap]
      refine .inl (.inr ⟨_, inside, List.mem_append_left _ ?_⟩)
      rw [usesTarget?_eq_some_iff.mpr ⟨body, isUses, target⟩]
      exact List.mem_singleton_self _
  | addition placed _ _ _ _ _ _ _ ih => exact added whole (ih placed)
  | usesAddition _ placed _ _ _ _ _ _ _ ih => exact added whole (ih placed)

theorem IsListing.hasDistinctSiblings (listing : scene.IsListing spots)
    (distinct : scene.HasDistinctKeys spots) : scene.HasDistinctSiblings := by
  intro outer inner inner' contains contains' same
  refine distinct inner (listing.mem contains.placed) inner'
    (listing.mem contains'.placed) ?_ ?_
  · simp [contains.siblingKey?]
  · rw [contains.siblingKey?, contains'.siblingKey?, same]

theorem IsListing.showsAdditions {stand : Spot}
    (listing : scene.IsListing spots)
    (shows : scene.ShowsListed stand spots) : scene.ShowsAdditions stand := by
  intro spot placed inside augment
  constructor
  · rintro ⟨uses, placed'⟩
    exact shows.1 _ (listing.mem placed') inside
  · intro active
    obtain ⟨uses, -, added⟩ :=
      shows.2 spot (listing.mem placed) inside augment active
    exact ⟨uses, added⟩

end Scene

end YangSchema
