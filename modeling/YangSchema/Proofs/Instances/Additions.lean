import YangSchema.Proofs.Instances.Contents

/-!
# Additions in sight

From an instance the search has just the instances in it in sight if it sees
augments just where they have been placed.
-/

namespace YangSchema

namespace Scene

section

variable (scene : Scene)

/-- The augments of the `uses` on the way to a spot from the instance around. -/
def overlayAt : Spot → List (NodeRef × NodeRef)
  | .root _ | .part _ _ => []
  | .child place id =>
      if scene.isTransparent (Spot.child place id).ref then overlayAt place
      else []
  | .copy place id _ =>
      overlayAt place ++ scene.usesAugments ⟨place.ref.source, id⟩
  | .addition target _ _ => overlayAt target

/-- Inside an instance augments are seen just where they have been placed. -/
def ShowsAdditions (stand : Spot) : Prop :=
  ∀ {spot : Spot}, scene.Placed spot → scene.host spot = stand → ∀ augment,
    (∃ uses, scene.Placed (.addition spot augment uses)) ↔
      augment ∈ augmentsOf spot.ref (scene.augments ++ scene.overlayAt spot)

end

variable {scene : Scene} {stand spot : Spot}
  {overlay : List (NodeRef × NodeRef)}

theorem length_trail_host_le (spot : Spot) :
    (scene.host spot).trail.length ≤ spot.trail.length := by
  induction spot with
  | root => exact Nat.le_refl _
  | child place id ih =>
      rw [host]
      split
      · exact Nat.le_succ_of_le ih
      · exact Nat.le_refl _
  | part place _ ih => exact Nat.le_succ_of_le ih
  | copy place _ _ ih => exact Nat.le_succ_of_le ih
  | addition place _ _ ih => exact Nat.le_succ_of_le ih

theorem overlayAt_of_isInstance (isInstance : scene.host spot = spot) :
    scene.overlayAt spot = [] := by
  have deeper (place : Spot) (above : scene.host place = spot) :
      spot.trail.length ≠ place.trail.length + 1 := by
    have shorter := scene.length_trail_host_le place
    rw [above] at shorter
    omega
  cases spot with
  | root => rfl
  | part => rfl
  | child place id =>
      rw [overlayAt]
      split
      next transparent =>
        rw [host, if_pos transparent] at isInstance
        exact absurd rfl (deeper place isInstance)
      · rfl
  | copy place _ _ => exact absurd rfl (deeper place isInstance)
  | addition place _ _ => exact absurd rfl (deeper place isInstance)

theorem Placed.of_transparent {place : Spot} {id : NodeId}
    (placed : scene.Placed place)
    (inside : (Spot.child place id).ref ∈ scene.children place.ref)
    (transparent : scene.isTransparent (Spot.child place id).ref = true) :
    scene.Placed (.child place id) := by
  rcases isTransparent_iff.mp transparent with ⟨body, is⟩ | is
  · have isKind := scene.kind?_eq (Spot.child place id).ref
    rw [is] at isKind
    exact .child placed inside isKind rfl
  · have isKind := scene.kind?_eq (Spot.child place id).ref
    rw [is] at isKind
    exact .child placed inside isKind rfl

theorem host_host (spot : Spot) :
    scene.host (scene.host spot) = scene.host spot := by
  induction spot with
  | root => rfl
  | child place id ih =>
      by_cases transparent :
          scene.isTransparent (Spot.child place id).ref = true
      · simpa [host, transparent] using ih
      · simp [host, transparent]
  | part place _ ih => exact ih
  | copy place _ _ ih => exact ih
  | addition place _ _ ih => exact ih

section

variable (additions : scene.ShowsAdditions stand)
include additions

/-- A spot inside an instance is in sight. -/
theorem Placed.seen (placed : scene.Placed spot)
    (inside : scene.host spot = stand) :
    scene.Sees stand spot (scene.overlayAt spot) := by
  have isInstance : scene.host stand = stand := inside ▸ host_host spot
  induction placed with
  | root => exact inside ▸ .here
  | @part module submodule header whole declared included usable =>
      subst inside
      refine .part ?_
      simp only [host, sharedRoots, Spot.ref, declared, if_true]
      exact List.mem_map.mpr
        ⟨submodule, List.mem_filter.mpr ⟨included, usable⟩, rfl⟩
  | @child place id kind placed entered isKind step ih =>
      by_cases transparent :
          scene.isTransparent (Spot.child place id).ref = true
      · rw [host, if_pos transparent] at inside
        rw [overlayAt, if_pos transparent]
        exact .through (ih inside) entered transparent
      · rw [host, if_neg transparent] at inside
        rw [overlayAt, if_neg transparent, inside]
        exact .here
  | copy placed entered isUses target ih =>
      exact .copy (ih inside) entered isUses target
  | addition placed top isAugment target parsed absolute names selects ih =>
      exact .addition (ih inside) <| (additions placed inside _).mp
        ⟨_, .addition placed top isAugment target parsed absolute names selects⟩
  | usesAddition copied placed under isAugment target parsed descends selects
      _ ih =>
      exact .addition (ih inside) <| (additions placed inside _).mp
        ⟨_, .usesAddition copied placed under isAugment target parsed descends
          selects⟩

/-- What is in sight from an instance has been placed, up to the `uses` of the
augments on the way. -/
theorem Sees.placed (placed : scene.Placed stand)
    (isInstance : scene.host stand = stand)
    (parts : ∀ submodule,
      ⟨submodule, rootId⟩ ∈ scene.sharedRoots stand.ref →
        scene.Placed (.part stand submodule))
    (seen : scene.Sees stand spot overlay) :
    ∃ spot', scene.Placed spot' ∧ scene.host spot' = stand ∧
      spot'.trail = spot.trail ∧ scene.overlayAt spot' = overlay := by
  induction seen with
  | here =>
      exact ⟨stand, placed, isInstance, rfl, overlayAt_of_isInstance isInstance⟩
  | @part submodule shared =>
      rw [isInstance]
      exact ⟨.part stand submodule, parts submodule shared, isInstance, rfl, rfl⟩
  | @through place id overlay seen inside transparent ih =>
      obtain ⟨spot', placed, within_, trail, rfl⟩ := ih
      have same := ref_eq_of_trail trail
      have isChild : (Spot.child spot' id).ref = (Spot.child place id).ref := by
        rw [Spot.ref, same]
        rfl
      have transparent' := isChild ▸ transparent
      refine ⟨.child spot' id, ?_, ?_, ?_, ?_⟩
      · exact placed.of_transparent (isChild ▸ same ▸ inside) transparent'
      · rw [host, if_pos transparent', within_]
      · rw [Spot.trail, Spot.trail, isChild, trail]
      · rw [overlayAt, if_pos transparent']
  | @copy place id body grouping overlay seen inside isUses target ih =>
      obtain ⟨spot', placed, within_, trail, rfl⟩ := ih
      have same := ref_eq_of_trail trail
      refine ⟨.copy spot' id grouping, ?_, within_, ?_, ?_⟩
      · exact .copy placed (same ▸ inside) (same ▸ isUses) target
      · rw [Spot.trail, Spot.trail, trail]
        rfl
      · rw [overlayAt, same]
  | @addition place augment uses overlay seen active ih =>
      obtain ⟨spot', placed, within_, trail, rfl⟩ := ih
      have same := ref_eq_of_trail trail
      obtain ⟨uses', added⟩ :=
        (additions placed within_ augment).mpr (same ▸ active)
      refine ⟨.addition spot' augment uses', added, within_, ?_, rfl⟩
      rw [Spot.trail, Spot.trail, trail]
      rfl

/-- Where augments are seen just where they have been placed, nothing in sight
belongs anywhere else. -/
theorem ShowsAdditions.showsOnly (placed : scene.Placed stand)
    (isInstance : scene.host stand = stand)
    (parts : ∀ submodule,
      ⟨submodule, rootId⟩ ∈ scene.sharedRoots stand.ref →
        scene.Placed (.part stand submodule)) (name : String) :
    scene.ShowsOnly stand name := by
  intro spot overlay node seen _ _
  obtain ⟨spot', found, inside, trail, -⟩ :=
    seen.placed additions placed isInstance parts
  exact ⟨spot', found, inside.trans isInstance.symm, trail⟩

/-- Where augments are seen just where they have been placed, every instance is
in sight. -/
theorem ShowsAdditions.hasInSight {inner : Spot}
    (contains : scene.Contains stand inner) : scene.HasInSight stand inner := by
  obtain ⟨place, id, rfl, placed, -, inside⟩ := id contains
  cases placed with
  | child placed =>
      exact ⟨place, _, placed.seen additions inside, contains.offers⟩

end

end Scene

end YangSchema
