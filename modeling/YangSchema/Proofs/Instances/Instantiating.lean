import YangSchema.Proofs.Instances.Deciding
import YangSchema.Proofs.Linking.Carrying
import YangSchema.Proofs.Linking.Fixpoint

/-!
# The leafrefs that a `uses` instantiates

A `uses` outside of groupings instantiates the leaves of its grouping:  those that
stand below it and those of the groupings that are used there, unless such a
grouping is being expanded already.  What an augment under a `uses` adds is not
among them.  Each relative path that such a leaf carries becomes a reference of its
own.
-/

namespace YangSchema

/-- The kinds of nodes below which a grouping is not searched as it stands. -/
def ConstructKind.endsSearch : ConstructKind → Bool
  | .uses | .leaf | .leafList | .grouping | .typedef | .augment => true
  | _ => false

namespace Scene

variable {scene before after : Scene}

/-- A leaf stands below a place, perhaps in groupings that are used there.  The
chain of `uses` has the innermost one first;  no grouping is expanded inside
itself. -/
inductive Instantiates (scene : Scene) :
    NodeRef → List NodeRef → List NodeRef → NodeRef → List NodeRef → Prop
  | leaf {place leaf : NodeRef} {chain expanding : List NodeRef}
      (inside : leaf ∈ scene.children place)
      (isLeaf : scene.kind? leaf = some .leaf ∨
        scene.kind? leaf = some .leafList) :
      Instantiates scene place chain expanding leaf chain
  | through {place child leaf : NodeRef} {chain expanding chain' : List NodeRef}
      {kind : ConstructKind} (inside : child ∈ scene.children place)
      (isKind : scene.kind? child = some kind)
      (searched : kind.endsSearch = false)
      (below : Instantiates scene child chain expanding leaf chain') :
      Instantiates scene place chain expanding leaf chain'
  | uses {place uses target leaf : NodeRef}
      {chain expanding chain' : List NodeRef}
      (inside : uses ∈ scene.children place)
      (bound : scene.usesTarget? uses = some target)
      (fresh : target ∉ expanding)
      (below : Instantiates scene target (uses :: chain) (target :: expanding)
        leaf chain') :
      Instantiates scene place chain expanding leaf chain'

/-- What is instantiated can be looked at. -/
theorem Instantiates.looksAt {place leaf : NodeRef}
    {chain expanding chain' : List NodeRef}
    (instantiates : scene.Instantiates place chain expanding leaf chain')
    (looks : scene.LooksAt place) : scene.LooksAt leaf := by
  induction instantiates with
  | leaf inside => exact looks.child inside
  | through inside _ _ _ ih => exact ih (looks.child inside)
  | uses inside bound _ _ ih =>
      obtain ⟨body, isUses, linked⟩ := usesTarget?_eq_some_iff.mp bound
      exact ih ((looks.child inside).link
        (links_of_construct isUses rfl linked))

theorem Instantiates.congr
    (children : ∀ place, after.children place = before.children place)
    (kind : ∀ place, after.kind? place = before.kind? place)
    (target : ∀ uses, after.usesTarget? uses = before.usesTarget? uses)
    {place leaf : NodeRef} {chain expanding chain' : List NodeRef}
    (instantiates : before.Instantiates place chain expanding leaf chain') :
    after.Instantiates place chain expanding leaf chain' := by
  induction instantiates with
  | leaf inside isLeaf =>
      exact .leaf (children _ ▸ inside) ((kind _).symm ▸ isLeaf)
  | through inside isKind searched _ ih =>
      exact .through (children _ ▸ inside) ((kind _).trans isKind) searched ih
  | uses inside bound fresh _ ih =>
      exact .uses (children _ ▸ inside) ((target _).trans bound) fresh ih

/-- The walk below a place finds the leaves that stand there. -/
theorem mem_leafrefsBelow_iff {bound : Nat} {place : NodeRef}
    {chain expanding : List NodeRef} {leafref : Linking.GroupingLeafref}
    (ends : EndsWithin scene.BelowCalls bound (place, expanding)) :
    leafref ∈ Linking.leafrefsBelow scene bound place chain expanding ↔
      scene.Instantiates place chain expanding leafref.leaf leafref.uses ∧
        leafref.path ∈ Linking.relativePaths scene leafref.leaf := by
  induction bound generalizing place chain expanding with
  | zero => cases ends
  | succ bound ih =>
      unfold Linking.leafrefsBelow
      rw [List.mem_flatMap]
      constructor
      · rintro ⟨child, inside, found⟩
        split at found
        · simp at found
        next body isUses =>
          split at found
          · simp at found
          next target linked =>
            split at found
            · simp at found
            next expanded =>
              have fresh : target ∉ expanding := by simpa using expanded
              obtain ⟨below, listed⟩ :=
                (ih (ends.next (.uses inside isUses linked fresh))).mp found
              exact ⟨.uses inside
                (usesTarget?_eq_some_iff.mpr ⟨body, isUses, linked⟩) fresh below,
                listed⟩
        next body isLeaf =>
          obtain ⟨path, listed, rfl⟩ := List.mem_map.mp found
          exact ⟨.leaf inside (.inl (by rw [kind?_eq, isLeaf]; rfl)), listed⟩
        next body isLeafList =>
          obtain ⟨path, listed, rfl⟩ := List.mem_map.mp found
          exact ⟨.leaf inside (.inr (by rw [kind?_eq, isLeafList]; rfl)), listed⟩
        · simp at found
        · simp at found
        · simp at found
        next construct _ _ _ _ _ _ isConstruct =>
          obtain ⟨below, listed⟩ := (ih (ends.next (.child inside))).mp found
          refine ⟨.through inside (by rw [kind?_eq, isConstruct]; rfl) ?_ below,
            listed⟩
          cases construct <;> simp_all [Construct.kind,
            ConstructKind.endsSearch]
      · rintro ⟨instantiates, listed⟩
        cases instantiates with
        | leaf inside isLeaf =>
            refine ⟨_, inside, ?_⟩
            rw [kind?_eq] at isLeaf
            cases isConstruct : scene.construct? leafref.leaf with
            | none => simp [isConstruct] at isLeaf
            | some construct =>
                cases construct with
                | leaf | leafList => exact List.mem_map.mpr ⟨_, listed, rfl⟩
                | _ => simp [isConstruct, Construct.kind] at isLeaf
        | @through _ child _ _ _ _ kind inside isKind searched below =>
            refine ⟨child, inside, ?_⟩
            have found := (ih (ends.next (.child inside))).mpr ⟨below, listed⟩
            rw [kind?_eq, Option.map_eq_some_iff] at isKind
            obtain ⟨construct, isConstruct, rfl⟩ := isKind
            cases construct with
            | uses | leaf | leafList | grouping | typedef | augment =>
                simp [Construct.kind, ConstructKind.endsSearch] at searched
            | _ => simpa only [isConstruct] using found
        | @uses _ uses target _ _ _ _ inside bound fresh below =>
            obtain ⟨body, isUses, linked⟩ := usesTarget?_eq_some_iff.mp bound
            refine ⟨uses, inside, ?_⟩
            simp only [isUses, linked, List.contains_eq_mem, fresh,
              decide_false, Bool.false_eq_true, if_false]
            exact (ih (ends.next (.uses inside isUses linked fresh))).mpr
              ⟨below, listed⟩

theorem mem_relativePaths_iff {leaf : NodeRef} {path : String}
    (orderly : scene.IsOrderly) (looks : scene.LooksAt leaf) :
    path ∈ Linking.relativePaths scene leaf ↔
      isAbsolutePath path = false ∧
        ∃ use, scene.type? leaf = some use ∧
          scene.Carries path (leaf, use) := by
  unfold Linking.relativePaths
  split
  next typeless => simp [typeless]
  next use declared =>
    have ends := (orderly.isExhaustive.paths looks declared).ends
    rw [List.mem_filter, mem_leafrefPaths_iff ends]
    simp [declared, and_comm]

/-- The references that a `uses` outside of groupings brings in. -/
theorem mem_instances_iff {unit : LinkUnit} {item reference : Reference}
    {grouping : NodeRef} (orderly : scene.IsOrderly)
    (looks : scene.LooksAt grouping) (kind : item.kind = .uses)
    (resolved : item.state = .resolved grouping)
    (outside : unit.tree.isWithin item.consumer .grouping = false) :
    reference ∈ Linking.instances scene unit item ↔
      ∃ leaf chain path, scene.Instantiates grouping
          [⟨unit.source, item.consumer⟩] [grouping] leaf chain ∧
        path ∈ Linking.relativePaths scene leaf ∧
        reference = { Reference.ofText (.leafref ⟨item.consumer, none⟩) path
            item.consumer item.position item.span with
          origin := some (.grouping leaf chain) } := by
  have ends := (orderly.isExhaustive.leafrefs looks
    ⟨unit.source, item.consumer⟩).ends
  unfold Linking.instances
  simp only [kind, resolved, outside, Bool.false_eq_true, if_false,
    List.mem_map, mem_leafrefsBelow_iff ends]
  constructor
  · rintro ⟨⟨leaf, path, chain⟩, ⟨instantiates, listed⟩, rfl⟩
    exact ⟨leaf, chain, path, instantiates, listed, rfl⟩
  · rintro ⟨leaf, chain, path, instantiates, listed, rfl⟩
    exact ⟨⟨leaf, path, chain⟩, ⟨instantiates, listed⟩, rfl⟩

end Scene

end YangSchema
