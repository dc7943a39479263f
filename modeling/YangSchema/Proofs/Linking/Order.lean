import YangSchema.Proofs.Linking.Costs
import YangSchema.Proofs.Linking.Grounding
import YangSchema.Proofs.Linking.Growing

/-!
# Linking keeps units in order

Units are in order if they are connected and tidy, if no reference expands a
typedef twice and if all augments are bound to nodes that are grounded.  Then the
scene that they make up is orderly.  They stay in order wherever linking passes.
-/

namespace YangSchema

namespace Scene

/-- A live node belongs to a unit that can be used, so linking looks at it. -/
theorem IsLive.looksAt {scene : Scene} {ref : NodeRef}
    (live : scene.IsLive ref) : scene.LooksAt ref := by
  obtain ⟨unit, found, usable, inside⟩ := live.unit?
  obtain ⟨member, source⟩ := unit?_mem found
  have own : scene.LooksAt ⟨unit.source, ref.node⟩ := .own member usable inside
  rwa [source] at own

section

variable {phase : LinkPhase} {units : List LinkUnit} {after : Scene}
  (connected : Linking.IsConnected phase units)
  (growth : (ofUnits units phase).Grows after)
  (further : ∀ {source tree tree'},
    (ofUnits units phase).isUsable source = true →
      (ofUnits units phase).tree? source = some tree →
        after.tree? source = some tree' → tree.LinksFurther tree')
  {place target augment : NodeRef}

include connected growth

theorem augmentAround?_grows (live : (ofUnits units phase).IsLive place) :
    after.augmentAround? place = (ofUnits units phase).augmentAround? place := by
  have around : ∀ ref ∈ place :: (ofUnits units phase).ancestors place,
      (ofUnits units phase).IsLive ref :=
    List.forall_mem_cons.mpr ⟨live, fun ref listed =>
      connected.isLive (live.looksAt.ancestor listed)⟩
  have same : after.ancestors place = (ofUnits units phase).ancestors place :=
    growth.ancestors live
  simp only [augmentAround?, same, ← List.head?_filter]
  rw [List.filter_congr fun ref listed => by
    rw [isTransparent, growth.kind? (around ref listed), ← isTransparent]]
  cases found : ((place :: (ofUnits units phase).ancestors place).filter
      fun ref => !(ofUnits units phase).isTransparent ref).head? with
  | none => rfl
  | some base =>
      have listed := (List.mem_filter.mp (List.mem_of_mem_head? found)).1
      simp only [Option.filter, growth.kind? (around base listed)]

include further

omit connected in
theorem boundTo?_grows (live : (ofUnits units phase).IsLive augment)
    (bound : (ofUnits units phase).boundTo? augment = some target) :
    after.boundTo? augment = some target := by
  obtain ⟨unit, unit', found, found', -⟩ := growth.unit? live
  obtain ⟨tree, isTree, linked⟩ := boundTo?_eq_some_iff_links.mp bound
  have isTree' : after.tree? augment.source = some unit'.tree := by
    simp [tree?, found']
  have kept := (further live.usable isTree isTree').kept ⟨augment.node, .augment⟩
    _ (SchemaTree.link?_augment_iff.mpr linked)
  exact boundTo?_eq_some_iff_links.mpr
    ⟨unit'.tree, isTree', SchemaTree.link?_augment_iff.mp kept⟩

theorem Rests.grows (rests : (ofUnits units phase).Rests augment)
    (live : (ofUnits units phase).IsLive augment) : after.Rests augment := by
  induction rests with
  | @intro augment target bound _ ih =>
      have targetLive : (ofUnits units phase).IsLive target := connected.isLive
        (live.looksAt.link (boundTo?_eq_some_iff_links.mp bound))
      refine .intro (boundTo?_grows growth further live bound)
        fun base around => ?_
      rw [augmentAround?_grows connected growth targetLive] at around
      have listed := List.mem_of_find?_eq_some
        (augmentAround?_eq_some_iff.mp around).1
      refine ih base around ?_
      obtain rfl | listed := List.mem_cons.mp listed
      · exact targetLive
      · exact connected.isLive (targetLive.looksAt.ancestor listed)

/-- What is grounded stays so when the scene grows. -/
theorem IsGrounded.grows (grounded : (ofUnits units phase).IsGrounded target)
    (live : (ofUnits units phase).IsLive target) : after.IsGrounded target := by
  intro base around
  rw [augmentAround?_grows connected growth live] at around
  refine (grounded base around).grows connected growth further ?_
  obtain rfl | listed := List.mem_cons.mp (List.mem_of_find?_eq_some
    (augmentAround?_eq_some_iff.mp around).1)
  · exact live
  · exact connected.isLive (live.looksAt.ancestor listed)

end

end Scene

/-- A leafref that a `uses` instantiates has expanded no typedef. -/
theorem Scene.expandedTypedefs_instances {scene : Scene} {unit : LinkUnit}
    {item reference : Reference}
    (made : reference ∈ Linking.instances scene unit item) :
    expandedTypedefs reference = [] := by
  unfold Linking.instances at made
  split at made
  · split at made
    · simp at made
    · obtain ⟨leafref, -, rfl⟩ := List.mem_map.mp made
      rfl
  · simp at made

namespace Linking

/-- Units that linking can go on with. -/
structure IsOrderly (phase : LinkPhase) (units : List LinkUnit) : Prop where
  connected : IsConnected phase units
  tidy : ∀ unit ∈ units, unit.usable = true → unit.IsTidy
  once : ∀ unit ∈ units, unit.usable = true → unit.ExpandsOnce
  grounded : ∀ unit ∈ units, unit.usable = true →
    unit.IsGroundedIn (.ofUnits units phase)

variable {phase : LinkPhase} {units after : List LinkUnit} {rank : Nat}

theorem mem_topAugments {tree : SchemaTree} {target augment : NodeRef}
    (bound : (target, augment) ∈ Scene.topAugments tree) :
    augment.source = tree.source ∧ tree.Links augment.node .augment target ∧
      ∃ node parent rest, tree.node? augment.node = some node ∧
        node.ancestors = parent :: rest := by
  obtain ⟨id, -, bound⟩ := List.mem_filterMap.mp bound
  split at bound
  next body _ _ _ _ _ _ known =>
    split at bound
    next linked _ =>
      obtain ⟨rfl, rfl⟩ := Prod.mk.inj (Option.some.inj bound)
      exact ⟨rfl, .construct (SchemaTree.construct?_eq_some_iff.mpr
        ⟨_, known, rfl⟩) rfl linked, _, _, _, known, rfl⟩
    · simp at bound
  · simp at bound

/-- An augment at the top level of a unit is bound to its target. -/
theorem boundTo?_of_mem_augments (distinct : (units.map (·.source)).Nodup)
    {target augment : NodeRef}
    (listed : (target, augment) ∈ (Scene.ofUnits units phase).augments) :
    (Scene.ofUnits units phase).boundTo? augment = some target := by
  obtain ⟨unit, among, bound⟩ := List.mem_flatMap.mp listed
  obtain ⟨source, linked, -⟩ := mem_topAugments bound
  have found := @Scene.unit?_of_mem (.ofUnits units phase) distinct unit
    (List.mem_filter.mp among).1
  refine Scene.boundTo?_eq_some_iff_links.mpr ⟨unit.tree, ?_, linked⟩
  rw [source, Scene.tree?, show unit.tree.source = unit.source from rfl, found]
  rfl

/-- Units in order make up an orderly scene. -/
theorem IsOrderly.scene (orderly : IsOrderly phase units) :
    (Scene.ofUnits units phase).IsOrderly where
  known looks := by
    obtain ⟨node, known⟩ := (orderly.connected.isLive looks).known
    exact Scene.mem_nodeRefs_of_node? known
  nested looks := by
    obtain ⟨unit, -, found, -, -, whole⟩ :=
      orderly.connected.unit? (orderly.connected.isLive looks).usable
    intro tree isTree
    simp only [Scene.tree?, found, Option.map_some, Option.some.injEq] at isTree
    exact isTree ▸ whole.nested
  apart looks := by
    obtain ⟨unit, -, found, -, -, whole⟩ :=
      orderly.connected.unit? (orderly.connected.isLive looks).usable
    intro tree isTree
    simp only [Scene.tree?, found, Option.map_some, Option.some.injEq] at isTree
    exact isTree ▸ whole.members
  groupings := by
    intro uses target body looks isUses bound
    obtain ⟨unit, -, found, -, -, whole⟩ :=
      orderly.connected.unit? (orderly.connected.isLive looks).usable
    obtain ⟨tree, isTree, linked⟩ :=
      Scene.links_of_construct isUses rfl bound
    simp only [Scene.tree?, found, Option.map_some, Option.some.injEq] at isTree
    obtain ⟨kind, ofKind, isKind⟩ :=
      (whole.links (isTree ▸ linked)).isTarget.ofKind
    obtain rfl := List.mem_singleton.mp ofKind
    exact isKind
  grounded := by
    intro augment target looks bound
    obtain ⟨unit, member, found, usable, -, -⟩ :=
      orderly.connected.unit? (orderly.connected.isLive looks).usable
    obtain ⟨tree, isTree, linked⟩ := Scene.boundTo?_eq_some_iff_links.mp bound
    simp only [Scene.tree?, found, Option.map_some, Option.some.injEq] at isTree
    exact orderly.grounded unit member usable _ _ (isTree ▸ linked)
  augments := by
    intro target augment bound
    refine ⟨boundTo?_of_mem_augments orderly.connected.distinct bound, ?_⟩
    obtain ⟨unit, listed, bound⟩ := List.mem_flatMap.mp bound
    obtain ⟨member, usable⟩ := List.mem_filter.mp listed
    obtain ⟨-, -, node, parent, rest, known, around⟩ := mem_topAugments bound
    have nested := (orderly.connected.units unit member usable).nested
    have before := (nested _ _ known _ _ around).1
    exact (Nat.lt_of_le_of_lt (Nat.zero_le parent) before).ne'

/-- Units at the same places have trees at the same sources. -/
theorem LinksFurther.tree? (further : LinksFurther units after)
    (evolves : Evolves units after) (distinct : (units.map (·.source)).Nodup)
    {source : SourceId} {tree tree' : SchemaTree}
    (found : (Scene.ofUnits units phase).tree? source = some tree)
    (found' : (Scene.ofUnits after phase).tree? source = some tree') :
    tree.LinksFurther tree' := by
  obtain ⟨unit, member, rfl, rfl⟩ := Scene.tree?_mem found
  obtain ⟨place, known⟩ := List.mem_iff_getElem?.mp member
  obtain ⟨unit', known', linked⟩ := further.unit known
  have here : (Scene.ofUnits after phase).unit? unit'.source = some unit' :=
    @Scene.unit?_of_mem (.ofUnits after phase) (evolves.map_source ▸ distinct)
      unit' (List.mem_of_getElem? known')
  have source : unit'.source = unit.source := linked.tree.source
  simp only [Scene.tree?, ← source, here, Option.map_some,
    Option.some.injEq] at found'
  exact found' ▸ linked.tree

/-- Units stay in order if links are only added, and if what is added is borne out
by the scene of before. -/
theorem IsOrderly.of_further (orderly : IsOrderly phase units)
    (evolves : Evolves units after) (further : LinksFurther units after)
    (tidy : ∀ unit ∈ after, unit.usable = true → unit.IsTidy)
    (whole : ∀ unit ∈ after, unit.usable = true →
      unit.IsConnectedIn (.ofUnits units phase))
    (once : ∀ unit ∈ after, unit.usable = true → unit.ExpandsOnce)
    (grounded : ∀ unit ∈ after, unit.usable = true →
      unit.IsGroundedIn (.ofUnits units phase)) : IsOrderly phase after where
  connected := orderly.connected.of_evolves evolves whole
  tidy := tidy
  once := once
  grounded unit member usable id target linked :=
    (grounded unit member usable id target linked).grows orderly.connected
      (Scene.grows_of_evolves orderly.connected.distinct evolves)
      (fun _ => further.tree? evolves orderly.connected.distinct)
      ((whole unit member usable).links linked).isTarget.live

/-- An outcome that keeps a unit in order:  it brings in no reference that expands
a typedef twice, and binds an augment to what is grounded. -/
structure Settled.Fits (scene : Scene) (settled : Settled) (unit : LinkUnit) :
    Prop where
  once : ∀ member ∈ settled.outcome.members,
    (Scene.expandedTypedefs member).Nodup
  grounded : ∃ item, unit.queue[settled.index]? = some item ∧
    ∀ target, settled.outcome = .target target → item.kind = .augment →
      scene.IsGrounded target

variable {scene : Scene} {settled : Settled} {unit unit' : LinkUnit}

theorem Settled.Fits.evolves (fits : settled.Fits scene unit)
    (evolves : unit.Evolves unit') : settled.Fits scene unit' where
  once := fits.once
  grounded := by
    obtain ⟨item, found, grounded⟩ := fits.grounded
    obtain ⟨state, found'⟩ := evolves.queue found
    exact ⟨_, found', grounded⟩

/-- Only the outcome of the reference of an augment binds an augment. -/
theorem isGroundedIn_apply (grounded : unit.IsGroundedIn scene)
    (fits : settled.Fits scene unit) :
    (unit.apply settled.index settled.outcome).IsGroundedIn scene := by
  unfold LinkUnit.apply
  split
  · exact grounded
  next item found =>
    cases outcome : settled.outcome with
    | pending | blocked | failed => exact grounded
    | target bound =>
        intro id target linked
        obtain old | ⟨-, -, kind, rfl⟩ := LinkUnit.links_bindTarget linked
        · exact grounded id target old
        · obtain ⟨_, found', bindsGrounded⟩ := fits.grounded
          obtain rfl := Option.some.inj (found.symm.trans found')
          exact bindsGrounded target outcome kind.symm
    | derived derivation members =>
        dsimp only
        split
        · intro id target linked
          obtain old | ⟨-, -, ⟨kind, -⟩ | ⟨kind, -⟩⟩ :=
            LinkUnit.links_bindDerivation linked
          · exact grounded id target old
          · simp at kind
          · simp at kind
        · exact grounded

namespace IsOrderly

variable (orderly : IsOrderly phase units)
include orderly

theorem rankOutcomes_fit {settled : Settled}
    (listed : settled ∈ rankOutcomes units phase rank) :
    ∃ unit, units[settled.unit]? = some unit ∧
      settled.Fits (.ofUnits units phase) unit := by
  obtain ⟨unit, item, found, usable, queued, -, -, -, same⟩ :=
    mem_rankOutcomes_iff.mp listed
  have member := List.mem_of_getElem? found
  have inQueue := List.mem_of_getElem? queued
  refine ⟨unit, found, ?_, item, queued, fun target outcome kind => ?_⟩
  · rw [same]
    exact Scene.outcome_expandsOnce (orderly.once unit member usable item inQueue)
  · have looks : (Scene.ofUnits units phase).LooksAt
        (Scene.referencePlace unit.source item) :=
      Scene.referencePlace_looks fun named =>
        .queued member usable inQueue named
    rw [same, Scene.outcome] at outcome
    split at outcome
    next ok =>
      subst outcome
      cases Scene.lookupReference_found ok with
      | augment _ found =>
          exact orderly.scene.isGrounded_augmentTarget looks found
      | _ => simp_all
    next miss _ => cases miss <;> simp [Outcome.ofMiss] at outcome

theorem applyAll (rank : Nat) :
    IsOrderly phase (applyAll units (rankOutcomes units phase rank)) := by
  obtain ⟨tidy, further⟩ := Moment.Steps.keeps
    (.head (.rank units rank) (applyAll_steps phase units _))
    (Moment.isTidy_of_units orderly.tidy)
  have kept : ∀ unit ∈ Linking.applyAll units (rankOutcomes units phase rank),
      unit.usable = true →
        unit.ExpandsOnce ∧ unit.IsGroundedIn (.ofUnits units phase) :=
    applyAll_keeps (Settled.Fits (.ofUnits units phase))
      (fun fits evolves => fits.evolves evolves)
      (fun ⟨once, grounded⟩ fits =>
        ⟨once.apply fits.once, isGroundedIn_apply grounded fits⟩)
      (fun unit member usable => ⟨orderly.once unit member usable,
        orderly.grounded unit member usable⟩)
      (fun _ listed => orderly.rankOutcomes_fit listed)
  exact orderly.of_further (applyAll_evolves units _) further tidy.units
    (orderly.connected.applyAll_isConnectedIn rank)
    (fun unit member usable => (kept unit member usable).1)
    (fun unit member usable => (kept unit member usable).2)

omit orderly in
theorem instantiateGroupings (orderly : IsOrderly .interFile units) :
    IsOrderly .interFile (instantiateGroupings units) := by
  obtain ⟨tidy, further⟩ := Moment.Step.keeps (.instances units rfl)
    (Moment.isTidy_of_units orderly.tidy)
  refine orderly.of_further (instantiateGroupings_evolves units) further
    tidy.units orderly.connected.instantiateGroupings_isConnectedIn ?_ ?_
  · intro unit' member usable
    obtain ⟨unit, listed, rfl⟩ := List.mem_map.mp member
    split at usable
    next isUsable =>
      rw [if_pos isUsable]
      refine List.forall_mem_append.mpr
        ⟨orderly.once unit listed isUsable, fun item made => ?_⟩
      obtain ⟨uses, -, made⟩ := List.mem_flatMap.mp made
      rw [Scene.expandedTypedefs_instances made]
      exact List.nodup_nil
    next unusable => exact absurd usable unusable
  · intro unit' member usable
    obtain ⟨unit, listed, rfl⟩ := List.mem_map.mp member
    split at usable
    next isUsable =>
      rw [if_pos isUsable]
      exact orderly.grounded unit listed isUsable
    next unusable => exact absurd usable unusable

/-- Wherever linking passes, the units are in order. -/
theorem of_passes {passed : List LinkUnit}
    (passes : Passes phase units passed) : IsOrderly phase passed := by
  induction passes with
  | start => exact orderly
  | rank rank _ ih => exact ih.applyAll rank
  | instances across _ ih =>
      subst across
      exact ih.instantiateGroupings

end IsOrderly

end Linking

end YangSchema
