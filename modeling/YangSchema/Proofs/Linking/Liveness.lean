import YangSchema.Proofs.Linking.Looking

/-!
# Live nodes

A node is live if it is there and its unit can be used.  Units are connected in a
scene if all that they are linked to is live and of the right kind, and if what
their references name is live.  In connected units linking looks at live nodes
only, so it never asks for a unit or for a node that is not there.
-/

namespace YangSchema

namespace Scene

/-- A node of a unit that can be used. -/
structure IsLive (scene : Scene) (ref : NodeRef) : Prop where
  usable : scene.isUsable ref.source = true
  known : ∃ node, scene.node? ref = some node

/-- A node that a reference of a kind can be resolved to. -/
structure IsTarget (scene : Scene) (kind : ReferenceKind)
    (target : NodeRef) : Prop where
  live : scene.IsLive target
  ofKind : ∃ nodeKind ∈ kind.targetKinds, scene.kind? target = some nodeKind

/-- A node that another one can be linked to:  no grouping is used inside itself
and no identity is its own base. -/
structure Suits (scene : Scene) (place : NodeRef) (kind : ReferenceKind)
    (target : NodeRef) : Prop where
  isTarget : scene.IsTarget kind target
  outside : kind = .uses → target ∉ scene.ancestors place
  other : kind = .base → target ≠ place

/-- The type of each typedef names the next one, down to a typedef whose type
names a built-in type. -/
inductive ChainEnds (scene : Scene) : NodeRef → NodeRef → BuiltinType → Prop
  | here {typedef : NodeRef} {use : TypeUse} {builtin : BuiltinType}
      (declared : scene.type? typedef = some use)
      (named : use.builtin = some builtin) :
      ChainEnds scene typedef typedef builtin
  | next {typedef next last : NodeRef} {use : TypeUse} {builtin : BuiltinType}
      (declared : scene.type? typedef = some use)
      (derived : use.builtin = none)
      (found : scene.lexical typedef use.name .typedef = .ok next)
      (ends : ChainEnds scene next last builtin) :
      ChainEnds scene typedef last builtin

/-- A name at a place is that of a typedef, whose chain ends in the built-in type
of the effective type.  Members come from the typedef at that end. -/
structure Derives (scene : Scene) (place : NodeRef) (name : QualifiedName)
    (typedef : NodeRef) (effective : EffectiveType) : Prop where
  found : scene.lexical place name .typedef = .ok typedef
  ends : ∃ last, scene.ChainEnds typedef last effective.builtin ∧
    ∀ holder, effective.membersFrom = some holder → holder = last

end Scene

/-- All that a unit refers to is there, and is of the right kind. -/
structure LinkUnit.IsConnectedIn (unit : LinkUnit) (scene : Scene) : Prop where
  rooted : rootId < unit.tree.size
  nested : unit.tree.IsNested
  members : unit.tree.HasApartMembers
  links : ∀ {id kind target}, unit.tree.Links id kind target →
    scene.Suits ⟨unit.source, id⟩ kind target
  derived : ∀ {slot use typedef}, unit.tree.typeAt? slot = some use →
    use.links.typedef = some typedef → ∃ effective,
      use.links.effective = some effective ∧
        scene.Derives ⟨unit.source, slot.node⟩ use.name typedef effective
  named : ∀ {item ref}, item ∈ unit.queue → item.Names unit.source ref →
    scene.IsLive ref
  deferred : ∀ list ∈ unit.deferredKeys, list < unit.tree.size

namespace Linking

/-- Units of different sources, of which those that can be used are connected. -/
structure IsConnected (phase : LinkPhase) (units : List LinkUnit) : Prop where
  distinct : (units.map (·.source)).Nodup
  units : ∀ unit ∈ units, unit.usable = true →
    unit.IsConnectedIn (.ofUnits units phase)

end Linking

namespace Scene

variable {scene : Scene} {place target : NodeRef}

theorem isUsable_iff {source : SourceId} :
    scene.isUsable source = true ↔
      ∃ unit, scene.unit? source = some unit ∧ unit.usable = true := by
  simp [isUsable, Option.any_eq_true]

/-- The nodes of a unit that is found at its source. -/
theorem node?_of_unit? {unit : LinkUnit} {source : SourceId}
    (found : scene.unit? source = some unit) (id : NodeId) :
    scene.node? ⟨source, id⟩ = unit.tree.node? id := by
  simp [node?, tree?, found]

theorem isLive_of_unit? {unit : LinkUnit} {source : SourceId} {id : NodeId}
    (found : scene.unit? source = some unit) (usable : unit.usable = true)
    (inside : id < unit.tree.size) : scene.IsLive ⟨source, id⟩ where
  usable := isUsable_iff.mpr ⟨unit, found, usable⟩
  known := ⟨unit.tree.nodes[id], by
    rw [node?_of_unit? found]
    exact Array.getElem?_eq_getElem inside⟩

theorem IsLive.unit? (live : scene.IsLive place) :
    ∃ unit, scene.unit? place.source = some unit ∧ unit.usable = true ∧
      place.node < unit.tree.size := by
  obtain ⟨unit, found, usable⟩ := isUsable_iff.mp live.usable
  obtain ⟨node, known⟩ := live.known
  have known : unit.tree.node? place.node = some node := by
    rw [← known, ← node?_of_unit? found]
  exact ⟨unit, found, usable, SchemaTree.lt_size_of_node? known⟩

theorem searchFrom_isUsable {kind : ConstructKind} {name : String}
    {blocked : Bool} {sources : List SourceId}
    (found : scene.searchFrom kind name blocked sources = .ok target) :
    scene.isUsable target.source = true := by
  induction sources generalizing blocked with
  | nil => simp [searchFrom] at found
  | cons source rest ih =>
      unfold searchFrom at found
      split at found
      · exact ih found
      next unit known =>
        split at found
        · exact ih found
        next usable =>
          split at found
          · obtain rfl := Except.ok.inj found
            exact isUsable_iff.mpr ⟨unit, known, by simpa using usable⟩
          · exact ih found

theorem topLevel_isLive {source : SourceId} {name : QualifiedName}
    {kind : ConstructKind}
    (found : scene.topLevel source name kind = .ok target) :
    scene.IsLive target := by
  obtain ⟨node, known, -⟩ := topLevel_names found
  obtain ⟨sources, -, searched⟩ := bind_eq_ok_iff.mp found
  exact ⟨searchFrom_isUsable searched, node, known⟩

theorem lexical_isLive {name : QualifiedName} {kind : ConstructKind}
    (live : scene.IsLive place)
    (found : scene.lexical place name kind = .ok target) :
    scene.IsLive target := by
  obtain ⟨node, known, -⟩ := lexical_names found
  refine ⟨?_, node, known⟩
  obtain ⟨sources, -, found⟩ := bind_eq_ok_iff.mp found
  dsimp only at found
  split at found
  next nested enclosed =>
    obtain rfl := pure_eq_ok_iff.mp found
    split at enclosed
    · unfold enclosing? at enclosed
      split at enclosed
      · simp at enclosed
      · obtain ⟨id, -, rfl⟩ := Option.map_eq_some_iff.mp enclosed
        exact live.usable
    · simp at enclosed
  · exact searchFrom_isUsable found

/-- The first unit that a qualifier can mean can be used. -/
theorem moduleRoot_isUsable {source : SourceId} {qualifier : Option String}
    {root : NodeRef} (usable : scene.isUsable source = true)
    (found : scene.moduleRoot source qualifier = .ok root) :
    scene.isUsable root.source = true ∧ root.node = rootId := by
  obtain ⟨sources, scopes, found⟩ := bind_eq_ok_iff.mp found
  split at found
  next first others =>
    obtain rfl := pure_eq_ok_iff.mp found
    refine ⟨?_, rfl⟩
    unfold Scene.scopes at scopes
    split at scopes
    · simp at scopes
    · split at scopes
      · split at scopes <;> simp_all
      · split at scopes
        · simp at scopes
        · split at scopes <;> simp_all
  · simp at found

theorem mem_sharedRoots {root : NodeRef}
    (shared : root ∈ scene.sharedRoots place) :
    scene.isUsable root.source = true ∧ root.node = rootId := by
  unfold sharedRoots at shared
  split at shared
  · split at shared
    · obtain ⟨source, listed, rfl⟩ := List.mem_map.mp shared
      exact ⟨(List.mem_filter.mp listed).2, rfl⟩
    · simp at shared
  · simp at shared

/-- The augments of a scene are bound to their targets. -/
theorem mem_augments_ofUnits {units : List LinkUnit} {phase : LinkPhase}
    {augment : NodeRef} (bound : (target, augment) ∈ (ofUnits units phase).augments) :
    ∃ unit ∈ units, unit.usable = true ∧ augment.source = unit.source ∧
      unit.tree.Links augment.node .augment target ∧
        augment.node < unit.tree.size := by
  obtain ⟨unit, usable, bound⟩ := List.mem_flatMap.mp bound
  obtain ⟨member, usable⟩ := List.mem_filter.mp usable
  obtain ⟨id, inside, bound⟩ := List.mem_filterMap.mp bound
  refine ⟨unit, member, usable, ?_⟩
  split at bound
  next body _ _ _ _ _ _ known =>
    split at bound
    next linked _ =>
      obtain ⟨rfl, rfl⟩ := Prod.mk.inj (Option.some.inj bound)
      exact ⟨rfl, .construct (SchemaTree.construct?_eq_some_iff.mpr
        ⟨_, known, rfl⟩) rfl linked, SchemaTree.lt_size_of_node? known⟩
    · simp at bound
  · simp at bound

end Scene

namespace Linking.IsConnected

open Scene

variable {phase : LinkPhase} {units : List LinkUnit} {ref : NodeRef}

/-- A usable unit is connected and is the one found at its source. -/
theorem unit? (connected : IsConnected phase units) {source : SourceId}
    (usable : (ofUnits units phase).isUsable source = true) :
    ∃ unit ∈ units, (ofUnits units phase).unit? source = some unit ∧
      unit.usable = true ∧ unit.source = source ∧
        unit.IsConnectedIn (.ofUnits units phase) := by
  obtain ⟨unit, found, usable⟩ := isUsable_iff.mp usable
  obtain ⟨member, source⟩ := unit?_mem found
  exact ⟨unit, member, found, usable, source,
    connected.units unit member usable⟩

theorem isLive_of_mem (connected : IsConnected phase units) {unit : LinkUnit}
    (member : unit ∈ units) (usable : unit.usable = true) {id : NodeId}
    (inside : id < unit.tree.size) :
    (ofUnits units phase).IsLive ⟨unit.source, id⟩ := by
  have found : (ofUnits units phase).unit? unit.source = some unit :=
    @unit?_of_mem (ofUnits units phase) connected.distinct unit member
  exact isLive_of_unit? found usable inside

theorem isLive_root (connected : IsConnected phase units)
    (usable : (ofUnits units phase).isUsable ref.source = true)
    (root : ref.node = rootId) : (ofUnits units phase).IsLive ref := by
  obtain ⟨unit, -, found, usable, -, inside⟩ := connected.unit? usable
  have live := isLive_of_unit? found usable inside.rooted
  rwa [← root] at live

/-- Whatever linking looks at is there. -/
theorem isLive (connected : IsConnected phase units)
    (looks : (ofUnits units phase).LooksAt ref) :
    (ofUnits units phase).IsLive ref := by
  induction looks with
  | own member usable inside => exact connected.isLive_of_mem member usable inside
  | queued member usable queued named =>
      exact (connected.units _ member usable).named queued named
  | deferred member usable deferred =>
      exact connected.isLive_of_mem member usable
        ((connected.units _ member usable).deferred _ deferred)
  | child _ inside live =>
      obtain ⟨same, node, known, -⟩ := node?_of_mem_children inside
      exact ⟨same ▸ live.usable, node, known⟩
  | @ancestor place ancestor _ around live =>
      obtain ⟨unit, -, found, usable, -, whole⟩ := connected.unit? live.usable
      simp only [Scene.ancestors, tree?, found, Option.map_some,
        List.mem_map] at around
      obtain ⟨id, around, rfl⟩ := around
      obtain ⟨before, inside⟩ := whole.nested.lt_of_mem_ancestors around
      exact isLive_of_unit? found usable (Nat.lt_trans before inside)
  | @link place target kind _ linked live =>
      obtain ⟨unit, -, found, usable, -, whole⟩ := connected.unit? live.usable
      obtain ⟨tree, isTree, linked⟩ := linked
      simp only [tree?, found, Option.map_some, Option.some.injEq] at isTree
      exact (whole.links (isTree ▸ linked)).isTarget.live
  | @members place construct member use id _ known declared inNode live =>
      obtain ⟨unit, -, found, usable, -, whole⟩ := connected.unit? live.usable
      obtain ⟨tree, isTree, known⟩ := construct?_eq_some_iff.mp known
      simp only [tree?, found, Option.map_some, Option.some.injEq] at isTree
      subst isTree
      have holds : unit.tree.HoldsMembers ⟨place.node, member⟩ id := by
        refine ⟨use, ?_, inNode⟩
        rw [SchemaTree.typeAt?_eq]
        exact Option.bind_eq_some_iff.mpr ⟨construct, known, declared⟩
      exact isLive_of_unit? found usable (whole.members.inside holds)
  | lexical _ found live => exact lexical_isLive live found
  | topLevel _ found => exact topLevel_isLive found
  | moduleRoot _ found live =>
      obtain ⟨usable, root⟩ := moduleRoot_isUsable live.usable found
      exact connected.isLive_root usable root
  | shared _ shared =>
      obtain ⟨usable, root⟩ := mem_sharedRoots shared
      exact connected.isLive_root usable root
  | augment bound =>
      obtain ⟨unit, member, usable, source, -, inside⟩ :=
        mem_augments_ofUnits bound
      have live := connected.isLive_of_mem member usable inside
      rwa [← source] at live

end Linking.IsConnected

end YangSchema
