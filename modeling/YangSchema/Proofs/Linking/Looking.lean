import YangSchema.Proofs.Linking.Targets
import YangSchema.Proofs.Linking.Unblocked

/-!
# The nodes that linking looks at

Linking starts at the nodes of the usable units and at those that references
name.  From a node it goes to the nodes inside it and around it, along its links
and to what is found under a name that is written there.  The places that a path
leads through, the typedefs of a chain and the nodes that new references name are
all come by in this way.
-/

namespace YangSchema

/-- The kinds of nodes that a reference of a kind can be linked to. -/
def ReferenceKind.targetKinds : ReferenceKind → List ConstructKind
  | .uses => [.grouping]
  | .derivedType _ => [.typedef]
  | .base | .identityref _ => [.identity]
  | .ifFeature _ => [.feature]
  | .leafref _ => [.leaf, .leafList]
  | .augment =>
      [.container, .list, .choice, .case, .input, .output, .notification]

/-- The nodes that a reference of a unit names. -/
inductive Reference.Names (item : Reference) (source : SourceId) :
    NodeRef → Prop
  | consumer : Names item source ⟨source, item.consumer⟩
  | place : Names item source ⟨source, item.place⟩
  | resolved {target : NodeRef} (state : item.state = .resolved target) :
      Names item source target
  | union {union : NodeRef} {member : Nat} {typedefs : List NodeRef}
      (origin : item.origin = some (.unionMember union member typedefs)) :
      Names item source union
  | typedef {union typedef : NodeRef} {member : Nat} {typedefs : List NodeRef}
      (origin : item.origin = some (.unionMember union member typedefs))
      (expanded : typedef ∈ typedefs) : Names item source typedef
  | leaf {leaf : NodeRef} {chain : List NodeRef}
      (origin : item.origin = some (.grouping leaf chain)) :
      Names item source leaf
  | uses {leaf uses : NodeRef} {chain : List NodeRef}
      (origin : item.origin = some (.grouping leaf chain))
      (instantiates : uses ∈ chain) : Names item source uses

namespace Scene

/-- What a node of a scene is linked to by a reference of a kind. -/
def Links (scene : Scene) (place : NodeRef) (kind : ReferenceKind)
    (target : NodeRef) : Prop :=
  ∃ tree, scene.tree? place.source = some tree ∧
    tree.Links place.node kind target

/-- The nodes that linking looks at. -/
inductive LooksAt (scene : Scene) : NodeRef → Prop
  | own {unit : LinkUnit} {id : NodeId} (member : unit ∈ scene.units)
      (usable : unit.usable = true) (inside : id < unit.tree.size) :
      LooksAt scene ⟨unit.source, id⟩
  | queued {unit : LinkUnit} {item : Reference} {ref : NodeRef}
      (member : unit ∈ scene.units) (usable : unit.usable = true)
      (queued : item ∈ unit.queue) (named : item.Names unit.source ref) :
      LooksAt scene ref
  | deferred {unit : LinkUnit} {list : NodeId} (member : unit ∈ scene.units)
      (usable : unit.usable = true) (deferred : list ∈ unit.deferredKeys) :
      LooksAt scene ⟨unit.source, list⟩
  | child {place child : NodeRef} (looks : LooksAt scene place)
      (inside : child ∈ scene.children place) : LooksAt scene child
  | ancestor {place ancestor : NodeRef} (looks : LooksAt scene place)
      (around : ancestor ∈ scene.ancestors place) : LooksAt scene ancestor
  | link {place target : NodeRef} {kind : ReferenceKind}
      (looks : LooksAt scene place) (linked : scene.Links place kind target) :
      LooksAt scene target
  | members {place : NodeRef} {construct : Construct} {member : Option Nat}
      {use : TypeUse} {id : NodeId} (looks : LooksAt scene place)
      (found : scene.construct? place = some construct)
      (declared : construct.typeAt? member = some use)
      (inNode : use.members = some id) : LooksAt scene ⟨place.source, id⟩
  | lexical {place target : NodeRef} {name : QualifiedName}
      {kind : ConstructKind} (looks : LooksAt scene place)
      (found : scene.lexical place name kind = .ok target) :
      LooksAt scene target
  | topLevel {place target : NodeRef} {name : QualifiedName}
      {kind : ConstructKind} (looks : LooksAt scene place)
      (found : scene.topLevel place.source name kind = .ok target) :
      LooksAt scene target
  | moduleRoot {place root : NodeRef} {qualifier : Option String}
      (looks : LooksAt scene place)
      (found : scene.moduleRoot place.source qualifier = .ok root) :
      LooksAt scene root
  | shared {place root : NodeRef} (looks : LooksAt scene place)
      (shared : root ∈ scene.sharedRoots place) : LooksAt scene root
  | augment {target augment : NodeRef}
      (bound : (target, augment) ∈ scene.augments) : LooksAt scene augment

variable {scene : Scene} {place node target : NodeRef}

theorem construct?_eq_some_iff {construct : Construct} :
    scene.construct? place = some construct ↔
      ∃ tree, scene.tree? place.source = some tree ∧
        tree.construct? place.node = some construct := by
  simp only [construct?, node?, SchemaTree.construct?, Option.map_bind,
    Option.bind_eq_some_iff, Function.comp_apply]

theorem links_of_construct {construct : Construct} {kind : ReferenceKind}
    (found : scene.construct? place = some construct)
    (ofKind : construct.targetKind? = some kind)
    (linked : construct.target? = some target) :
    scene.Links place kind target := by
  obtain ⟨tree, isTree, found⟩ := construct?_eq_some_iff.mp found
  exact ⟨tree, isTree, .construct found ofKind linked⟩

/-- The augments inside a `uses` are children of it. -/
theorem LooksAt.usesAugments {uses : NodeRef} (looks : scene.LooksAt uses) :
    ∀ pair ∈ scene.usesAugments uses, scene.LooksAt pair.2 :=
  fun _ listed => looks.child (mem_usesAugments_iff.mp listed).1

theorem mem_of_mem_augmentsOf {pairs : List (NodeRef × NodeRef)}
    (listed : node ∈ augmentsOf target pairs) : (target, node) ∈ pairs := by
  obtain ⟨pair, among, rfl⟩ := List.mem_map.mp listed
  obtain ⟨among, same⟩ := List.mem_filter.mp among
  rwa [← eq_of_beq same]

/-- What one step can name is in a place that the search has entered. -/
theorem LooksAt.collect {walk : Walk} {bound : Nat}
    {overlay : List (NodeRef × NodeRef)} {expanding : List NodeRef}
    (looks : scene.LooksAt place)
    (overlaid : ∀ pair ∈ overlay, scene.LooksAt pair.2)
    (found : node ∈ scene.collect walk bound place overlay expanding) :
    scene.LooksAt node := by
  induction bound generalizing place overlay expanding with
  | zero => simp [Scene.collect] at found
  | succ bound ih =>
      unfold Scene.collect at found
      obtain own | added := List.mem_append.mp found
      · obtain ⟨child, inside, found⟩ := List.mem_flatMap.mp own
        have within : scene.LooksAt child := looks.child inside
        split at found
        · simp at found
        next body isUses =>
          split at found
          · simp at found
          next grouping bound =>
            split at found
            · simp at found
            · refine ih (within.link (links_of_construct isUses rfl bound)) ?_
                found
              exact List.forall_mem_append.mpr ⟨overlaid, within.usesAugments⟩
        · dsimp only at found
          split at found
          · exact ih within overlaid found
          · split at found
            · obtain rfl := List.mem_singleton.mp found
              exact within
            · simp at found
      · obtain ⟨augment, active, found⟩ := List.mem_flatMap.mp added
        refine ih ?_ overlaid found
        obtain bound | overlay := List.mem_append.mp active
        · exact .augment (mem_of_mem_augmentsOf bound)
        · exact overlaid _ (mem_of_mem_augmentsOf overlay)

theorem LooksAt.stepChildren {walk : Walk} (looks : scene.LooksAt place)
    (found : node ∈ scene.stepChildren walk place) : scene.LooksAt node := by
  obtain ⟨root, listed, collected⟩ := List.mem_flatMap.mp found
  obtain rfl | shared := List.mem_cons.mp listed
  · exact looks.collect (List.forall_mem_nil _) collected
  · exact (looks.shared shared).collect (List.forall_mem_nil _) collected

/-- Every place on the way of a path is looked at. -/
theorem LooksAt.follow {walk : Walk} {steps : List QualifiedName}
    (looks : scene.LooksAt place)
    (reached : scene.follow walk place steps = .ok target) :
    scene.LooksAt target := by
  induction steps generalizing place with
  | nil =>
      obtain rfl : place = target := by simpa [Scene.follow] using reached
      exact looks
  | cons step steps ih =>
      unfold Scene.follow at reached
      split at reached
      next child found =>
        exact ih (looks.stepChildren (List.mem_of_find?_eq_some found)) reached
      · simp at reached

theorem LooksAt.contextLeaf (looks : scene.LooksAt place) :
    scene.LooksAt (scene.contextLeaf place) := by
  unfold Scene.contextLeaf
  dsimp only
  cases found : (place :: scene.ancestors place).find? fun ref =>
      scene.kind? ref == some .leaf || scene.kind? ref == some .leafList with
  | none => exact looks
  | some leaf =>
      obtain rfl | around :=
        List.mem_cons.mp (List.mem_of_find?_eq_some found)
      · exact looks
      · exact looks.ancestor around

theorem LooksAt.stepOut (looks : scene.LooksAt place)
    (out : scene.stepOut place = .into target) : scene.LooksAt target := by
  unfold Scene.stepOut at out
  split at out
  · simp at out
  next parent rest enclosing =>
    have around : parent ∈ scene.ancestors place :=
      (List.dropWhile_sublist _).mem (enclosing ▸ List.mem_cons_self)
    have parentLooks := looks.ancestor around
    split at out
    next body isAugment =>
      split at out
      next bound linked =>
        obtain rfl := StepOut.into.inj out
        exact parentLooks.link (links_of_construct isAugment rfl linked)
      · simp at out
    · simp at out
    · obtain rfl := StepOut.into.inj out
      exact parentLooks

theorem LooksAt.dataParent {path : String} {uses rest : List NodeRef}
    (looks : scene.LooksAt place)
    (instances : ∀ ref ∈ uses, scene.LooksAt ref)
    (out : scene.dataParent path place uses = .ok (target, rest)) :
    scene.LooksAt target ∧ ∀ ref ∈ rest, scene.LooksAt ref := by
  induction uses generalizing place with
  | nil =>
      unfold Scene.dataParent at out
      split at out <;> try simp at out
      next parent into =>
        obtain ⟨rfl, rfl⟩ := out
        exact ⟨looks.stepOut into, by simp⟩
  | cons first others ih =>
      obtain ⟨firstLooks, othersLook⟩ := List.forall_mem_cons.mp instances
      unfold Scene.dataParent at out
      split at out
      · simp at out
      · simp at out
      next parent into =>
        simp only [Except.ok.injEq, Prod.mk.injEq] at out
        obtain ⟨rfl, rfl⟩ := out
        exact ⟨looks.stepOut into, instances⟩
      · exact ih firstLooks othersLook out

theorem LooksAt.climb {path : String} {count : Nat} {uses : List NodeRef}
    (looks : scene.LooksAt place)
    (instances : ∀ ref ∈ uses, scene.LooksAt ref)
    (reached : scene.climb path count place uses = .ok target) :
    scene.LooksAt target := by
  induction count generalizing place uses with
  | zero =>
      obtain rfl : place = target := by simpa [Scene.climb] using reached
      exact looks
  | succ count ih =>
      obtain ⟨⟨parent, rest⟩, out, reached⟩ := bind_eq_ok_iff.mp reached
      obtain ⟨parentLooks, restLooks⟩ := looks.dataParent instances out
      exact ih parentLooks restLooks reached

theorem LooksAt.leafref {text : String} {uses : List NodeRef}
    (looks : scene.LooksAt place)
    (instances : ∀ ref ∈ uses, scene.LooksAt ref)
    (reached : scene.leafref place text uses = .ok target) :
    scene.LooksAt target ∧
      (scene.kind? target).any isLeafKind = true := by
  obtain ⟨path, parsed, -⟩ := bind_eq_ok_iff.mp reached
  obtain ⟨path, parsed⟩ : ∃ path, LeafrefPath.parse text = .ok path := by
    cases parsing : LeafrefPath.parse text with
    | ok path => exact ⟨path, rfl⟩
    | error error => simp [parsing, Except.mapError] at parsed
  obtain ⟨start, starts, followed, isLeaf⟩ :=
    (leafref_eq_ok_iff_follow parsed).mp reached
  refine ⟨LooksAt.follow ?_ followed, isLeaf⟩
  unfold leafrefStart at starts
  split at starts
  · exact looks.moduleRoot starts
  · exact looks.contextLeaf.climb instances starts

/-- An augment is bound to a node that can be augmented. -/
theorem LooksAt.augmentTarget {text : String} (looks : scene.LooksAt place)
    (reached : scene.augmentTarget place text = .ok target) :
    scene.LooksAt target ∧ ∃ kind ∈ ReferenceKind.augment.targetKinds,
      scene.kind? target = some kind := by
  simp only [Scene.augmentTarget, bind_eq_ok_iff] at reached
  obtain ⟨path, _, start, starts, found, followed, reached⟩ := reached
  have startLooks : scene.LooksAt start := by
    unfold augmentStart at starts
    split at starts
    · exact looks.moduleRoot starts
    · split at starts
      next body isUses =>
        obtain ⟨uses, around, isUses⟩ := Option.bind_eq_some_iff.mp isUses
        split at starts
        next grouping linked =>
          obtain rfl := Except.ok.inj starts
          exact (looks.ancestor (List.mem_of_mem_head? around)).link
            (links_of_construct isUses rfl linked)
        · simp at starts
      · simp at starts
  have foundLooks := startLooks.follow followed
  split at reached <;> simp at reached
  all_goals
    subst reached
    refine ⟨foundLooks, _, ?_, by assumption⟩
    simp [ReferenceKind.targetKinds]

/-- Every typedef of a chain is looked at. -/
theorem LooksAt.chainEnd {bound : Nat} {chain : List NodeRef}
    {layers : List TypeUse} {found : ChainEnd} (looks : scene.LooksAt place)
    (reached : scene.chainEnd bound place chain layers = .ok found) :
    scene.LooksAt found.typedef := by
  induction bound generalizing place chain layers with
  | zero => simp [Scene.chainEnd] at reached
  | succ bound ih =>
      unfold Scene.chainEnd at reached
      split at reached
      · simp at reached
      · dsimp only at reached
        split at reached
        · obtain rfl := Except.ok.inj reached
          exact looks
        · obtain ⟨next, named, reached⟩ := bind_eq_ok_iff.mp reached
          split at reached
          · simp at reached
          · exact ih (looks.lexical named) reached

/-- The nodes that a derivation names. -/
theorem LooksAt.derive {use : TypeUse} {derivation : Derivation}
    {ending : ChainEnd} (looks : scene.LooksAt place)
    (along : scene.DerivesAlong place use derivation ending) :
    scene.LooksAt derivation.typedef ∧ scene.LooksAt ending.typedef ∧
      ∀ identity, derivation.identity = some identity →
        scene.LooksAt identity := by
  have first := looks.lexical along.found
  have last := first.chainEnd along.reached
  refine ⟨first, last, fun identity is => ?_⟩
  obtain ⟨name, found⟩ := along.identity identity is
  exact last.topLevel found

/-- A reference for a member of a union names the union and its consumer. -/
theorem memberReferences_names {source : SourceId} {item reference : Reference}
    {slot : TypeSlot} {typedefs : List NodeRef} {bound : Nat}
    {union ref : NodeRef} (looks : scene.LooksAt union)
    (expanded : ∀ typedef ∈ typedefs, scene.LooksAt typedef)
    (consumer : scene.LooksAt ⟨source, item.consumer⟩)
    (place : scene.LooksAt ⟨source, slot.node⟩)
    (made : reference ∈ scene.memberReferences item slot typedefs bound union)
    (named : reference.Names source ref) : scene.LooksAt ref := by
  induction bound generalizing union with
  | zero => simp [memberReferences] at made
  | succ bound ih =>
      unfold memberReferences at made
      split at made
      next members isUnion =>
        obtain ⟨⟨use, member⟩, listed, made⟩ := List.mem_flatMap.mp made
        dsimp only at made
        split at made
        next nested _ inNode =>
          have declared : (Construct.union members).typeAt? (some member) =
              some use := by
            simpa [Construct.typeAt?] using
              List.mk_mem_zipIdx_iff_getElem?.mp listed
          exact ih (looks.members isUnion declared inNode) made
        · simp at made
        · have written : memberReference? item slot union typedefs member use =
              some reference := by simpa using made
          obtain ⟨sameConsumer, samePlace, pending, origin⟩ :=
            memberReference?_eq_some written
          cases named with
          | consumer => exact sameConsumer ▸ consumer
          | place => exact samePlace ▸ place
          | resolved state => simp [pending] at state
          | union origin' => simp_all
          | typedef origin' listed =>
              simp only [origin, Option.some.injEq,
                Origin.unionMember.injEq] at origin'
              obtain ⟨-, -, rfl⟩ := origin'
              exact expanded _ listed
          | leaf origin' => simp [origin] at origin'
          | uses origin' => simp [origin] at origin'
      · simp at made

/-- A grouping that has been found does not enclose its use. -/
theorem grouping_eq_ok_iff {name : QualifiedName} :
    scene.grouping place name = .ok target ↔
      scene.lexical place name .grouping = .ok target ∧
        target ∉ scene.ancestors place := by
  simp only [grouping, bind_eq_ok_iff]
  constructor
  · rintro ⟨found, lexical, free⟩
    split at free
    · simp at free
    next outside =>
      obtain rfl := pure_eq_ok_iff.mp free
      exact ⟨lexical, outside⟩
  · rintro ⟨lexical, outside⟩
    exact ⟨target, lexical, by simp [outside]⟩

section

variable {source : SourceId} {item reference : Reference} {ref : NodeRef}
  (looks : ∀ {ref}, item.Names source ref → scene.LooksAt ref)
include looks

theorem expandedTypedefs_looks :
    ∀ typedef ∈ expandedTypedefs item, scene.LooksAt typedef := by
  intro typedef listed
  unfold expandedTypedefs at listed
  split at listed
  next origin => exact looks (.typedef origin listed)
  · simp at listed

theorem unionReferences_names {slot : TypeSlot} {typedef : NodeRef}
    {members : List Reference} (kind : item.kind = .derivedType slot)
    (typedefLooks : scene.LooksAt typedef)
    (made : scene.unionReferences item slot typedef = .ok members)
    (member : reference ∈ members) (named : reference.Names source ref) :
    scene.LooksAt ref := by
  unfold unionReferences at made
  dsimp only at made
  split at made
  · simp at made
  · split at made
    · obtain rfl : [] = members := by simpa using made
      simp at member
    next union inNode =>
      obtain rfl := Except.ok.inj made
      obtain ⟨use, declared, inNode⟩ := Option.bind_eq_some_iff.mp inNode
      obtain ⟨construct, found, declared⟩ := Option.bind_eq_some_iff.mp declared
      have declared : construct.typeAt? none = some use := declared
      have place : scene.LooksAt ⟨source, slot.node⟩ := by
        simpa [Reference.place, kind] using looks .place
      refine memberReferences_names
        (typedefLooks.members found declared inNode) ?_ (looks .consumer) place
        member named
      exact List.forall_mem_append.mpr
        ⟨expandedTypedefs_looks looks, by simpa using typedefLooks⟩

theorem derivedUse_looks {slot : TypeSlot} {place : NodeRef}
    {use? : Option TypeUse} (kind : item.kind = .derivedType slot)
    (written : scene.derivedUse source item slot = (place, use?)) :
    scene.LooksAt place := by
  unfold derivedUse at written
  split at written
  next union member typedefs origin =>
    obtain ⟨rfl, -⟩ := Prod.mk.inj written
    exact looks (.union origin)
  · obtain ⟨rfl, -⟩ := Prod.mk.inj written
    simpa [Reference.place, kind] using looks .place

theorem referencePlace_looks : scene.LooksAt (referencePlace source item) := by
  unfold referencePlace
  split
  next origin => exact looks (.union origin)
  · exact looks .consumer

/-- A target that has been found is of a kind that the reference asks for. -/
theorem Found.target_looks (found : scene.Found source item (.target target)) :
    scene.LooksAt target ∧ ∃ kind ∈ item.kind.targetKinds,
      scene.kind? target = some kind := by
  have placeLooks := referencePlace_looks looks
  have named {kind : ConstructKind} {name : String}
      (found : ∃ node, scene.node? target = some node ∧ node.kind = kind ∧
        node.name = name) : scene.kind? target = some kind := by
    obtain ⟨node, known, rfl, -⟩ := found
    simp [kind?, known]
  have leafKind (isLeaf : (scene.kind? target).any isLeafKind = true) :
      ∃ kind ∈ [ConstructKind.leaf, .leafList],
        scene.kind? target = some kind := by
    obtain ⟨kind, isKind, leaf⟩ := (Option.any_eq_true _ _).mp isLeaf
    exact ⟨kind, by simpa [isLeafKind] using leaf, isKind⟩
  cases found with
  | uses kind found =>
      rw [kind]
      have enclosing := (grouping_eq_ok_iff.mp found).1
      exact ⟨placeLooks.lexical enclosing, _, List.mem_singleton_self _,
        named (lexical_names enclosing)⟩
  | base kind found | identityref kind found | ifFeature kind found =>
      rw [kind]
      exact ⟨placeLooks.topLevel found, _, List.mem_singleton_self _,
        named (topLevel_names found)⟩
  | instantiated kind origin found =>
      rw [kind]
      obtain ⟨targetLooks, isLeaf⟩ := (looks (.leaf origin)).leafref
        (fun uses listed => looks (.uses origin listed)) found
      exact ⟨targetLooks, leafKind isLeaf⟩
  | leafref kind found =>
      rw [kind]
      have leafLooks := looks .place
      simp only [Reference.place, kind] at leafLooks
      obtain ⟨targetLooks, isLeaf⟩ :=
        leafLooks.leafref (List.forall_mem_nil _) found
      exact ⟨targetLooks, leafKind isLeaf⟩
  | augment kind found =>
      rw [kind]
      exact placeLooks.augmentTarget found

/-- The references for the members of a union name nodes that linking looks
at. -/
theorem Found.members_looks {derivation : Derivation}
    {members : List Reference}
    (found : scene.Found source item (.derived derivation members))
    (member : reference ∈ members) (named : reference.Names source ref) :
    scene.LooksAt ref := by
  cases found with
  | derived kind written derived made =>
      obtain rfl | ⟨typedef, ends, made⟩ := made
      · simp at member
      · have placeLooks := derivedUse_looks looks kind written
        obtain ⟨ending, along⟩ := derive_eq_ok derived
        obtain rfl : ending.typedef = typedef := by
          rw [along.membersFrom] at ends
          split at ends <;> simp_all
        exact unionReferences_names looks kind (placeLooks.derive along).2.1 made
          member named

end

/-- The leafrefs below a place of a grouping, with the `uses` on the way. -/
theorem LooksAt.leafrefsBelow {bound : Nat} {chain expanding : List NodeRef}
    {leafref : Linking.GroupingLeafref} (looks : scene.LooksAt place)
    (chainLooks : ∀ uses ∈ chain, scene.LooksAt uses)
    (found : leafref ∈
      Linking.leafrefsBelow scene bound place chain expanding) :
    scene.LooksAt leafref.leaf ∧ ∀ uses ∈ leafref.uses, scene.LooksAt uses := by
  induction bound generalizing place chain expanding with
  | zero => simp [Linking.leafrefsBelow] at found
  | succ bound ih =>
      unfold Linking.leafrefsBelow at found
      obtain ⟨child, inside, found⟩ := List.mem_flatMap.mp found
      have within : scene.LooksAt child := looks.child inside
      split at found
      · simp at found
      next body isUses =>
        split at found
        · simp at found
        next grouping bound =>
          split at found
          · simp at found
          · refine ih (within.link (links_of_construct isUses rfl bound)) ?_
              found
            exact List.forall_mem_cons.mpr ⟨within, chainLooks⟩
      · obtain ⟨path, -, rfl⟩ := List.mem_map.mp found
        exact ⟨within, chainLooks⟩
      · obtain ⟨path, -, rfl⟩ := List.mem_map.mp found
        exact ⟨within, chainLooks⟩
      · simp at found
      · simp at found
      · simp at found
      · exact ih within chainLooks found

/-- The references that a `uses` instantiates. -/
theorem instances_names {unit : LinkUnit} {item reference : Reference}
    {ref : NodeRef}
    (looks : ∀ {ref}, item.Names unit.source ref → scene.LooksAt ref)
    (made : reference ∈ Linking.instances scene unit item)
    (named : reference.Names unit.source ref) : scene.LooksAt ref := by
  unfold Linking.instances at made
  split at made
  next target kind state =>
    split at made
    · simp at made
    · obtain ⟨leafref, below, rfl⟩ := List.mem_map.mp made
      obtain ⟨leafLooks, usesLook⟩ := (looks (.resolved state)).leafrefsBelow
        (by simpa using looks .consumer) below
      cases named with
      | consumer => exact looks .consumer
      | place => exact looks .consumer
      | resolved state => simp [Reference.ofText] at state
      | union origin => simp at origin
      | typedef origin => simp at origin
      | leaf origin =>
          obtain ⟨rfl, -⟩ := by simpa using origin
          exact leafLooks
      | uses origin listed =>
          obtain ⟨-, rfl⟩ := by simpa using origin
          exact usesLook _ listed
  · simp at made

end Scene

end YangSchema
