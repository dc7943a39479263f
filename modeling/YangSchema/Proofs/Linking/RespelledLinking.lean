import YangSchema.Proofs.Linking.RespelledReferences
import YangSchema.Proofs.Linking.Settling

/-!
# Linking under another prefix

Two runs are compared round by round.  Units that differ in the spelling of a
prefix have references with the same outcomes, and after these are written down
they still differ in nothing else.
-/

namespace YangSchema

namespace Respelling

variable {ρ : Respelling} {source : SourceId}

section

variable {tree tree' : SchemaTree} (trees : ρ.Trees tree tree')
include trees

theorem Trees.modifyConstruct (id : NodeId)
    {change change' : Construct → Construct}
    (keeps : ∀ {construct construct'},
      ρ.Constructs tree.source construct construct' →
        ρ.Constructs tree.source (change construct) (change' construct')) :
    ρ.Trees (tree.modifyConstruct id change)
      (tree'.modifyConstruct id change') := by
  refine ⟨trees.source, fun other => ?_⟩
  rw [SchemaTree.node?_modifyConstruct, SchemaTree.node?_modifyConstruct]
  split
  · refine rel_map (trees.nodes other) fun {node node'} nodes => ?_
    refine ⟨?_, keeps nodes.construct, nodes.metadata⟩
    rw [nodes.rest]
  · exact trees.nodes other

theorem Trees.modifyMetadata (id : NodeId) {change : Metadata → Metadata}
    (keeps : ∀ {metadata metadata'}, Metadatas metadata metadata' →
      Metadatas (change metadata) (change metadata')) :
    ρ.Trees (tree.modifyMetadata id change)
      (tree'.modifyMetadata id change) := by
  refine ⟨trees.source, fun other => ?_⟩
  rw [SchemaTree.node?_modifyMetadata, SchemaTree.node?_modifyMetadata]
  split
  · refine rel_map (trees.nodes other) fun {node node'} nodes => ?_
    refine ⟨?_, nodes.construct, keeps nodes.metadata⟩
    rw [nodes.rest]
  · exact trees.nodes other

end

/-- The same links are written into both types. -/
theorem Types.relink {use use' : TypeUse} (types : ρ.Types source use use')
    (change : TypeLinks → TypeLinks) :
    ρ.Types source (SchemaTree.relink change use)
      (SchemaTree.relink change use') where
  rest := congrArg (SchemaTree.relink change) types.rest
  name := types.name
  path := types.path
  base := types.base

theorem Constructs.mapTypeAt {construct construct' : Construct}
    (constructs : ρ.Constructs source construct construct')
    {change : TypeUse → TypeUse} (member : Option Nat)
    (keeps : ∀ {use use'}, ρ.Types source use use' →
      ρ.Types source (change use) (change use')) :
    ρ.Constructs source (construct.mapTypeAt change member)
      (construct'.mapTypeAt change member) := by
  have kept := constructs
  cases member with
  | none =>
      cases constructs with
      | leaf default types => exact .leaf default (rel_map types keeps)
      | leafList types => exact .leafList (rel_map types keeps)
      | typedef default types => exact .typedef default (rel_map types keeps)
      | plain plain =>
          cases construct <;> first
            | exact kept
            | simp [Construct.kind] at plain
      | _ => exact kept
  | some index =>
      cases constructs with
      | union types => exact .union (forall₂_modify types index fun _ => keeps)
      | plain plain =>
          cases construct <;> first
            | exact kept
            | simp [Construct.kind] at plain
      | _ => exact kept

theorem Trees.modifyLinks {tree tree' : SchemaTree} (trees : ρ.Trees tree tree')
    (slot : TypeSlot) (change : TypeLinks → TypeLinks) :
    ρ.Trees (tree.modifyLinks slot change)
      (tree'.modifyLinks slot change) := by
  rw [SchemaTree.modifyLinks_eq, SchemaTree.modifyLinks_eq]
  exact trees.modifyConstruct slot.node fun constructs =>
    constructs.mapTypeAt slot.member (·.relink change)

section

variable {tree tree' : SchemaTree} (trees : ρ.Trees tree tree')
  {item item' : Reference} (kind : item'.kind = item.kind)
  (consumer : item'.consumer = item.consumer)
  (origin : item'.origin = item.origin)
include trees origin

include kind consumer in
/-- The same target is written into both trees. -/
theorem Trees.bindTarget (target : NodeRef) :
    ρ.Trees (LinkUnit.bindTarget tree item target)
      (LinkUnit.bindTarget tree' item' target) := by
  unfold LinkUnit.bindTarget
  rw [kind, consumer, origin]
  split
  · exact trees
  · cases item.kind with
    | uses =>
        refine trees.modifyConstruct _ fun {construct construct'} same => ?_
        have kept := same
        cases same with
        | uses grouping refines => exact .uses grouping refines
        | plain plain =>
            cases construct <;> first
              | exact kept
              | simp [Construct.kind] at plain
        | _ => exact kept
    | augment =>
        refine trees.modifyConstruct _ fun {construct construct'} same => ?_
        have kept := same
        cases same with
        | augment targetPath => exact .augment targetPath
        | plain plain =>
            cases construct <;> first
              | exact kept
              | simp [Construct.kind] at plain
        | _ => exact kept
    | base =>
        refine trees.modifyConstruct _ fun {construct construct'} same => ?_
        have kept := same
        cases same with
        | identity base => exact .identity base
        | plain plain =>
            cases construct <;> first
              | exact kept
              | simp [Construct.kind] at plain
        | _ => exact kept
    | ifFeature index =>
        refine trees.modifyMetadata _ fun {metadata metadata'} same => ?_
        have targets (features : List IfFeature) :
            (features.modify index fun feature =>
              { feature with target := some target }).map (·.target) =
              (features.map (·.target)).modify index fun _ => some target := by
          apply List.ext_getElem?
          intro place
          simp only [List.getElem?_map, List.getElem?_modify]
          split <;> cases features[place]? <;> rfl
        unfold Metadatas at same ⊢
        rw [targets, targets, same]
    | identityref slot => exact trees.modifyLinks slot _
    | leafref slot => exact trees.modifyLinks slot _
    | derivedType slot => exact trees

/-- The same derivation is written into both trees. -/
theorem Trees.bindDerivation {leads : TypePlace → TypePlace → Prop}
    {place : TypePlace} {derivation derivation' : Derivation} (slot : TypeSlot)
    (same : ρ.Derivations leads place derivation derivation') :
    ρ.Trees (LinkUnit.bindDerivation tree item slot derivation)
      (LinkUnit.bindDerivation tree' item' slot derivation') := by
  unfold LinkUnit.bindDerivation
  rw [origin, same.rest]
  split
  · exact trees
  · exact trees.modifyLinks slot _

end

section

variable {leads : TypePlace → TypePlace → Prop} {item item' : Reference}
  (items : ρ.Items leads source item item')
include items

/-- The reference to a leafref path at the end of a chain is like the one that
brings it in. -/
theorem Items.chainLeafref {slot : TypeSlot}
    {derivation derivation' : Derivation}
    (kind : item.kind = .derivedType slot)
    (same : ρ.Derivations leads (item.derivedPlace source slot) derivation
      derivation') :
    List.Forall₂ (ρ.Items leads source)
      (LinkUnit.chainLeafref item slot derivation)
      (LinkUnit.chainLeafref item' slot derivation') := by
  unfold LinkUnit.chainLeafref
  rw [items.consumer, items.position, items.span, items.origin]
  rcases rel_cases same.leafref with
    ⟨before, after⟩ | ⟨path, path', before, after, home, paths, apart⟩
  · rw [before, after]
    exact .nil
  · rw [before, after]
    obtain ⟨root, own, here, further⟩ := items.text.root kind
    refine .cons ⟨rfl, rfl, rfl, rfl, rfl, .same _, ?_⟩ .nil
    refine .leafref home rfl paths fun begins => ?_
    have side := apart root further begins
    rw [own, ← here] at side
    exact side

theorem Items.waitsForUses {tree tree' : SchemaTree}
    (trees : ρ.Trees tree tree')
    (slot : TypeSlot) :
    LinkUnit.waitsForUses tree' slot item' =
      LinkUnit.waitsForUses tree slot item := by
  unfold LinkUnit.waitsForUses
  rw [items.kind, trees.isWithin]
  cases kind : item.kind with
  | leafref slot =>
      obtain ⟨_, paths, -⟩ := items.text.pathText kind
      rw [paths.absolute]
  | _ => rfl

/-- What a derived type adds to the queues. -/
theorem Items.followUps {tree tree' : SchemaTree} (trees : ρ.Trees tree tree')
    {slot : TypeSlot} {derivation derivation' : Derivation}
    {members members' : List Reference} (kind : item.kind = .derivedType slot)
    (same : ρ.Derivations leads (item.derivedPlace source slot) derivation
      derivation')
    (made : List.Forall₂ (ρ.Items leads source) members members') :
    List.Forall₂ (ρ.Items leads source)
      (LinkUnit.followUps tree item slot derivation members)
      (LinkUnit.followUps tree' item' slot derivation' members') := by
  refine List.rel_filter (fun {reference reference'} relates => ?_)
    (List.rel_append made (items.chainLeafref kind same))
  dsimp only
  rw [relates.waitsForUses trees]

theorem Items.withState {state state' : ReferenceState}
    (states : ρ.States state state') :
    ρ.Items leads source { item with state }
      { item' with state := state' } := by
  refine ⟨items.kind, items.consumer, items.position, items.span, items.origin,
    states, ?_⟩
  cases items.text with
  | leafref home kind paths apart => exact .leafref home kind paths apart
  | augment kind paths => exact .augment kind paths
  | derived kind spells plain own here further =>
      exact .derived kind spells plain own here further
  | name kind direct names => exact .name kind direct names

end

theorem States.isPending {item item' : Reference}
    (states : ρ.States item.state item'.state) :
    item'.isPending = item.isPending := by
  unfold Reference.isPending
  generalize item.state = state at states ⊢
  generalize item'.state = state' at states ⊢
  cases states <;> rfl

/-- References that are the same but for the spelling of the prefix in their
texts and in those of failures. -/
structure Resembles (ρ : Respelling) (item item' : Reference) : Prop where
  kind : item'.kind = item.kind
  text : ρ.Spells item.text item'.text
  consumer : item'.consumer = item.consumer
  position : item'.position = item.position
  span : item'.span = item.span
  origin : item'.origin = item.origin
  states : ρ.States item.state item'.state

theorem Items.resembles {leads : TypePlace → TypePlace → Prop}
    {item item' : Reference} (items : ρ.Items leads source item item') :
    ρ.Resembles item item' where
  kind := items.kind
  text := items.text.spells
  consumer := items.consumer
  position := items.position
  span := items.span
  origin := items.origin
  states := items.states

/-- Two units that differ in the spelling of the prefix.  The references of a
unit that is not usable are never read. -/
structure Links (ρ : Respelling) (leads : TypePlace → TypePlace → Prop)
    (unit unit' : LinkUnit) : Prop where
  units : ρ.Units unit unit'
  resembles : List.Forall₂ ρ.Resembles unit.queue unit'.queue
  items : unit.usable = true →
    List.Forall₂ (ρ.Items leads unit.source) unit.queue unit'.queue

section

variable {leads : TypePlace → TypePlace → Prop}

/-- The same place of both queues gets states that are alike. -/
theorem setState_items {queue queue' : ReferenceQueue}
    (items : List.Forall₂ (ρ.Items leads source) queue queue') (index : Nat)
    {state state' : ReferenceState} (states : ρ.States state state') :
    List.Forall₂ (ρ.Items leads source) (queue.setState index state)
      (queue'.setState index state') :=
  forall₂_modify items index fun _ same => same.withState states

theorem Links.of_items {unit unit' : LinkUnit} (units : ρ.Units unit unit')
    (items : List.Forall₂ (ρ.Items leads unit.source) unit.queue unit'.queue) :
    ρ.Links leads unit unit' :=
  ⟨units, items.imp fun _ _ => Items.resembles, fun _ => items⟩

/-- Outcomes that are alike are written down. -/
theorem Links.apply {unit unit' : LinkUnit} (links : ρ.Links leads unit unit')
    (usable : unit.usable = true) {index : Nat} {item : Reference}
    (queued : unit.queue[index]? = some item) {outcome outcome' : Outcome}
    (same : ρ.Outcomes leads unit.source item outcome outcome') :
    ρ.Links leads (unit.apply index outcome) (unit'.apply index outcome') := by
  have others := rel_getElem? (links.items usable) index
  rw [queued] at others
  obtain ⟨_, item', found, queued', items⟩ :=
    (rel_cases others).resolve_left (by simp)
  obtain rfl := Option.some.inj found
  have queues := links.items usable
  obtain ⟨trees, usable, deferred⟩ := links.units
  unfold LinkUnit.apply
  rw [queued, queued']
  cases same with
  | failed spells =>
      exact .of_items ⟨trees, usable, deferred⟩
        (setState_items queues index (.failed spells))
  | @derived slot derivation derivation' members members' kind derivations
      made =>
      have bound := trees.bindDerivation items.origin slot derivations
      have source : (LinkUnit.bindDerivation unit.tree item slot
          derivation).source = unit.tree.source :=
        (LinkUnit.sameText_bindDerivation unit.tree item slot derivation).source
      have typedef : derivation'.typedef = derivation.typedef := by
        rw [derivations.rest]
      simp only [kind, items.kind, typedef]
      refine .of_items ⟨bound, usable, deferred⟩ ?_
      rw [LinkUnit.source, source]
      exact setState_items (List.rel_append queues
        (items.followUps bound kind derivations made)) index (.same _)
  | same plain =>
      cases outcome with
      | pending => exact .of_items ⟨trees, usable, deferred⟩ queues
      | blocked =>
          exact .of_items ⟨trees, usable, deferred⟩
            (setState_items queues index (.same _))
      | failed failure =>
          exact .of_items ⟨trees, usable, deferred⟩
            (setState_items queues index (.same _))
      | target target =>
          refine .of_items ⟨trees.bindTarget items.kind items.consumer
            items.origin target, usable, deferred⟩ ?_
          rw [LinkUnit.source,
            (LinkUnit.sameText_bindTarget unit.tree item target).source]
          exact setState_items queues index (.same _)
      | derived derivation members => exact absurd rfl (plain _ _)

theorem Trees.topAugments {tree tree' : SchemaTree}
    (trees : ρ.Trees tree tree') :
    Scene.topAugments tree' = Scene.topAugments tree := by
  unfold Scene.topAugments
  rw [trees.ids, trees.source]
  congr 1
  funext id
  rcases rel_cases (trees.nodes id) with
    ⟨before, after⟩ | ⟨node, node', before, after, nodes⟩
  · rw [before, after]
  · rw [before, after]
    obtain ⟨name, construct, ancestors, position, span, metadata⟩ := node
    obtain ⟨name', construct', ancestors', position', span', metadata'⟩ := node'
    obtain rfl : ancestors' = ancestors := nodes.ancestors
    have constructs : ρ.Constructs tree.source construct construct' :=
      nodes.construct
    cases constructs with
    | augment =>
        cases ancestors' with
        | nil => rfl
        | cons parent _ => simp only [trees.kind?]
    | plain plain =>
        cases construct <;> first
          | rfl
          | simp [Construct.kind] at plain
    | _ => rfl

/-- Units with another spelling make up a scene with another spelling. -/
theorem scenes_ofUnits {units units' : List LinkUnit}
    (links : List.Forall₂ (ρ.Links leads) units units') (phase : LinkPhase) :
    ρ.Scenes (.ofUnits units phase) (.ofUnits units' phase) where
  units := links.imp fun _ _ same => same.units
  phase := rfl
  augments := by
    dsimp only [Scene.ofUnits]
    induction links with
    | nil => rfl
    | cons same _ ih =>
        rw [List.filter_cons, List.filter_cons, same.units.usable]
        split
        · rw [List.flatMap_cons, List.flatMap_cons, ih,
            same.units.trees.topAugments]
        · exact ih

/-- The outcomes are for the same reference, and are alike. -/
structure Settles (ρ : Respelling) (leads : TypePlace → TypePlace → Prop)
    (units : List LinkUnit) (settled settled' : Linking.Settled) : Prop where
  unit : settled'.unit = settled.unit
  index : settled'.index = settled.index
  outcome : ∃ unit item, units[settled.unit]? = some unit ∧
    unit.usable = true ∧ unit.queue[settled.index]? = some item ∧
    ρ.Outcomes leads unit.source item settled.outcome settled'.outcome

theorem Outcomes.withState {item : Reference} {outcome outcome' : Outcome}
    (same : ρ.Outcomes leads source item outcome outcome')
    (state : ReferenceState) :
    ρ.Outcomes leads source { item with state } outcome outcome' := by
  cases same with
  | same plain => exact .same plain
  | failed spells => exact .failed spells
  | derived kind derivations items => exact .derived kind derivations items

theorem Settles.evolves {units after : List LinkUnit}
    {settled settled' : Linking.Settled}
    (settles : ρ.Settles leads units settled settled')
    (evolves : Linking.Evolves units after) :
    ρ.Settles leads after settled settled' := by
  obtain ⟨sameUnit, sameIndex, unit, item, known, usable, queued, outcomes⟩ :=
    settles
  obtain ⟨unit', known', evolved⟩ := evolves.unit known
  obtain ⟨state, queued'⟩ := evolved.queue queued
  refine ⟨sameUnit, sameIndex, unit', _, known', evolved.usable.trans usable,
    queued', ?_⟩
  rw [LinkUnit.source, evolved.text.source]
  exact outcomes.withState state

theorem applyAll_links {units units' : List LinkUnit}
    {outcomes outcomes' : List Linking.Settled}
    (links : List.Forall₂ (ρ.Links leads) units units')
    (settles : List.Forall₂ (ρ.Settles leads units) outcomes outcomes') :
    List.Forall₂ (ρ.Links leads) (Linking.applyAll units outcomes)
      (Linking.applyAll units' outcomes') := by
  induction outcomes generalizing units units' outcomes' with
  | nil =>
      cases settles
      exact links
  | cons settled rest ih =>
      cases settles with
      | @cons _ settled' _ _ first others =>
          have applied : List.Forall₂ (ρ.Links leads)
              (units.modify settled.unit
                (·.apply settled.index settled.outcome))
              (units'.modify settled'.unit
                (·.apply settled'.index settled'.outcome)) := by
            obtain ⟨sameUnit, sameIndex, unit, item, known, usable, queued,
              same⟩ := first
            rw [sameUnit, sameIndex]
            refine forall₂_modify links settled.unit fun found linked => ?_
            obtain rfl := Option.some.inj (known.symm.trans found)
            exact linked.apply usable queued same
          have later := ih applied (others.imp fun _ _ settles =>
            settles.evolves (Linking.apply_evolves units settled))
          exact later

theorem pendingOfRank_congr {queue queue' : ReferenceQueue}
    (items : List.Forall₂ (ρ.Items leads source) queue queue') (rank : Nat) :
    queue'.pendingOfRank rank = queue.pendingOfRank rank := by
  unfold ReferenceQueue.pendingOfRank
  rw [items.length_eq]
  congr 1
  funext index
  rcases rel_cases (rel_getElem? items index) with
    ⟨before, after⟩ | ⟨_, _, before, after, same⟩
  · rw [before, after]
  · rw [before, after]
    simp only [same.states.isPending, same.kind]

/-- Two runs of linking that differ in the spelling of the prefix. -/
structure Runs (ρ : Respelling) (phase : LinkPhase)
    (leads : TypePlace → TypePlace → Prop) (units units' : List LinkUnit) :
    Prop where
  links : List.Forall₂ (ρ.Links leads) units units'
  leads : (Scene.ofUnits units phase).Involves = leads
  apart : ρ.KeptApart (Scene.ofUnits units phase)
  distinct : (units.map (·.source)).Nodup

theorem Runs.evolves {phase : LinkPhase}
    {units units' after after' : List LinkUnit}
    (runs : ρ.Runs phase leads units units')
    (evolves : Linking.Evolves units after)
    (links : List.Forall₂ (ρ.Links leads) after after') :
    ρ.Runs phase leads after after' := by
  obtain ⟨agree, scopes, size⟩ :=
    @Scene.evolves_looks_up phase _ _ runs.distinct evolves
  have later := Scene.Anticipates.of_scopes agree scopes size
  have earlier := Scene.Anticipates.of_scopes
    (fun source => (agree source).symm)
    (fun source qualifier => (scopes source qualifier).symm) size.symm
  have same : (Scene.ofUnits after phase).Involves =
      (Scene.ofUnits units phase).Involves := by
    funext first last
    exact propext ⟨(·.anticipated earlier), (·.anticipated later)⟩
  refine ⟨links, same.trans runs.leads,
    fun further declared builtin written => ?_,
    evolves.map_source ▸ runs.distinct⟩
  obtain ⟨use, declared', unlinked⟩ :=
    Scene.typeAt?_later (agree _).symm declared
  have builtin' : use.builtin = _ := congrArg (·.builtin) unlinked
  have written' : use.path = _ := congrArg (·.path) unlinked
  exact runs.apart (same ▸ further) declared' (builtin'.trans builtin)
    (written'.trans written)

theorem Outcomes.isPending {item : Reference} {outcome outcome' : Outcome}
    (same : ρ.Outcomes leads source item outcome outcome') :
    outcome' = .pending ↔ outcome = .pending := by
  cases same <;> simp

/-- References of one rank have outcomes that are alike. -/
theorem Runs.rankOutcomes {phase : LinkPhase} {units units' : List LinkUnit}
    (runs : ρ.Runs phase leads units units') (rank : Nat) :
    List.Forall₂ (ρ.Settles leads units)
      (Linking.rankOutcomes units phase rank)
      (Linking.rankOutcomes units' phase rank) := by
  have scenes := scenes_ofUnits runs.links phase
  unfold Linking.rankOutcomes
  dsimp only
  refine List.rel_flatMap (rel_zipIdx runs.links) ?_
  rintro ⟨unit, place⟩ ⟨unit', place'⟩ ⟨same, known, links⟩
  obtain rfl : place' = place := same
  replace known : units[place']? = some unit := known
  replace links : ρ.Links leads unit unit' := links
  dsimp only
  rw [links.units.usable]
  split
  next usable =>
    rw [pendingOfRank_congr (links.items usable)]
    refine rel_filterMap (List.forall₂_same.mpr fun _ _ => rfl)
      fun {index _} same => ?_
    subst same
    rcases rel_cases (rel_getElem? (links.items usable) index) with
      ⟨before, after⟩ | ⟨item, item', before, after, items⟩
    · rw [before, after]
      exact .none
    · rw [before, after]
      have sources : unit'.source = unit.source := links.units.trees.source
      have outcomes := outcome scenes runs.apart (runs.leads ▸ items)
      rw [runs.leads] at outcomes
      simp only [Option.bind_some, sources]
      generalize (Scene.ofUnits units phase).outcome unit.source item = first
        at outcomes ⊢
      generalize (Scene.ofUnits units' phase).outcome unit.source item' = second
        at outcomes ⊢
      by_cases pending : first = .pending
      · rw [pending, outcomes.isPending.mpr pending]
        exact .none
      · have pending' := mt outcomes.isPending.mp pending
        cases first <;> cases second <;> first
          | exact .some ⟨rfl, rfl, unit, item, known, usable, before, outcomes⟩
          | contradiction
  · exact .nil

theorem Runs.roundFrom {phase : LinkPhase} (ranks rank : Nat)
    {units units' : List LinkUnit} (runs : ρ.Runs phase leads units units') :
    ρ.Runs phase leads (Linking.roundFrom phase ranks rank units).1
        (Linking.roundFrom phase ranks rank units').1 ∧
      (Linking.roundFrom phase ranks rank units').2 =
        (Linking.roundFrom phase ranks rank units).2 := by
  induction ranks generalizing rank units units' with
  | zero => exact ⟨runs, rfl⟩
  | succ ranks ih =>
      have settles := runs.rankOutcomes rank
      obtain ⟨further, progress⟩ := ih (rank + 1)
        (runs.evolves (Linking.applyAll_evolves units _)
          (applyAll_links runs.links settles))
      have empty : (Linking.rankOutcomes units' phase rank).isEmpty =
          (Linking.rankOutcomes units phase rank).isEmpty := by
        generalize Linking.rankOutcomes units phase rank = first at settles ⊢
        generalize Linking.rankOutcomes units' phase rank = second
          at settles ⊢
        cases settles <;> rfl
      refine ⟨further, ?_⟩
      unfold Linking.roundFrom
      dsimp only
      rw [progress, empty]

theorem Runs.repeatRounds {phase : LinkPhase} (bound : Nat)
    {units units' : List LinkUnit} (runs : ρ.Runs phase leads units units') :
    ρ.Runs phase leads (Linking.repeatRounds phase bound units)
      (Linking.repeatRounds phase bound units') := by
  induction bound generalizing units units' with
  | zero => exact runs
  | succ bound ih =>
      obtain ⟨further, progress⟩ := runs.roundFrom ReferenceKind.rankCount 0
      unfold Linking.repeatRounds Linking.round
      generalize Linking.roundFrom phase ReferenceKind.rankCount 0 units = first
        at further progress ⊢
      generalize Linking.roundFrom phase ReferenceKind.rankCount 0 units' =
        second at further progress ⊢
      obtain ⟨after, again⟩ := first
      obtain ⟨after', again'⟩ := second
      obtain rfl : again' = again := progress
      cases again' with
      | true => exact ih further
      | false => exact further

/-- Both runs may take the same number of rounds. -/
theorem Runs.potential {phase : LinkPhase} {units units' : List LinkUnit}
    (runs : ρ.Runs phase leads units units') :
    Linking.potential units' = Linking.potential units := by
  have scenes := scenes_ofUnits runs.links phase
  have nodes : Linking.nodeTotal units' = Linking.nodeTotal units :=
    scenes.nodeCount
  have types : Linking.typeTotal units' = Linking.typeTotal units :=
    typeTotal_congr scenes.units
  have weights {item item' : Reference} (same : ρ.Resembles item item') :
      Linking.weight units' item' = Linking.weight units item := by
    unfold Linking.weight
    rw [types, nodes, expandedTypedefs_congr same.origin]
  have queues : List.Forall₂ ρ.Resembles (units.flatMap (·.queue))
      (units'.flatMap (·.queue)) :=
    List.rel_flatMap runs.links fun unit unit' links => links.resembles
  have pending : List.Forall₂ ρ.Resembles
      ((units.flatMap (·.queue)).filter (·.isPending))
      ((units'.flatMap (·.queue)).filter (·.isPending)) := by
    refine List.rel_filter (fun {item item'} same => ?_) queues
    dsimp only
    rw [same.states.isPending]
  unfold Linking.potential
  rw [foldl_add_eq, foldl_add_eq]
  exact congrArg (0 + List.sum ·) (map_eq_of_forall₂ pending weights)

theorem Runs.settle {phase : LinkPhase} {units units' : List LinkUnit}
    (runs : ρ.Runs phase leads units units') :
    ρ.Runs phase leads (Linking.settle phase units)
      (Linking.settle phase units') := by
  unfold Linking.settle
  rw [runs.potential]
  exact runs.repeatRounds _

/-- The units with what their groupings bring in. -/
theorem Runs.instantiateGroupings  {units units' : List LinkUnit}
    (runs : ρ.Runs .interFile leads units units') :
    ρ.Runs .interFile leads (Linking.instantiateGroupings units)
      (Linking.instantiateGroupings units') := by
  refine runs.evolves (Linking.instantiateGroupings_evolves units) ?_
  have scenes := scenes_ofUnits runs.links .interFile
  refine List.rel_map ?_ runs.links
  intro unit unit' links
  dsimp only
  rw [links.units.usable]
  split
  next usable =>
    obtain ⟨trees, -, deferred⟩ := links.units
    have queues := links.items usable
    refine .of_items ⟨trees, rfl, deferred⟩ (List.rel_append queues ?_)
    refine List.rel_flatMap queues fun item item' items => ?_
    have made := instances scenes runs.apart links.units (runs.leads ▸ items)
    exact runs.leads ▸ made
  · exact links

theorem Runs.link {phase : LinkPhase} {units units' : List LinkUnit}
    (runs : ρ.Runs phase leads units units') :
    ρ.Runs phase leads (Linking.link phase units)
      (Linking.link phase units') := by
  cases phase with
  | intraFile => exact runs.settle
  | interFile => exact runs.settle.instantiateGroupings.settle

end

end Respelling

end YangSchema
