import YangSchema.Proofs.Compilation.Completeness
import YangSchema.Proofs.Compilation.Phases
import YangSchema.Proofs.Instances.Instantiating

/-!
# Leafrefs that groupings bring in

The references that a `uses` instantiates are queued between two runs to an end.
What a `uses` is bound to is the same at both ends, and so are the statements.  So
in a valid compilation every leaf that a `uses` instantiates has, for each relative
path that its type carries, a reference of its own that is resolved.  The leaves
that an augment under a `uses` adds inside of another grouping are not among them.
-/

namespace YangSchema

theorem SchemaTree.link?_uses_iff {tree : SchemaTree} {id : NodeId}
    {target : NodeRef} :
    tree.link? ⟨id, .uses⟩ = some (.node target) ↔
      ∃ body, tree.construct? id = some (.uses body) ∧
        body.target = some target := by
  rw [link?, Option.bind_eq_some_iff]
  simp only [construct?_eq_some_iff]
  constructor
  · rintro ⟨node, found, linked⟩
    simp only [SchemaNode.link?, Construct.link?] at linked
    split at linked
    next body is => exact ⟨body, ⟨node, found, is⟩, by simpa using linked⟩
    · simp at linked
  · rintro ⟨body, ⟨node, found, is⟩, linked⟩
    exact ⟨node, found, by simp [SchemaNode.link?, Construct.link?, is, linked]⟩

namespace Scene

variable {scene before after : Scene}

theorem usesTarget?_eq_some_iff_link? {uses target : NodeRef} :
    scene.usesTarget? uses = some target ↔
      ∃ tree, scene.tree? uses.source = some tree ∧
        tree.link? ⟨uses.node, .uses⟩ = some (.node target) := by
  simp only [usesTarget?_eq_some_iff, SchemaTree.link?_uses_iff,
    Scene.construct?_eq_some_iff]
  constructor
  · rintro ⟨body, ⟨tree, isTree, isUses⟩, linked⟩
    exact ⟨tree, isTree, body, isUses, linked⟩
  · rintro ⟨tree, isTree, body, isUses, linked⟩
    exact ⟨body, ⟨tree, isTree, isUses⟩, linked⟩

theorem AgreeAt.kind? {place : NodeRef}
    (agree : before.AgreeAt after place.source) :
    after.kind? place = before.kind? place := by
  have kinds := congrArg (·.map (·.kind)) agree.outline
  simp only [Option.map_map] at kinds
  exact kinds

theorem AgreeAt.children {place : NodeRef}
    (agree : before.AgreeAt after place.source) :
    after.children place = before.children place := by
  unfold Scene.children tree?
  cases agree with
  | missing old new => rw [old, new]
  | found old new resembles =>
      simp only [old, new, Option.map_some, resembles.outline.children]

end Scene

/-- A `uses` is bound to a grouping by a reference of its own. -/
structure LinkUnit.Binds (unit : LinkUnit) (uses : NodeId) (grouping : NodeRef) :
    Prop where
  linked : unit.tree.link? ⟨uses, .uses⟩ = some (.node grouping)
  queued : ∃ item ∈ unit.queue, item.kind = .uses ∧ item.consumer = uses ∧
    item.state = .resolved grouping

/-- Every `uses` of a unit that has been read asks for its grouping. -/
theorem Draft.IsFinished.uses_queued {draft : Draft}
    (finished : draft.IsFinished) {uses : NodeId}
    (isUses : draft.tree.kind? uses = some .uses) :
    ∃ item ∈ draft.queue, item.kind = .uses ∧ item.consumer = uses := by
  obtain ⟨node, found, kind⟩ := Option.map_eq_some_iff.mp isUses
  have unbound := (finished.unlinked.nodes found).target
  have missing : node.construct.missingTarget? = some .uses := by
    cases is : node.construct with
    | uses body =>
        rw [is] at unbound
        simpa [Construct.missingTarget?, Construct.target?] using unbound
    | _ => simp [SchemaNode.kind, is, Construct.kind] at kind
  obtain ⟨item, queued, isKind, place, -⟩ :=
    finished.sound.accounts (.construct found (.target missing))
  rw [Reference.place, isKind] at place
  exact ⟨item, queued, isKind, place⟩

namespace LinkUnit

variable {start unit : LinkUnit} {index : Nat} {item : Reference}
  {outcome : Outcome} {grouping : NodeRef}

/-- Only a grouping that has been found resolves the reference of a `uses`. -/
theorem eq_target_of_stateOf {kind : ReferenceKind} (isUses : kind = .uses)
    (resolved : stateOf kind .unresolved outcome = .resolved grouping) :
    outcome = .target grouping := by
  subst isUses
  cases outcome <;> simp_all [stateOf]

/-- Where the outcome of the reference of a `uses` stands, the `uses` is bound. -/
theorem AgreesAt.binds (found : start.queue[index]? = some item)
    (own : item.IsOwn start.tree) (kind : item.kind = .uses)
    (isUses : start.tree.kind? item.consumer = some .uses)
    (agree : (start.apply index (.target grouping)).AgreesAt unit index item) :
    unit.Binds item.consumer grouping where
  linked := by
    have field := agree.fields ⟨item.consumer, .uses⟩
      (by simp [Reference.results, own.own, kind])
    obtain ⟨node, known, isKind⟩ := Option.map_eq_some_iff.mp isUses
    obtain ⟨body, is⟩ : ∃ body, node.construct = .uses body := by
      cases is : node.construct with
      | uses body => exact ⟨body, rfl⟩
      | _ => simp [SchemaNode.kind, is, Construct.kind] at isKind
    rw [field]
    simp only [apply, found, bindTarget, own.own, kind, Option.isSome_none,
      Bool.false_eq_true, if_false, SchemaTree.link?_modifyConstruct, known,
      Option.bind_some]
    simp [SchemaNode.link?, Construct.link?, is]
  queued := by
    have state := agree.state
    rw [getElem?_apply_self found] at state
    exact ⟨_, List.mem_of_getElem? state, kind, rfl, by simp [stateOf]⟩

end LinkUnit

namespace Linking

/-- Groupings are instantiated behind what is queued already. -/
theorem queued_instantiateGroupings {units : List LinkUnit} {unit : LinkUnit}
    {place : Nat} {item reference : Reference}
    (known : units[place]? = some unit) (usable : unit.usable = true)
    (queued : item ∈ unit.queue)
    (made : reference ∈ instances (.ofUnits units .interFile) unit item) :
    ∃ unit', (instantiateGroupings units)[place]? = some unit' ∧
      reference ∈ unit'.queue := by
  refine ⟨_, by rw [instantiateGroupings, List.getElem?_map, known,
    Option.map_some], ?_⟩
  rw [if_pos usable]
  exact List.mem_append_right _ (List.mem_flatMap.mpr ⟨item, queued, made⟩)

/-- Where linking units that have been linked alone can get to, if nothing more can
be settled there. -/
structure ComesToRest (units after : List LinkUnit) : Prop where
  reached : Moment.Steps .interFile ⟨(bindSources (linkAlone units)).1, []⟩
    ⟨after, []⟩
  settled : IsSettled .interFile after

variable {units first second : List LinkUnit}

theorem ComesToRest.evolves (rest : ComesToRest units first) :
    Evolves (bindSources units).1 first :=
  (linkAlone_evolves units).bindSources.trans (Moment.Steps.evolves rest.reached)

section

variable (distinct : (units.map (·.source)).Nodup)
  (finished : ∀ unit ∈ units, unit.usable = true →
    ∃ draft : Draft, draft.IsFinished ∧ unit = draft.asUnit)
include distinct finished

theorem linkAlone_isOrderly :
    IsOrderly .interFile (bindSources (linkAlone units)).1 :=
  bindSources_isOrderly_of_prepared
    ((linkAlone_evolves units).map_source ▸ distinct)
    (isPrepared_linkAlone finished)

/-- Linking comes to rest before groupings are instantiated and at the end. -/
theorem comesToRest :
    ComesToRest units (settle .interFile (bindSources (linkAlone units)).1) ∧
      ComesToRest units (link .interFile (bindSources (linkAlone units)).1) :=
  have orderly := linkAlone_isOrderly distinct finished
  ⟨⟨settle_steps .interFile _, orderly.settle_settles.isSettled⟩,
    ⟨link_steps .interFile _, orderly.ends.settled⟩⟩

variable (linked : ∀ unit ∈ link .interFile (bindSources (linkAlone units)).1,
  unit.IsLinked)
include linked

/-- A `uses` is bound to the same grouping wherever linking comes to rest. -/
theorem exists_binds {bound : LinkUnit} {place : Nat} {uses : NodeId}
    (knownBound : (bindSources units).1[place]? = some bound)
    (isUses : bound.tree.kind? uses = some .uses) :
    ∃ grouping, ∀ after, ComesToRest units after →
      ∃ unit, after[place]? = some unit ∧ unit.Binds uses grouping := by
  have atEnd := (comesToRest distinct finished).2
  have usable : bound.usable = true := by
    obtain ⟨late, known, evolved⟩ := atEnd.evolves.unit knownBound
    exact evolved.usable ▸ (linked late (List.mem_of_getElem? known)).usable
  obtain ⟨unit, known, -⟩ := Option.map_eq_some_iff.mp
    ((getElem?_bindSources units place).symm.trans knownBound)
  obtain ⟨usable', isBound⟩ :=
    getElem?_bindSources_eq_some known knownBound usable
  obtain ⟨draft, isFinished, rfl⟩ :=
    finished unit (List.mem_of_getElem? known) usable'
  have resembles :=
    (isFinished.isPrepared.1.alone.bindUnit (entriesOf units)).resembles
  rw [← isBound] at resembles
  rw [resembles.outline.kind?] at isUses
  obtain ⟨item, queued, kind, rfl⟩ := isFinished.uses_queued isUses
  have own := isFinished.unlinked.queued item queued
  obtain ⟨index, found⟩ := List.mem_iff_getElem?.mp queued
  have stands {after} (rest : ComesToRest units after) :=
    linkAlone_agreesAt distinct finished known knownBound usable found
      (by rw [kind]; rfl) rest.reached rest.settled
  obtain ⟨late, knownLate, agree⟩ := stands atEnd
  -- In the end the reference is resolved, so a grouping has been found for it.
  have state := agree.state
  rw [LinkUnit.getElem?_apply_self found] at state
  obtain ⟨grouping, resolved⟩ :=
    (linked late (List.mem_of_getElem? knownLate)).resolved _
      (List.mem_of_getElem? state)
  dsimp only at resolved
  rw [own.pending] at resolved
  have outcome := LinkUnit.eq_target_of_stateOf kind resolved
  refine ⟨grouping, fun after rest => ?_⟩
  obtain ⟨unit, known, agree⟩ := stands rest
  rw [outcome] at agree
  exact ⟨unit, known, agree.binds found own kind isUses⟩

/-- Wherever linking comes to rest, what a `uses` is bound to has been found by a
reference of its own. -/
theorem exists_binds_of_usesTarget? (rest : ComesToRest units first)
    {uses grouping : NodeRef}
    (isBound : (Scene.ofUnits first .interFile).usesTarget? uses =
      some grouping) :
    ∃ place : Nat, ∀ after, ComesToRest units after →
      ∃ unit, after[place]? = some unit ∧ unit.source = uses.source ∧
        unit.Binds uses.node grouping := by
  obtain ⟨tree, isTree, isLink⟩ :=
    Scene.usesTarget?_eq_some_iff_link?.mp isBound
  obtain ⟨unit, member, rfl, source⟩ := Scene.tree?_mem isTree
  obtain ⟨place, known⟩ : ∃ place, first[place]? = some unit :=
    List.mem_iff_getElem?.mp member
  have inside := (List.getElem?_eq_some_iff.mp known).1
  rw [rest.evolves.length] at inside
  have knownBound := List.getElem?_eq_getElem inside
  generalize (bindSources units).1[place] = bound at knownBound
  have evolved {after} (rest : ComesToRest units after) {unit : LinkUnit}
      (known : after[place]? = some unit) : bound.Evolves unit := by
    obtain ⟨_, same, evolved⟩ := rest.evolves.unit knownBound
    obtain rfl := Option.some.inj (known.symm.trans same)
    exact evolved
  obtain ⟨body, isUses, -⟩ := SchemaTree.link?_uses_iff.mp isLink
  have kind : bound.tree.kind? uses.node = some .uses := by
    obtain ⟨node, found, is⟩ := SchemaTree.construct?_eq_some_iff.mp isUses
    rw [← (evolved rest known).text.outline.kind?]
    simp [SchemaTree.kind?, found, SchemaNode.kind, is, Construct.kind]
  obtain ⟨grouping', binds⟩ :=
    exists_binds distinct finished linked knownBound kind
  obtain ⟨_, same, here⟩ := binds first rest
  obtain rfl := Option.some.inj (known.symm.trans same)
  obtain rfl : grouping' = grouping := by
    have both := here.linked.symm.trans isLink
    simpa using both
  refine ⟨place, fun after rest' => ?_⟩
  obtain ⟨unit', known', binds⟩ := binds after rest'
  have sources : unit'.source = unit.source :=
    (evolved rest' known').text.source.trans
      (evolved rest known).text.source.symm
  exact ⟨unit', known', sources.trans source, binds⟩

theorem usesTarget?_of_rest (rest : ComesToRest units first)
    (rest' : ComesToRest units second) {uses grouping : NodeRef}
    (isBound : (Scene.ofUnits first .interFile).usesTarget? uses =
      some grouping) :
    (Scene.ofUnits second .interFile).usesTarget? uses = some grouping := by
  obtain ⟨place, binds⟩ :=
    exists_binds_of_usesTarget? distinct finished linked rest isBound
  obtain ⟨unit, known, source, binds⟩ := binds second rest'
  have connected := (linkAlone_isOrderly distinct finished).connected
  have apart : (second.map (·.source)).Nodup :=
    (Moment.Steps.evolves rest'.reached).map_source ▸ connected.distinct
  refine Scene.usesTarget?_eq_some_iff_link?.mpr ⟨unit.tree, ?_, binds.linked⟩
  have found := @Scene.unit?_of_mem (.ofUnits second .interFile) apart unit
    (List.mem_of_getElem? known)
  rw [← source, Scene.tree?, found, Option.map_some]

/-- Each `uses` is bound to the same wherever linking comes to rest. -/
theorem usesTarget?_rest (rest : ComesToRest units first)
    (rest' : ComesToRest units second) (uses : NodeRef) :
    (Scene.ofUnits second .interFile).usesTarget? uses =
      (Scene.ofUnits first .interFile).usesTarget? uses :=
  Option.ext fun _ =>
    ⟨usesTarget?_of_rest distinct finished linked rest' rest,
      usesTarget?_of_rest distinct finished linked rest rest'⟩

/-- What a `uses` brings in is queued when groupings are instantiated, and stays in
the queue. -/
theorem exists_instance (orderly : IsOrderly .interFile first)
    (rest : ComesToRest units first) (rest' : ComesToRest units second)
    (evolves : Evolves (instantiateGroupings first) second)
    {unit : LinkUnit} {uses : NodeId} {grouping leaf : NodeRef}
    {chain : List NodeRef} {use : TypeUse} {path : String}
    (member : unit ∈ second) (usable : unit.usable = true)
    (outside : unit.tree.isWithin uses .grouping = false)
    (isBound : (Scene.ofUnits second .interFile).usesTarget?
      ⟨unit.source, uses⟩ = some grouping)
    (instantiates : (Scene.ofUnits second .interFile).Instantiates grouping
      [⟨unit.source, uses⟩] [grouping] leaf chain)
    (declared : (Scene.ofUnits second .interFile).type? leaf = some use)
    (carries : (Scene.ofUnits second .interFile).Carries path (leaf, use))
    (relative : isAbsolutePath path = false) :
    ∃ item ∈ unit.queue, item.kind = .leafref ⟨uses, none⟩ ∧
      item.text = path ∧ item.consumer = uses ∧
      item.origin = some (.grouping leaf chain) := by
  have evolves' := (instantiateGroupings_evolves first).trans evolves
  obtain ⟨agree, scopes, size⟩ := @Scene.evolves_looks_up .interFile _ _
    orderly.connected.distinct evolves'
  have back := Scene.Anticipates.of_scopes (fun source => (agree source).symm)
    (fun source qualifier => (scopes source qualifier).symm) size.symm
  obtain ⟨place, binds⟩ :=
    exists_binds_of_usesTarget? distinct finished linked rest' isBound
  have targets := usesTarget?_rest distinct finished linked rest' rest
  obtain ⟨start, known, source, bound⟩ := binds first rest
  obtain ⟨item, queued, kind, rfl, resolved⟩ := bound.queued
  have started := List.mem_of_getElem? known
  -- The unit of the `uses` has been the one at its place all the time.
  obtain ⟨late, knownLate, evolved⟩ := evolves'.unit known
  have apart : (second.map (·.source)).Nodup :=
    evolves'.map_source ▸ orderly.connected.distinct
  obtain rfl : late = unit := by
    have same : late.source = unit.source :=
      evolved.text.source.trans source
    have found := @Scene.unit?_of_mem (.ofUnits second .interFile) apart late
      (List.mem_of_getElem? knownLate)
    rw [same, @Scene.unit?_of_mem (.ofUnits second .interFile) apart unit member]
      at found
    exact (Option.some.inj found).symm
  have outside : start.tree.isWithin item.consumer .grouping = false := by
    refine Bool.eq_false_iff.mpr fun inside => ?_
    have inside := evolved.text.outline.symm.isInGrouping
      (SchemaTree.isWithin_grouping_iff.mp inside)
    simp [SchemaTree.isWithin_grouping_iff.mpr inside] at outside
  have usable : start.usable = true := evolved.usable.symm.trans usable
  have looks : (Scene.ofUnits first .interFile).LooksAt grouping :=
    .queued started usable queued (.resolved resolved)
  have instantiates := instantiates.congr
    (fun place => (agree place.source).symm.children)
    (fun place => (agree place.source).symm.kind?) targets
  obtain ⟨use', declared', same⟩ : ∃ use',
      (Scene.ofUnits first .interFile).type? leaf = some use' ∧
        use'.unlinked = use.unlinked := by
    have types := (agree leaf.source).symm.type?
    rw [declared] at types
    exact Option.map_eq_some_iff.mp types
  have listed : path ∈ relativePaths (.ofUnits first .interFile) leaf :=
    (Scene.mem_relativePaths_iff orderly.scene (instantiates.looksAt looks)).mpr
      ⟨relative, use', declared', carries.anticipated back same⟩
  have instantiates : (Scene.ofUnits first .interFile).Instantiates grouping
      [⟨start.source, item.consumer⟩] [grouping] leaf chain :=
    source ▸ instantiates
  have made := (Scene.mem_instances_iff orderly.scene looks kind resolved
    outside).mpr ⟨leaf, chain, path, instantiates, listed, rfl⟩
  obtain ⟨unit, known', queued'⟩ :=
    queued_instantiateGroupings known usable queued made
  obtain ⟨_, same', evolved'⟩ := evolves.unit known'
  obtain rfl := Option.some.inj (knownLate.symm.trans same')
  obtain ⟨index, found⟩ := List.mem_iff_getElem?.mp queued'
  obtain ⟨state, found'⟩ := evolved'.queue found
  exact ⟨_, List.mem_of_getElem? found', rfl, rfl, rfl, rfl⟩

end

end Linking

namespace Compilation

/-- In a valid compilation every `uses` outside of groupings has, for each leaf that
it instantiates and each relative path that the type of this leaf carries, a
reference in the queue of its unit, and this is resolved. -/
theorem valid_instances_resolved {limits : ParseLimits}
    {sources : Sources} {compilation : Compilation}
    (compiled : compile limits sources = .ok compilation)
    (valid : compilation.isValid = true) {unit : LinkUnit} {uses : NodeId}
    {grouping leaf : NodeRef} {chain : List NodeRef} {use : TypeUse}
    {path : String} (member : unit ∈ compilation.units)
    (outside : unit.tree.isWithin uses .grouping = false)
    (bound : (Scene.ofUnits compilation.units .interFile).usesTarget?
      ⟨unit.source, uses⟩ = some grouping)
    (instantiates : (Scene.ofUnits compilation.units .interFile).Instantiates
      grouping [⟨unit.source, uses⟩] [grouping] leaf chain)
    (declared : (Scene.ofUnits compilation.units .interFile).type? leaf =
      some use)
    (carries : (Scene.ofUnits compilation.units .interFile).Carries path
      (leaf, use))
    (relative : isAbsolutePath path = false) :
    ∃ item ∈ unit.queue, item.kind = .leafref ⟨uses, none⟩ ∧
      item.text = path ∧ item.consumer = uses ∧
      item.origin = some (.grouping leaf chain) ∧
      ∃ target, item.state = .resolved target := by
  simp only [compile, bind_eq_ok_iff, pure_eq_ok_iff] at compiled
  obtain ⟨parsed, -, rfl⟩ := compiled
  have linked := (ofParsed_isLinked valid).2
  have distinct := ofParsed_distinct parsed
  obtain ⟨units, alone, finished⟩ :=
    Linking.exists_linkAlone fun _ => ofParsed_isFinished parsed
  rw [← alone, (Linking.linkAlone_evolves units).map_source] at distinct
  simp only [Compilation.linked, ← alone] at *
  obtain ⟨rest, rest'⟩ := Linking.comesToRest distinct finished
  have orderly := (Linking.linkAlone_isOrderly distinct finished).of_passes
    Linking.Passes.start.settle
  have usable := (linked unit member).usable
  obtain ⟨item, queued, kind, text, consumer, origin⟩ :=
    Linking.exists_instance distinct finished linked orderly rest rest'
      (Linking.settle_evolves .interFile _) member usable outside bound
      instantiates declared carries relative
  exact ⟨item, queued, kind, text, consumer, origin,
    (linked unit member).resolved item queued⟩

/-- A leafref of a grouping that is used in another one. -/
theorem valid_instances_resolved_nested :
    ∃ compilation, compile .standard
        [⟨.inline, "module m \x7b namespace \"urn:m\"; prefix m; " ++
            "grouping h \x7b leaf r \x7b type leafref \x7b " ++
            "path \"../a\"; \x7d \x7d \x7d " ++
            "grouping g \x7b leaf a \x7b type string; \x7d uses h; \x7d " ++
            "container c \x7b uses g; \x7d \x7d"⟩] = .ok compilation ∧
      ∃ unit ∈ compilation.units, ∃ item ∈ unit.queue,
        item.kind = .leafref ⟨7, none⟩ ∧ item.text = "../a" ∧
        item.consumer = 7 ∧
        item.origin = some (.grouping ⟨0, 2⟩ [⟨0, 5⟩, ⟨0, 7⟩]) ∧
        ∃ target, item.state = .resolved target := by
  generalize written : ([_] : Sources) = sources
  have checked : (compile .standard sources).toOption.any (fun compilation =>
      let scene := Scene.ofUnits compilation.units .interFile
      compilation.isValid && (compilation.units.any fun unit =>
        unit.source == 0 && !unit.tree.isWithin 7 .grouping) &&
      scene.usesTarget? ⟨0, 7⟩ == some ⟨0, 3⟩ &&
      decide (⟨0, 5⟩ ∈ scene.children ⟨0, 3⟩) &&
      scene.usesTarget? ⟨0, 5⟩ == some ⟨0, 1⟩ &&
      decide (⟨0, 2⟩ ∈ scene.children ⟨0, 1⟩) &&
      scene.kind? ⟨0, 2⟩ == some .leaf &&
      (scene.type? ⟨0, 2⟩).any fun use =>
        use.builtin == some .leafref && use.path == some "../a") = true := by
    subst written
    decide +kernel
  cases compiled : compile .standard sources with
  | error error => simp [compiled, Except.toOption] at checked
  | ok compilation =>
      simp only [compiled, Except.toOption, Option.any_some, Bool.and_eq_true,
        beq_iff_eq, decide_eq_true_eq, List.any_eq_true, Bool.not_eq_true',
        Option.any_eq_true] at checked
      obtain ⟨⟨⟨⟨⟨⟨⟨valid, unit, member, source, outside⟩, bound⟩, uses⟩,
        nested⟩, inside⟩, isLeaf⟩, use, declared, builtin, written⟩ := checked
      have instantiates : (Scene.ofUnits compilation.units
          .interFile).Instantiates ⟨0, 3⟩ [⟨0, 7⟩] [⟨0, 3⟩] ⟨0, 2⟩
            [⟨0, 5⟩, ⟨0, 7⟩] :=
        .uses uses nested (by decide) (.leaf inside (.inl isLeaf))
      refine ⟨compilation, rfl, unit, member, ?_⟩
      exact valid_instances_resolved compiled valid member outside
        (source ▸ bound) (source ▸ instantiates) declared (.own builtin written)
        (by decide)

/-- A relative path that an augment under a nested `uses` brings in is accepted
without a reference for it. -/
theorem compile_accepts_leafref_of_nested_augment :
    ∃ compilation, compile .standard
        [⟨.inline, "module m \x7b namespace \"urn:m\"; prefix m; " ++
            "grouping h \x7b container c \x7b leaf a \x7b type string; " ++
            "\x7d \x7d \x7d grouping g \x7b uses h \x7b augment \"c\" \x7b " ++
            "leaf r \x7b type leafref \x7b path \"../nope\"; \x7d \x7d " ++
            "\x7d \x7d \x7d uses g; \x7d"⟩] = .ok compilation ∧
      compilation.isValid = true ∧
      let scene := Scene.ofUnits compilation.units .interFile
      scene.usesTarget? ⟨0, 8⟩ = some ⟨0, 4⟩ ∧
      ⟨0, 5⟩ ∈ scene.children ⟨0, 4⟩ ∧
      scene.usesTarget? ⟨0, 5⟩ = some ⟨0, 1⟩ ∧
      ⟨0, 6⟩ ∈ scene.children ⟨0, 5⟩ ∧
      scene.boundTo? ⟨0, 6⟩ = some ⟨0, 2⟩ ∧
      ⟨0, 7⟩ ∈ scene.children ⟨0, 6⟩ ∧
      scene.kind? ⟨0, 7⟩ = some .leaf ∧
      (∃ use, scene.type? ⟨0, 7⟩ = some use ∧
        scene.Carries "../nope" (⟨0, 7⟩, use)) ∧
      isAbsolutePath "../nope" = false ∧
      ∀ unit ∈ compilation.units, ∀ item ∈ unit.queue,
        item.text ≠ "../nope" := by
  generalize written : ([_] : Sources) = sources
  have checked : (compile .standard sources).toOption.any (fun compilation =>
      let scene := Scene.ofUnits compilation.units .interFile
      compilation.isValid && scene.usesTarget? ⟨0, 8⟩ == some ⟨0, 4⟩ &&
      decide (⟨0, 5⟩ ∈ scene.children ⟨0, 4⟩) &&
      scene.usesTarget? ⟨0, 5⟩ == some ⟨0, 1⟩ &&
      decide (⟨0, 6⟩ ∈ scene.children ⟨0, 5⟩) &&
      scene.boundTo? ⟨0, 6⟩ == some ⟨0, 2⟩ &&
      decide (⟨0, 7⟩ ∈ scene.children ⟨0, 6⟩) &&
      scene.kind? ⟨0, 7⟩ == some .leaf &&
      ((scene.type? ⟨0, 7⟩).any fun use =>
        use.builtin == some .leafref && use.path == some "../nope") &&
      compilation.units.all fun unit => unit.queue.all fun item =>
        item.text != "../nope") = true := by
    subst written
    decide +kernel
  cases compiled : compile .standard sources with
  | error error => simp [compiled, Except.toOption] at checked
  | ok compilation =>
      simp only [compiled, Except.toOption, Option.any_some, Bool.and_eq_true,
        beq_iff_eq, decide_eq_true_eq, List.all_eq_true, bne_iff_ne,
        Option.any_eq_true] at checked
      obtain ⟨⟨⟨⟨⟨⟨⟨⟨⟨valid, bound⟩, uses⟩, nested⟩, augment⟩, target⟩, inside⟩,
        isLeaf⟩, use, declared, builtin, written⟩, none⟩ := checked
      exact ⟨compilation, rfl, valid, bound, uses, nested, augment, target,
        inside, isLeaf, ⟨use, declared, .own builtin written⟩, by decide, none⟩

end Compilation

end YangSchema
