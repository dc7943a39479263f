import YangSchema.Proofs.Compilation.Fixpoint
import YangSchema.Proofs.Linking.FirstMatch

/-!
# Linking units alone first

Whether units are linked alone before they are linked with each other makes no
difference for names.  Binding imports and includes looks at nothing that linking
changes, and what is found for a name in a unit that is alone is what is found for
it among all units.  So in the end both ways have written the same outcome down,
or none.
-/

namespace YangSchema

namespace Scene

variable (scene : Scene) (item : Reference) (state : ReferenceState)

theorem memberReferences_setState (slot : TypeSlot) (typedefs : List NodeRef)
    (bound : Nat) (union : NodeRef) :
    scene.memberReferences { item with state } slot typedefs bound union =
      scene.memberReferences item slot typedefs bound union := by
  induction bound generalizing union with
  | zero => rfl
  | succ bound ih =>
      unfold memberReferences
      simp only [ih]
      rfl

/-- What is found for a reference does not depend on its state. -/
theorem outcome_setState (source : SourceId) :
    scene.outcome source { item with state } = scene.outcome source item := by
  have members (slot : TypeSlot) (typedef : NodeRef) :
      scene.unionReferences { item with state } slot typedef =
        scene.unionReferences item slot typedef := by
    unfold unionReferences
    simp only [memberReferences_setState]
    rfl
  have derived (slot : TypeSlot) :
      scene.derivedOutcome source { item with state } slot =
        scene.derivedOutcome source item slot := by
    unfold derivedOutcome
    simp only [members]
    rfl
  unfold outcome lookupReference
  simp only [derived]
  rfl

end Scene

/-- Headers are changed in trees of one text. -/
theorem SchemaTree.SameText.mapHeader {before after : SchemaTree}
    (same : before.SameText after) (change : ModuleHeader → ModuleHeader) :
    (before.modifyConstruct rootId (·.mapHeader change)).SameText
      (after.modifyConstruct rootId (·.mapHeader change)) := by
  have text (node : SchemaNode) :
      ({ node with construct := node.construct.mapHeader change } :
        SchemaNode).text =
          { node.text with header? := node.text.header?.map change } := by
    cases construct : node.construct <;>
      simp [SchemaNode.text, SchemaNode.kind, construct, Construct.mapHeader,
        Construct.kind, Construct.header?, Construct.typeAt?, Construct.type?]
  refine ⟨same.source, fun id => ?_⟩
  rw [node?_modifyConstruct, node?_modifyConstruct]
  split
  · simp only [Option.map_map, Function.comp_def, text]
    have texts := congrArg (·.map fun text : NodeText =>
      { text with header? := text.header?.map change }) (same.text id)
    simpa only [Option.map_map, Function.comp_def] using texts
  · exact same.text id

namespace UnitEntry

theorem of?_evolves {unit unit' : LinkUnit} (evolves : unit.Evolves unit') :
    of? unit' = of? unit := by
  have header := evolves.text.header?
  have text := evolves.text.text rootId
  unfold of? SchemaTree.root?
  rw [header]
  cases found' : unit'.tree.node? rootId <;>
    cases found : unit.tree.node? rootId <;>
      simp only [found', found, Option.map_none, Option.map_some,
        reduceCtorEq, Option.some.injEq] at text ⊢
  next root' root =>
    have name : root'.name = root.name := congrArg (·.name) text
    have kind : root'.kind = root.kind := congrArg (·.kind) text
    have source : unit'.source = unit.source := evolves.text.source
    cases unit.tree.header? <;>
      simp [name, kind, source, evolves.usable]

end UnitEntry

namespace LinkUnit

variable {unit unit' : LinkUnit} (evolves : unit.Evolves unit')
include evolves

theorem Evolves.rejectUnit (entries : List UnitEntry) :
    (Linking.rejectUnit entries unit).1.Evolves
      (Linking.rejectUnit entries unit').1 := by
  have root := congrArg Option.isSome (evolves.text.text rootId)
  simp only [Option.isSome_map] at root
  have source : unit'.source = unit.source := evolves.text.source
  unfold Linking.rejectUnit SchemaTree.root?
  rw [source, evolves.usable]
  cases entries.find? (·.source == unit.source) with
  | none => exact evolves
  | some entry =>
      cases found' : unit'.tree.node? rootId <;>
        cases found : unit.tree.node? rootId <;>
          simp only [found', found, Option.isSome_some, Option.isSome_none,
            reduceCtorEq] at root ⊢
      · exact evolves
      · split
        · exact ⟨evolves.text, rfl, evolves.deferred, evolves.queue⟩
        · exact evolves

theorem Evolves.bindUnit (entries : List UnitEntry) :
    (Linking.bindUnit entries unit).1.Evolves
      (Linking.bindUnit entries unit').1 := by
  have source : unit'.source = unit.source := evolves.text.source
  unfold Linking.bindUnit
  rw [source, evolves.usable, evolves.text.header?]
  split
  · exact ⟨evolves.text.mapHeader _, rfl, evolves.deferred, evolves.queue⟩
  · exact evolves

end LinkUnit

namespace Linking

variable {units units' : List LinkUnit}

theorem Evolves.filterMap_of? (evolves : Evolves units units') :
    units'.filterMap UnitEntry.of? = units.filterMap UnitEntry.of? := by
  have same : units'.map UnitEntry.of? = units.map UnitEntry.of? := by
    refine List.ext_getElem? fun place => ?_
    rw [List.getElem?_map, List.getElem?_map]
    cases found : units[place]? with
    | none =>
        have outside := List.getElem?_eq_none_iff.mp found
        rw [← evolves.length] at outside
        simp [List.getElem?_eq_none_iff.mpr outside]
    | some unit =>
        obtain ⟨unit', found', evolved⟩ := evolves.unit found
        simp [found', UnitEntry.of?_evolves evolved]
  have entries := congrArg (·.filterMap id) same
  simpa only [List.filterMap_map, Function.id_comp] using entries

theorem Evolves.entriesOf (evolves : Evolves units units') :
    entriesOf units' = entriesOf units := by
  rw [Linking.entriesOf, Linking.entriesOf, evolves.filterMap_of?]

/-- The unit that a unit becomes when the sources are bound. -/
theorem getElem?_bindSources (units : List LinkUnit) (place : Nat) :
    (bindSources units).1[place]? = units[place]?.map fun unit =>
      (bindUnit (Linking.entriesOf units)
        (rejectUnit (Linking.entriesOf units) unit).1).1 := by
  rw [bindSources_eq, List.getElem?_map]

/-- Sources are bound in the same way before and after linking. -/
theorem Evolves.bindSources (evolves : Evolves units units') :
    Evolves (bindSources units).1 (bindSources units').1 where
  length := by simp [bindSources_eq, evolves.length]
  unit {place bound} found := by
    rw [getElem?_bindSources] at found
    obtain ⟨unit, known, rfl⟩ := Option.map_eq_some_iff.mp found
    obtain ⟨unit', known', evolved⟩ := evolves.unit known
    refine ⟨_, by rw [getElem?_bindSources, known', Option.map_some], ?_⟩
    rw [evolves.entriesOf]
    exact (evolved.rejectUnit _).bindUnit _

/-- The units after each of them has been linked alone. -/
def linkAlone (units : List LinkUnit) : List LinkUnit :=
  units.flatMap fun unit => link .intraFile [unit]

theorem link_alone (unit : LinkUnit) :
    ∃ alone, link .intraFile [unit] = [alone] ∧ unit.Evolves alone := by
  have evolves := link_evolves .intraFile [unit]
  obtain ⟨alone, is⟩ := List.length_eq_one_iff.mp evolves.length
  rw [is] at evolves
  obtain ⟨_, same, evolved⟩ :=
    evolves.unit (show [unit][0]? = some unit from rfl)
  obtain rfl : alone = _ := by simpa using same
  exact ⟨alone, is, evolved⟩

theorem getElem?_linkAlone {place : Nat} {unit : LinkUnit}
    (found : units[place]? = some unit) :
    ∃ alone, (linkAlone units)[place]? = some alone ∧
      link .intraFile [unit] = [alone] := by
  induction units generalizing place with
  | nil => simp at found
  | cons first rest ih =>
      obtain ⟨alone, is, -⟩ := link_alone first
      rw [linkAlone, List.flatMap_cons, is, List.singleton_append]
      cases place with
      | zero =>
          obtain rfl : first = unit := by simpa using found
          exact ⟨alone, rfl, is⟩
      | succ place => exact ih (by simpa using found)

/-- A unit that has failed is not linked. -/
theorem link_alone_of_unusable {unit : LinkUnit}
    (unusable : unit.usable = false) : link .intraFile [unit] = [unit] := by
  obtain ⟨alone, is, -⟩ := link_alone unit
  have further := (Moment.Steps.keeps (link_steps .intraFile [unit])
    (Moment.isTidy_of_units (by simp [unusable]))).2
  obtain ⟨_, same, further⟩ :=
    further.unit (show [unit][0]? = some unit from rfl)
  rw [is] at same ⊢
  obtain rfl := Option.some.inj same
  rw [further.frozen unusable]

/-- What has been linked alone, unit by unit. -/
theorem linkAlone_eq_iff {units linked : List LinkUnit} :
    linkAlone units = linked ↔
      List.Forall₂ (fun alone unit => link .intraFile [unit] = [alone]) linked
        units := by
  induction units generalizing linked with
  | nil => simp [linkAlone, eq_comm]
  | cons unit rest ih =>
      obtain ⟨alone, is, -⟩ := link_alone unit
      rw [linkAlone, List.flatMap_cons, is, List.singleton_append,
        List.forall₂_cons_right_iff]
      constructor
      · rintro rfl
        exact ⟨alone, _, is, ih.mp rfl, rfl⟩
      · rintro ⟨_, others, is', each, rfl⟩
        rw [is] at is'
        obtain rfl := List.singleton_inj.mp is'
        rw [← ih.mpr each]
        rfl

/-- Units that have been linked alone have been read before. -/
theorem exists_linkAlone {linked : List LinkUnit}
    (each : ∀ unit ∈ linked, unit.usable = true →
      ∃ draft : Draft, draft.IsFinished ∧ unit = draft.linkInside.asUnit) :
    ∃ units, linkAlone units = linked ∧ ∀ unit ∈ units, unit.usable = true →
      ∃ draft : Draft, draft.IsFinished ∧ unit = draft.asUnit := by
  induction linked with
  | nil => exact ⟨[], rfl, List.forall_mem_nil _⟩
  | cons alone rest ih =>
      obtain ⟨first, others⟩ := List.forall_mem_cons.mp each
      obtain ⟨units, linked, read⟩ := ih others
      rw [linkAlone_eq_iff] at linked
      cases usable : alone.usable with
      | false =>
          refine ⟨alone :: units, linkAlone_eq_iff.mpr
            (.cons (link_alone_of_unusable usable) linked),
            List.forall_mem_cons.mpr ⟨fun isUsable => ?_, read⟩⟩
          simp [usable] at isUsable
      | true =>
          obtain ⟨draft, finished, rfl⟩ := first usable
          exact ⟨draft.asUnit :: units, linkAlone_eq_iff.mpr
            (.cons (Draft.asUnit_linkInside draft).1 linked),
            List.forall_mem_cons.mpr ⟨fun _ => ⟨draft, finished, rfl⟩, read⟩⟩

theorem linkAlone_evolves (units : List LinkUnit) :
    Evolves units (linkAlone units) where
  length := by
    induction units with
    | nil => rfl
    | cons first rest ih =>
        obtain ⟨alone, is, -⟩ := link_alone first
        rw [linkAlone, List.flatMap_cons, is, List.singleton_append,
          List.length_cons, List.length_cons]
        exact congrArg (· + 1) ih
  unit {place unit} found := by
    obtain ⟨alone, found', is⟩ := getElem?_linkAlone found
    obtain ⟨_, is', evolved⟩ := link_alone unit
    obtain rfl := (List.cons.inj (is.symm.trans is')).1
    exact ⟨alone, found', evolved⟩

end Linking

/-- A unit that can be put among others. -/
structure LinkUnit.IsPrepared (unit : LinkUnit) : Prop where
  alone : unit.IsLinkedAlone
  detached : unit.IsDetached
  orderly : Linking.IsOrderly .intraFile [unit]

theorem LinkUnit.IsPrepared.isTidy {unit : LinkUnit}
    (prepared : unit.IsPrepared) : unit.IsTidy :=
  prepared.orderly.tidy unit (List.mem_singleton_self unit)
    prepared.alone.usable

theorem Draft.IsFinished.isPrepared {draft : Draft}
    (finished : draft.IsFinished) :
    draft.asUnit.IsPrepared ∧ draft.linkInside.asUnit.IsPrepared where
  left :=
    { alone := ⟨rfl, fun header declared _ listed =>
        finished.isTidy.2 header declared _
          (List.mem_append_left _ (List.mem_map_of_mem listed)),
        finished.isConnected⟩
      detached := finished.isTidy.2
      orderly := finished.isOrderly }
  right :=
    { alone := ⟨rfl, finished.sound.linkInside_isUnbound,
        finished.linkInside_isConnected⟩
      detached := finished.isTidy.2.evolves (asUnit_linkInside draft).2
      orderly := finished.linkInside_isOrderly }

theorem LinkUnit.IsRead.isFinished {source : SourceId}
    {statements : List Statement} {unit : LinkUnit}
    (read : unit.IsRead source statements) (usable : unit.usable = true) :
    ∃ draft : Draft, draft.IsFinished ∧ unit = draft.asUnit := by
  cases read with
  | @ended _ _ inner _ reached isUnit =>
      exact ⟨_, (reached.isFinished (.empty source) (fun _ => .empty source)
        isUnit).2, rfl⟩
  | failed failed => simp [ofAnalysis, failed] at usable

namespace Linking

variable {units : List LinkUnit} {unit bound : LinkUnit} {place index : Nat}
  {item : Reference}

/-- Binding imports and includes touches no reference. -/
theorem bindUnit_agreesAt (entries : List UnitEntry) (unit : LinkUnit)
    (index : Nat) (item : Reference) :
    unit.AgreesAt (bindUnit entries unit).1 index item where
  state := by rw [bindUnit_queue]
  fields field listed := by
    refine (bindUnit_writesTo entries unit).others field fun written => ?_
    have placed := Reference.place?_of_mem_claims
      (item.results_sublist.mem listed)
    simp [written.2] at placed

/-- A unit that can be used when the sources are bound could be used before. -/
theorem getElem?_bindSources_eq_some (known : units[place]? = some unit)
    (knownBound : (bindSources units).1[place]? = some bound)
    (usable : bound.usable = true) :
    unit.usable = true ∧ bound = (bindUnit (entriesOf units) unit).1 := by
  rw [getElem?_bindSources, known, Option.map_some, Option.some.injEq]
    at knownBound
  subst knownBound
  rw [(bindUnit_front _ _).2] at usable
  have kept := rejectUnit_eq_self usable
  rw [kept] at usable ⊢
  exact ⟨usable, rfl⟩

section

variable (distinct : (units.map (·.source)).Nodup)
  (prepared : ∀ unit ∈ units, unit.usable = true → unit.IsPrepared)
include distinct prepared

theorem bindSources_isOrderly_of_prepared :
    IsOrderly .interFile (bindSources units).1 :=
  bindSources_isOrderly distinct fun unit member usable =>
    have prepared := prepared unit member usable
    ⟨prepared.alone, prepared.detached, prepared.orderly⟩

/-- Where prepared units that are linked with each other get to when nothing more
can be settled, a reference stands at the only outcome that it can have. -/
theorem bindSources_agreesAt {start : LinkUnit} {outcome : Outcome}
    {after : List LinkUnit}
    (reached : Moment.Steps .interFile ⟨(bindSources units).1, []⟩ ⟨after, []⟩)
    (settled : IsSettled .interFile after)
    (found : start.queue[index]? = some item)
    (pending : item.state = .unresolved)
    (always : ∀ after, Evolves (bindSources units).1 after → ∀ state,
      (Scene.ofUnits after .interFile).outcome start.source
        { item with state } = outcome)
    (known : units[place]? = some unit)
    (knownBound : (bindSources units).1[place]? = some bound)
    (usable : bound.usable = true) (further : start.LinksFurther unit)
    (agree : start.AgreesAt unit index item ∨
      (start.apply index outcome).AgreesAt unit index item) :
    ∃ unit', after[place]? = some unit' ∧
      (start.apply index outcome).AgreesAt unit' index item := by
  obtain ⟨usable', rfl⟩ := getElem?_bindSources_eq_some known knownBound usable
  have orderly := bindSources_isOrderly_of_prepared distinct prepared
  have whole := prepared unit (List.mem_of_getElem? known) usable'
  have keeps := LinkUnit.bindUnit_keeps (entriesOf units)
    fun _ => ⟨whole.isTidy, whole.detached⟩
  have kept := bindUnit_agreesAt (entriesOf units) unit index item
  exact Moment.Steps.agreesAt reached orderly.tidy settled found pending always
    knownBound usable (further.trans keeps.2)
    (agree.imp (·.trans kept) (·.trans kept))

end

/-- In a unit that is alone nothing is found for a name but what is found for it
among all units. -/
theorem hasOnly_alone {phase : LinkPhase} {start : LinkUnit}
    (prepared : start.IsPrepared) (own : item.IsOwn start.tree)
    (named : item.kind.isName = true) (preserves : bound.Preserves start)
    (among : (Scene.ofUnits units phase).unit? start.source = some bound) :
    HasOnly .intraFile [start] start.source item
      ((Scene.ofUnits units phase).outcome start.source item) := by
  have only : (Scene.ofUnits [start] .intraFile).unit? start.source =
      some start := by
    simp [Scene.unit?, Scene.ofUnits]
  have live {id : NodeId} (inside : id < start.tree.size) :
      (Scene.ofUnits [start] .intraFile).IsLive ⟨start.source, id⟩ :=
    Scene.isLive_of_unit? only prepared.alone.usable inside
  have anticipates := Scene.anticipates_of_alone prepared.alone.connected
    prepared.alone.usable prepared.alone.unbound among preserves.resembles
    preserves.qualifier
  have decides := anticipates.lookupReference own.own (live own.place) named
    (live own.consumer)
  intro after evolves state settles
  have distinct : ([start].map (·.source)).Nodup := List.nodup_singleton _
  rw [Scene.outcome_setState, @Scene.outcome_of_evolves .intraFile _ _ distinct
    evolves start.source item own.own named] at settles ⊢
  exact (Scene.outcome_eq_of_decides decides settles).symm

section

variable (distinct : (units.map (·.source)).Nodup)
  (finished : ∀ unit ∈ units, unit.usable = true →
    ∃ draft : Draft, draft.IsFinished ∧ unit = draft.asUnit)
include finished

theorem isPrepared_of_finished :
    ∀ unit ∈ units, unit.usable = true → unit.IsPrepared := by
  intro unit member usable
  obtain ⟨draft, finished, rfl⟩ := finished unit member usable
  exact finished.isPrepared.1

theorem isPrepared_linkAlone :
    ∀ alone ∈ linkAlone units, alone.usable = true → alone.IsPrepared := by
  intro alone member usable
  obtain ⟨unit, among, is⟩ := List.mem_flatMap.mp member
  obtain ⟨_, is', evolved⟩ := link_alone unit
  rw [is'] at is
  obtain rfl := List.mem_singleton.mp is
  obtain ⟨draft, finished, rfl⟩ :=
    finished unit among (evolved.usable ▸ usable)
  rw [(Draft.asUnit_linkInside draft).1] at is'
  obtain rfl := (List.cons.inj is').1
  exact finished.isPrepared.2

include distinct

/-- What is found among all units does not depend on what has been linked. -/
theorem outcome_bindSources {after : List LinkUnit}
    (evolves : Evolves (bindSources units).1 after) (source : SourceId)
    (own : item.origin = none) (named : item.kind.isName = true)
    (state : ReferenceState) :
    (Scene.ofUnits after .interFile).outcome source { item with state } =
      (Scene.ofUnits (bindSources units).1 .interFile).outcome source item := by
  have connected := bindSources_isConnected distinct fun unit member usable =>
    (isPrepared_of_finished finished unit member usable).alone
  exact (Scene.outcome_setState _ item state source).trans
    (@Scene.outcome_of_evolves .interFile _ _ connected.distinct evolves source
      item own named)

variable (known : units[place]? = some unit)
  (knownBound : (bindSources units).1[place]? = some bound)
  (usable : bound.usable = true) (found : unit.queue[index]? = some item)
  (named : item.kind.isName = true)
include known knownBound usable found named

/-- When units have been linked alone first, a name still stands at its outcome
among all units. -/
theorem linkAlone_agreesAt {after : List LinkUnit}
    (reached : Moment.Steps .interFile
      ⟨(bindSources (linkAlone units)).1, []⟩ ⟨after, []⟩)
    (settled : IsSettled .interFile after) :
    ∃ early, after[place]? = some early ∧
      (unit.apply index ((Scene.ofUnits (bindSources units).1
        .interFile).outcome unit.source item)).AgreesAt early index item := by
  obtain ⟨usable', isBound⟩ :=
    getElem?_bindSources_eq_some known knownBound usable
  have member := List.mem_of_getElem? known
  have own : item.IsOwn unit.tree := by
    obtain ⟨draft, finished, rfl⟩ := finished unit member usable'
    exact finished.unlinked.queued item (List.mem_of_getElem? found)
  have evolves := linkAlone_evolves units
  obtain ⟨alone, knownAlone, isAlone⟩ := getElem?_linkAlone known
  obtain ⟨bound', knownBound', evolved⟩ := evolves.bindSources.unit knownBound
  have whole := isPrepared_of_finished finished unit member usable'
  -- What has been written down before is the same outcome.
  have connected := bindSources_isConnected distinct fun unit member usable =>
    (isPrepared_of_finished finished unit member usable).alone
  have among := @Scene.unit?_of_mem (.ofUnits _ .interFile) connected.distinct
    bound (List.mem_of_getElem? knownBound)
  have preserves := whole.alone.bindUnit (entriesOf units)
  rw [← isBound] at preserves
  rw [show bound.source = unit.source from preserves.resembles.outline.source]
    at among
  have only := @hasOnly_alone _ _ _ .interFile _ whole own named preserves among
  obtain ⟨_, stands, further, agree⟩ := Moment.Steps.stands_unit
    (link_steps .intraFile [unit])
    (fun other listed usable => whole.orderly.tidy other listed usable) found
    only (show [unit][0]? = some unit from rfl) (.refl unit)
    (.inl (.refl unit index item))
  rw [isAlone] at stands
  obtain rfl := Option.some.inj stands
  exact bindSources_agreesAt (evolves.map_source ▸ distinct)
    (isPrepared_linkAlone finished) reached settled found own.pending
    (fun after later state => outcome_bindSources distinct finished
      (evolves.bindSources.trans later) unit.source own.own named state)
    knownAlone knownBound' (evolved.usable.trans usable) further agree

/-- Linking units alone first changes nothing for names:  in the end there is
what their outcome among all units amounts to. -/
theorem link_phases :
    let outcome := (Scene.ofUnits (bindSources units).1 .interFile).outcome
      unit.source item
    (∃ late, (link .interFile (bindSources units).1)[place]? = some late ∧
      (unit.apply index outcome).AgreesAt late index item) ∧
    ∃ early,
      (link .interFile (bindSources (linkAlone units)).1)[place]? =
        some early ∧
      (unit.apply index outcome).AgreesAt early index item := by
  intro outcome
  obtain ⟨usable', isBound⟩ :=
    getElem?_bindSources_eq_some known knownBound usable
  have prepared := isPrepared_of_finished finished
  have own : item.IsOwn unit.tree := by
    obtain ⟨draft, finished, rfl⟩ :=
      finished unit (List.mem_of_getElem? known) usable'
    exact finished.unlinked.queued item (List.mem_of_getElem? found)
  have orderly := bindSources_isOrderly_of_prepared distinct prepared
  have distinctAlone := (linkAlone_evolves units).map_source ▸ distinct
  have orderlyAlone := bindSources_isOrderly_of_prepared distinctAlone
    (isPrepared_linkAlone finished)
  refine ⟨bindSources_agreesAt distinct prepared (link_steps .interFile _)
    orderly.ends.settled found own.pending (fun after evolves state =>
      outcome_bindSources distinct finished evolves unit.source own.own named
        state) known knownBound usable (.refl unit)
      (.inl (.refl unit index item)), ?_⟩
  exact linkAlone_agreesAt distinct finished known knownBound usable found named
    (link_steps .interFile _) orderlyAlone.ends.settled

end

/-- A reference that has been resolved has been found. -/
theorem lookupReference_of_resolved {scene : Scene} {source : SourceId}
    {target : NodeRef} (pending : item.state = .unresolved)
    (state : LinkUnit.stateOf item.kind item.state
      (scene.outcome source item) = .resolved target) :
    scene.lookupReference source item = .ok (scene.outcome source item) := by
  unfold Scene.outcome at state ⊢
  split at state
  next outcome found => rw [found]
  next miss found => cases miss <;> simp_all [Outcome.ofMiss, LinkUnit.stateOf]

/-- Whether the units that reading leaves behind are linked alone before they are
linked with each other changes nothing for names:  neither the states of their
references nor the fields that these fill.  A name of the unit itself is resolved
to its first match. -/
theorem names_linked_alone_first
    (distinct : (units.map (·.source)).Nodup)
    (read : ∀ unit ∈ units, unit.usable = true → ∃ source statements,
      unit.IsRead source statements)
    (known : units[place]? = some unit)
    (knownBound : (bindSources units).1[place]? = some bound)
    (usable : bound.usable = true) (queued : unit.queue[index]? = some item)
    (named : item.kind.isName = true) :
    ∃ late early state,
      (link .interFile (bindSources units).1)[place]? = some late ∧
      (link .interFile (bindSources (linkAlone units)).1)[place]? =
        some early ∧
      late.queue[index]? = some { item with state } ∧
      early.queue[index]? = some { item with state } ∧
      (∀ field ∈ item.results,
        early.tree.link? field = late.tree.link? field) ∧
      ∀ name target, late.tree.nameFor? item = some name →
        late.tree.Owns name → state = .resolved target →
          let scene := Scene.ofUnits
            (link .interFile (bindSources units).1) .interFile
          scene.firstNamed? item.kind.targetKinds name.name
            (scene.ownPlaces item.kind ⟨late.source, item.place⟩) =
              some target := by
  have finished : ∀ unit ∈ units, unit.usable = true →
      ∃ draft : Draft, draft.IsFinished ∧ unit = draft.asUnit := by
    intro unit member usable
    obtain ⟨source, statements, read⟩ := read unit member usable
    exact read.isFinished usable
  obtain ⟨⟨late, knownLate, agree⟩, early, knownEarly, agree'⟩ :=
    link_phases distinct finished known knownBound usable queued named
  have done := LinkUnit.getElem?_apply_self queued
    ((Scene.ofUnits (bindSources units).1 .interFile).outcome unit.source item)
  refine ⟨late, early, _, knownLate, knownEarly, agree.state.trans done,
    agree'.state.trans done, fun field listed =>
      (agree'.fields field listed).trans (agree.fields field listed).symm, ?_⟩
  intro name target isName owns state scene
  obtain ⟨usable', isBound⟩ :=
    getElem?_bindSources_eq_some known knownBound usable
  obtain ⟨draft, isFinished, rfl⟩ :=
    finished unit (List.mem_of_getElem? known) usable'
  have own := isFinished.unlinked.queued item (List.mem_of_getElem? queued)
  -- At the end the same is found as when the sources have been bound.
  have connected := bindSources_isConnected distinct fun unit member usable => by
    obtain ⟨draft, finished, rfl⟩ := finished unit member usable
    exact finished.isPrepared.1.alone
  have evolves := link_evolves .interFile (bindSources units).1
  obtain ⟨_, same, evolved⟩ := evolves.unit knownBound
  obtain rfl := Option.some.inj (knownLate.symm.trans same)
  have source : late.source = draft.asUnit.source := by
    have fromBound : late.source = bound.source := evolved.text.source
    rw [fromBound, isBound, (bindUnit_front _ _).1]
  rw [← @Scene.outcome_of_evolves .interFile _ _ connected.distinct evolves _
    item own.own named, ← source] at state
  have distinctLate : ((link .interFile (bindSources units).1).map
      (·.source)).Nodup := evolves.map_source ▸ connected.distinct
  exact Scene.firstNamed?_of_lookupReference rfl
    (@Scene.unit?_of_mem scene distinctLate late
      (List.mem_of_getElem? knownLate))
    (evolved.usable.trans usable) own.own named isName owns
    (lookupReference_of_resolved own.pending state) own.pending state

/-- A nested use of a grouping, by the qualifier of its own unit. -/
theorem names_linked_alone_first_nested :
    ∃ (statement : Statement) (unit : LinkUnit) (item : Reference)
      (late early : LinkUnit) (target : NodeRef),
      unit.IsRead 0 [statement] ∧ unit.queue[0]? = some item ∧
      item.kind = .uses ∧ item.text = "a:g" ∧
      (link .interFile (bindSources [unit]).1)[0]? = some late ∧
      (link .interFile (bindSources (linkAlone [unit])).1)[0]? = some early ∧
      late.queue[0]? = some { item with state := .resolved target } ∧
      early.queue[0]? = some { item with state := .resolved target } ∧
      (∀ field ∈ item.results,
        early.tree.link? field = late.tree.link? field) ∧
      let scene := Scene.ofUnits (link .interFile (bindSources [unit]).1)
        .interFile
      scene.firstNamed? item.kind.targetKinds "g"
        (scene.ownPlaces item.kind ⟨late.source, item.place⟩) =
          some target := by
  generalize written : ("module a \x7b namespace \"u:a\"; prefix a; " ++
    "grouping g \x7b leaf x \x7b type string; \x7d \x7d " ++
    "container c \x7b uses a:g; \x7d \x7d" : String) = text
  have checked : ((parse .standard 0 text).toOption.bind
      fun parsed => (Statement.ofTree parsed.tree).head?).any
    (fun statement => statement.known == .module &&
      (Draft.openUnit (.module .empty) (.empty 0) statement).toOption.any
        fun opened =>
          let progress := Draft.readAll opened statement.substatements
          let unit := progress.draft.asUnit
          let bound := (bindSources [unit]).1
          progress.error.isNone && bound.head?.any (·.usable) &&
            unit.queue.head?.any fun item =>
              item.kind == .uses && item.text == "a:g" &&
                (link .interFile bound).head?.any fun late =>
                  late.tree.nameFor? item == some ⟨some "a", "g"⟩ &&
                    late.tree.ownQualifier? == some "a" &&
                      late.queue.head?.any fun item =>
                        item.state == .resolved ⟨0, 1⟩) = true := by
    subst written
    decide +kernel
  obtain ⟨statement, -, checked⟩ := (Option.any_eq_true _ _).mp checked
  obtain ⟨known, checked⟩ := Bool.and_eq_true_iff.mp checked
  have isModule : statement.known = .module := by simpa using known
  have role : Draft.role statement.known =
      .block (Draft.openUnit (.module .empty)) Draft.closeUnit := by
    rw [isModule]
    rfl
  cases opening : Draft.openUnit (.module .empty) (.empty 0) statement with
  | error error => simp [opening, Except.toOption] at checked
  | ok opened =>
      simp only [opening, Except.toOption, Option.any_some,
        Bool.and_eq_true] at checked
      obtain ⟨⟨whole, bound⟩, checked⟩ := checked
      obtain ⟨bound, isBound, usable⟩ := (Option.any_eq_true _ _).mp bound
      obtain ⟨item, queued, checked⟩ := (Option.any_eq_true _ _).mp checked
      simp only [Bool.and_eq_true, beq_iff_eq] at checked
      obtain ⟨⟨kind, text⟩, checked⟩ := checked
      obtain ⟨late, isLate, checked⟩ := (Option.any_eq_true _ _).mp checked
      simp only [Bool.and_eq_true, beq_iff_eq] at checked
      obtain ⟨⟨named, owned⟩, checked⟩ := checked
      obtain ⟨linked, first, resolved⟩ := (Option.any_eq_true _ _).mp checked
      rw [List.head?_eq_getElem?] at isBound queued isLate first
      have distinct (unit : LinkUnit) : ([unit].map (·.source)).Nodup :=
        List.nodup_singleton unit.source
      have read : LinkUnit.IsRead 0 [statement] _ :=
        .ended (.here ⟨by simp [isModule], by simp⟩
          (.exit role opening (by simpa using whole))) (by simp [isModule])
      obtain ⟨late', early, state, knownLate, knownEarly, settled, settled',
          fields, matched⟩ :=
        names_linked_alone_first (distinct _)
          (fun unit member _ => ⟨0, [statement], by
            obtain rfl := List.mem_singleton.mp member
            exact read⟩)
          (show [_][0]? = some _ from rfl) isBound usable queued
          (by simp [kind, ReferenceKind.isName])
      obtain rfl := Option.some.inj (isLate.symm.trans knownLate)
      obtain rfl := Option.some.inj (first.symm.trans settled)
      obtain rfl : state = .resolved ⟨0, 1⟩ := by simpa using resolved
      exact ⟨statement, _, item, late, early, _, read, queued, kind, text, isLate,
        knownEarly, settled, settled', fields,
        matched ⟨some "a", "g"⟩ _ named (.inr owned.symm) rfl⟩

end Linking

end YangSchema
