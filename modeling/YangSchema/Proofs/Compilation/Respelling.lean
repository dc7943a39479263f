import YangSchema.Proofs.Compilation.Phases
import YangSchema.Proofs.Linking.RespelledFindings

/-!
# Compiling under another prefix

When the prefix of an import is written differently in one source, imports and
includes are bound to the same units, and linking finds the same targets for all
references of all units.
-/

namespace YangSchema

namespace Respelling

variable {ρ : Respelling} {source : SourceId}

section

variable {header header' : ModuleHeader}
  (headers : ρ.Headers source header header')
include headers

theorem Headers.revision? : header'.revision? = header.revision? := by
  by_cases here : source = ρ.source
  · rw [(headers.inside here).header]
    rfl
  · rw [headers.outside here]

theorem Headers.belongsTo : header'.belongsTo = header.belongsTo := by
  by_cases here : source = ρ.source
  · rw [(headers.inside here).header]
  · rw [headers.outside here]

omit headers in
theorem bindImport_importing (entries : List UnitEntry) (declaration : Import) :
    Linking.bindImport entries (ρ.importing declaration) =
      (ρ.importing (Linking.bindImport entries declaration).1,
        (Linking.bindImport entries declaration).2) := by
  unfold Linking.bindImport importing
  split <;> split <;> simp_all

/-- Imports are bound to the same units, and any header may take them. -/
theorem Headers.bind (entries : List UnitEntry) (includes : List Include)
    {other other' : ModuleHeader} (others : ρ.Headers source other other') :
    ρ.Headers source
      { other with
        imports := (header.imports.map (Linking.bindImport entries)).map (·.1)
        includes }
      { other' with
        imports := (header'.imports.map (Linking.bindImport entries)).map (·.1)
        includes } := by
  refine ⟨fun here => ?_, fun away => by
    rw [headers.outside away, others.outside away]⟩
  obtain ⟨-, -, unused, rfl⟩ := headers.inside here
  obtain ⟨own, fresh, -, rfl⟩ := others.inside here
  refine ⟨own, fresh, ?_, ?_⟩
  · simp only [List.map_map, List.mem_map]
    rintro _ ⟨declaration, listed, rfl⟩
    have kept : (Linking.bindImport entries declaration).1.qualifier =
        declaration.qualifier := by
      unfold Linking.bindImport
      split <;> rfl
    exact kept ▸ unused declaration listed
  · simp only [List.map_map, Function.comp_def, bindImport_importing]

theorem Headers.bindErrors (entries : List UnitEntry) :
    (header'.imports.map (Linking.bindImport entries)).flatMap (·.2) =
      (header.imports.map (Linking.bindImport entries)).flatMap (·.2) := by
  by_cases here : source = ρ.source
  · rw [(headers.inside here).header]
    simp only [List.map_map, List.flatMap_map, Function.comp_def,
      bindImport_importing]
  · rw [headers.outside here]

end

theorem Trees.root? {tree tree' : SchemaTree} (trees : ρ.Trees tree tree') :
    Option.Rel (ρ.Nodes tree.source) tree.root? tree'.root? :=
  trees.nodes rootId

section

variable {unit unit' : LinkUnit} (units : ρ.Units unit unit')
include units

theorem Units.entry : UnitEntry.of? unit' = UnitEntry.of? unit := by
  have source : unit'.source = unit.source := units.trees.source
  unfold UnitEntry.of?
  rcases rel_cases units.trees.root? with
    ⟨before, after⟩ | ⟨root, root', before, after, nodes⟩
  · rw [before, after]
  · rcases rel_cases units.trees.header? with
      ⟨before', after'⟩ | ⟨header, header', before', after', headers⟩
    · rw [before, after, before', after']
    · rw [before, after, before', after']
      simp only [source, nodes.name, nodes.kind, headers.revision?,
        headers.belongsTo, units.usable]

omit units in
theorem repeatedUnit_congr (entry : UnitEntry) {root root' : SchemaNode}
    (nodes : ρ.Nodes source root root') :
    Linking.repeatedUnit root' entry = Linking.repeatedUnit root entry := by
  unfold Linking.repeatedUnit
  rw [nodes.kind, nodes.rest]

/-- The same units are rejected. -/
theorem Units.rejectUnit (entries : List UnitEntry) :
    ρ.Units (Linking.rejectUnit entries unit).1
        (Linking.rejectUnit entries unit').1 ∧
      (Linking.rejectUnit entries unit').2 =
        (Linking.rejectUnit entries unit).2 := by
  have source : unit'.source = unit.source := units.trees.source
  unfold Linking.rejectUnit
  rw [source]
  cases entries.find? (·.source == unit.source) with
  | none => exact ⟨units, rfl⟩
  | some entry =>
      rcases rel_cases units.trees.root? with
        ⟨before, after⟩ | ⟨root, root', before, after, nodes⟩
      · rw [before, after]
        exact ⟨units, rfl⟩
      · rw [before, after]
        dsimp only
        rw [units.usable, repeatedUnit_congr entry nodes]
        split
        · exact ⟨⟨units.trees, rfl, units.deferred⟩, rfl⟩
        · exact ⟨units, rfl⟩

/-- Imports and includes are bound to the same units. -/
theorem Units.bindUnit (entries : List UnitEntry) :
    ρ.Units (Linking.bindUnit entries unit).1
        (Linking.bindUnit entries unit').1 ∧
      (Linking.bindUnit entries unit').2 =
        (Linking.bindUnit entries unit).2 := by
  have source : unit'.source = unit.source := units.trees.source
  unfold Linking.bindUnit
  rw [source, units.usable]
  cases usable : unit.usable with
  | false => exact ⟨units, rfl⟩
  | true =>
      cases entries.find? (·.source == unit.source) with
      | none => exact ⟨units, rfl⟩
      | some entry =>
          rcases rel_cases units.trees.header? with
            ⟨before, after⟩ | ⟨header, header', before, after, headers⟩
          · rw [before, after]
            exact ⟨units, rfl⟩
          · rw [before, after]
            dsimp only
            rw [headers.includes, headers.bindErrors]
            refine ⟨⟨?_, rfl, units.deferred⟩, rfl⟩
            refine units.trees.modifyConstruct rootId
              fun {construct construct'} same => ?_
            have kept := same
            cases same with
            | module others => exact .module (headers.bind entries _ others)
            | submodule others =>
                exact .submodule (headers.bind entries _ others)
            | plain plain =>
                cases construct <;> first
                  | exact kept
                  | simp [Construct.kind] at plain
            | _ => exact kept

end

section

variable {units units' : List LinkUnit}
  (same : List.Forall₂ ρ.Units units units')
include same

theorem entriesOf_congr :
    Linking.entriesOf units' = Linking.entriesOf units := by
  have entries : units'.filterMap UnitEntry.of? =
      units.filterMap UnitEntry.of? := by
    induction same with
    | nil => rfl
    | cons first _ ih =>
        rw [List.filterMap_cons, List.filterMap_cons, first.entry, ih]
  rw [Linking.entriesOf, Linking.entriesOf, entries]

/-- The same errors are found while sources are bound. -/
theorem bindSources_errors :
    (Linking.bindSources units').2 = (Linking.bindSources units).2 := by
  have entries := entriesOf_congr same
  unfold Linking.entriesOf at entries
  unfold Linking.bindSources
  rw [entries]
  generalize
    Linking.rejectRepeated [] (units.filterMap UnitEntry.of?) = accepted
  simp only [List.flatMap_def, List.map_map]
  exact congrArg₂ (List.flatten · ++ List.flatten ·)
    (map_eq_of_forall₂ same fun units => (units.rejectUnit accepted).2)
    (map_eq_of_forall₂ same fun units =>
      ((units.rejectUnit accepted).1.bindUnit accepted).2)

end

/-- The unit that is bound has the references that it has had before. -/
theorem Units.bound {leads : TypePlace → TypePlace → Prop}
    {unit unit' : LinkUnit} (units : ρ.Units unit unit')
    (entries : List UnitEntry)
    (resembles : List.Forall₂ ρ.Resembles unit.queue unit'.queue)
    (items : unit.usable = true →
      (Linking.bindUnit entries (Linking.rejectUnit entries unit).1).1.usable =
        true →
      List.Forall₂ (ρ.Items leads unit.source) unit.queue unit'.queue) :
    ρ.Links leads
      (Linking.bindUnit entries (Linking.rejectUnit entries unit).1).1
      (Linking.bindUnit entries (Linking.rejectUnit entries unit').1).1 := by
  have queue (unit : LinkUnit) :
      (Linking.bindUnit entries (Linking.rejectUnit entries unit).1).1.queue =
        unit.queue := by
    rw [Linking.bindUnit_queue]
    unfold Linking.rejectUnit
    split
    · split <;> rfl
    · rfl
  refine
    ⟨((units.rejectUnit entries).1.bindUnit entries).1, ?_, fun usable => ?_⟩
  · rw [queue, queue]
    exact resembles
  · rw [queue, queue, (Linking.bindUnit_front _ _).1, Linking.rejectUnit_source]
    refine items ?_ usable
    rw [(Linking.bindUnit_front _ _).2] at usable
    rwa [Linking.rejectUnit_eq_self usable] at usable

/-- The text of a reference that a source makes itself, with another text in its
place. -/
inductive WrittenText (ρ : Respelling) (source : SourceId)
    (kind : ReferenceKind) (text text' : String) : Prop
  | leafref {slot : TypeSlot} (leafref : kind = .leafref slot)
      (path : ρ.PathText source text text')
  | augment (augment : kind = .augment)
      (path : ρ.NodeIdText source text text')
  | name (isName : kind.isName = true) (name : ρ.NameText source text text')

structure Writes (ρ : Respelling) (source : SourceId) (item item' : Reference) :
    Prop where
  rest : item' = { item with text := item'.text }
  text : ρ.WrittenText source item.kind item.text item'.text

/-- A unit whose source writes the prefix differently, before any reference has
been linked. -/
structure Respells (ρ : Respelling) (unit unit' : LinkUnit) : Prop where
  units : ρ.Units unit unit'
  queue : List.Forall₂ (ρ.Writes unit.source) unit.queue unit'.queue

theorem WrittenText.spells {kind : ReferenceKind} {text text' : String}
    (texts : ρ.WrittenText source kind text text') : ρ.Spells text text' := by
  cases texts with
  | leafref _ path => exact path.spells
  | augment _ path => exact path.spells
  | name _ name => exact name.spells

theorem Writes.resembles {item item' : Reference}
    (writes : ρ.Writes source item item') : ρ.Resembles item item' := by
  obtain ⟨rest, text⟩ := writes
  rw [rest]
  exact ⟨rfl, text.spells, rfl, rfl, rfl, rfl, .same _⟩

theorem Writes.items {leads : TypePlace → TypePlace → Prop}
    {item item' : Reference} (writes : ρ.Writes source item item')
    (own : item.origin = none) (refl : ∀ place, leads place place) :
    ρ.Items leads source item item' := by
  obtain ⟨rest, text⟩ := writes
  generalize item'.text = text' at rest text
  subst rest
  have here : item.leafrefSource source = source := by
    rw [Reference.leafrefSource, own]
  have place : Scene.referencePlace source item = ⟨source, item.consumer⟩ := by
    rw [Scene.referencePlace, own]
  refine ⟨rfl, rfl, rfl, rfl, rfl, .same _, ?_⟩
  cases text with
  | leafref kind path =>
      exact .leafref source kind path fun _ => by rw [here]
  | augment kind path =>
      refine .augment kind ?_
      rw [place]
      exact path
  | name isName name =>
      by_cases derived : ∃ slot, item.kind = .derivedType slot
      · obtain ⟨slot, kind⟩ := derived
        refine .derived kind name.spells (fun _ => name.plain) ?_ here
          (refl (item.derivedPlace source slot))
        rw [Reference.derivedPlace, own]
      · refine .name isName (fun slot kind => derived ⟨slot, kind⟩) ?_
        rw [place]
        exact name

/-! A unit of another source stays as it is. -/

section

variable (other : source ≠ ρ.source)
include other

theorem Names.same (name : QualifiedName) : ρ.Names source name name :=
  ⟨fun here => absurd here other, fun _ => rfl⟩

theorem names_same (names : List QualifiedName) :
    List.Forall₂ (ρ.Names source) names names :=
  List.forall₂_same.mpr fun name _ => .same other name

omit other in
theorem rel_same {α : Type} {related : α → α → Prop} {item? : Option α}
    (same : ∀ item, related item item) : Option.Rel related item? item? := by
  cases item? with
  | none => exact .none
  | some item => exact .some (same item)

theorem NameText.same (text : String) : ρ.NameText source text text :=
  ⟨.same text, rel_same (Names.same other), rfl⟩

omit other in
theorem Reads.same {α : Type} {related : α → α → Prop}
    (read : Except PathError α) (same : ∀ item, related item item) :
    ρ.Reads related read read := by
  cases read with
  | error error => exact .error (.same _)
  | ok path => exact .path (same path)

theorem PathText.same (text : String) : ρ.PathText source text text :=
  ⟨.same text, rfl, .same _ fun path => ⟨rfl, rfl, names_same other path.steps⟩⟩

theorem NodeIdText.same (text : String) : ρ.NodeIdText source text text :=
  ⟨.same text, .same _ fun path => ⟨rfl, names_same other path.steps⟩⟩

theorem Types.same (use : TypeUse) : ρ.Types source use use :=
  ⟨rfl, .same other _, rel_same (PathText.same other),
    rel_same fun base => ⟨.same other base, .same other base.text⟩⟩

theorem Constructs.same (construct : Construct) :
    ρ.Constructs source construct construct := by
  have headers (header : ModuleHeader) : ρ.Headers source header header :=
    ⟨fun here => absurd here other, fun _ => rfl⟩
  cases construct with
  | module header => exact .module (headers header)
  | submodule header => exact .submodule (headers header)
  | list body => exact .list body.uniques
  | leaf body => exact .leaf body.default (rel_same (Types.same other))
  | leafList body => exact .leafList (rel_same (Types.same other))
  | typedef body => exact .typedef body.default (rel_same (Types.same other))
  | union members =>
      exact .union (List.forall₂_same.mpr fun use _ => .same other use)
  | uses body =>
      exact .uses body.grouping (List.forall₂_same.mpr fun refine _ =>
        ⟨rfl, .same other refine.target⟩)
  | augment body => exact .augment body.targetPath
  | identity body => exact .identity body.base
  | _ => exact .plain (by simp [Construct.kind])

end

theorem Respells.same {unit : LinkUnit} (other : unit.source ≠ ρ.source) :
    ρ.Respells unit unit := by
  refine ⟨⟨⟨rfl, fun id => rel_same fun node => ?_⟩, rfl, rfl⟩,
    List.forall₂_same.mpr fun item _ => ⟨rfl, ?_⟩⟩
  · exact ⟨rfl, .same other _, rfl⟩
  · cases kind : item.kind with
    | leafref slot => exact .leafref rfl (.same other _)
    | augment => exact .augment rfl (.same other _)
    | _ => exact .name rfl (.same other _)

/-! References inside each unit are linked first. -/

theorem typeAt?_alone {unit : LinkUnit} {phase : LinkPhase} {place : TypePlace}
    {use : TypeUse}
    (declared : (Scene.ofUnits [unit] phase).typeAt? place = some use) :
    place.node.source = unit.source ∧ place.node.node < unit.tree.size := by
  obtain ⟨construct, found, -⟩ := Option.bind_eq_some_iff.mp declared
  obtain ⟨node, known, -⟩ := Option.map_eq_some_iff.mp found
  obtain ⟨tree, isTree, inTree⟩ := Option.bind_eq_some_iff.mp known
  obtain ⟨other, member, rfl, source⟩ := Scene.tree?_mem isTree
  obtain rfl := List.mem_singleton.mp member
  exact ⟨source.symm, (Array.getElem?_eq_some_iff.mp inTree).1⟩

/-- A unit that is alone takes nothing over. -/
theorem keptApart_alone (unit : LinkUnit) (phase : LinkPhase) :
    ρ.KeptApart (.ofUnits [unit] phase) := by
  intro place last use path leads declared _ _ _
  have atEnd := (typeAt?_alone declared).1
  have atStart : place.node.source = unit.source := by
    cases leads with
    | refl => exact atEnd
    | member _ declared => exact (typeAt?_alone declared).1
    | typedef declared => exact (typeAt?_alone declared).1
  rw [atEnd, atStart]

/-- Two units in which references inside the unit have been linked. -/
structure ReadsAs (ρ : Respelling) (alone alone' : LinkUnit) : Prop where
  units : ρ.Units alone alone'
  resembles : List.Forall₂ ρ.Resembles alone.queue alone'.queue
  items : alone.usable = true → List.Forall₂
    (ρ.Items (Scene.ofUnits [alone] .intraFile).Involves alone.source)
    alone.queue alone'.queue

theorem Respells.readsAs {unit unit' alone alone' : LinkUnit}
    (respells : ρ.Respells unit unit')
    (own : unit.usable = true → ∀ item ∈ unit.queue, item.origin = none)
    (linked : Linking.link .intraFile [unit] = [alone])
    (linked' : Linking.link .intraFile [unit'] = [alone']) :
    ρ.ReadsAs alone alone' := by
  obtain ⟨units, queue⟩ := respells
  cases usable : unit.usable with
  | false =>
      have usable' := units.usable.trans usable
      rw [Linking.link_alone_of_unusable usable] at linked
      rw [Linking.link_alone_of_unusable usable'] at linked'
      obtain rfl := List.singleton_inj.mp linked
      obtain rfl := List.singleton_inj.mp linked'
      refine ⟨units, queue.imp fun _ _ => Writes.resembles, fun isUsable => ?_⟩
      rw [usable] at isUsable
      cases isUsable
  | true =>
      have items : List.Forall₂
          (ρ.Items (Scene.ofUnits [unit] .intraFile).Involves unit.source)
          unit.queue unit'.queue := by
        refine (forall₂_mem queue).imp fun item item' same => ?_
        exact same.2.items (own usable item same.1) .refl
      have start : ρ.Runs .intraFile (Scene.ofUnits [unit] .intraFile).Involves
          [unit] [unit'] :=
        ⟨.cons (.of_items units items) .nil, rfl, keptApart_alone unit _,
          List.nodup_singleton _⟩
      have runs := start.link
      rw [linked, linked'] at runs
      obtain ⟨links, leads, -, -⟩ := runs
      obtain ⟨units, resembles, items⟩ := (List.forall₂_cons.mp links).1
      exact ⟨units, resembles, leads ▸ items⟩

/-- All units are linked alone. -/
theorem readsAs_of_respells {units units' alones alones' : List LinkUnit}
    (own : ∀ unit ∈ units, unit.usable = true →
      ∀ item ∈ unit.queue, item.origin = none)
    (respelled : List.Forall₂ (fun unit unit' =>
      ρ.At unit.source ρ.Respells unit unit') units units')
    (linked : List.Forall₂ (fun alone unit =>
      Linking.link .intraFile [unit] = [alone]) alones units)
    (linked' : List.Forall₂ (fun alone unit =>
      Linking.link .intraFile [unit] = [alone]) alones' units') :
    List.Forall₂ ρ.ReadsAs alones alones' := by
  induction respelled generalizing alones alones' with
  | nil =>
      cases linked
      cases linked'
      exact .nil
  | @cons unit unit' _ _ first _ ih =>
      obtain ⟨here, others⟩ := List.forall_mem_cons.mp own
      cases linked with
      | cons is more =>
          cases linked' with
          | cons is' more' =>
              have respells : ρ.Respells unit unit' := by
                by_cases inside : unit.source = ρ.source
                · exact first.inside inside
                · rw [first.outside inside]
                  exact .same inside
              exact .cons (respells.readsAs here is is') (ih others more more')

theorem Items.imp {leads leads' : TypePlace → TypePlace → Prop}
    {item item' : Reference} (items : ρ.Items leads source item item')
    (further : ∀ {first last}, leads first last → leads' first last) :
    ρ.Items leads' source item item' := by
  refine ⟨items.kind, items.consumer, items.position, items.span, items.origin,
    items.states, ?_⟩
  cases items.text with
  | leafref home kind path apart => exact .leafref home kind path apart
  | augment kind path => exact .augment kind path
  | derived kind spells plain own here leads =>
      exact .derived kind spells plain own here (further leads)
  | name kind direct name => exact .name kind direct name

/-- Types of a unit lead to each other when it is put among others. -/
theorem involves_of_alone {alone bound : LinkUnit} {units : List LinkUnit}
    {phase : LinkPhase} {first last : TypePlace}
    (preserves : bound.Preserves alone)
    (found : (Scene.ofUnits units phase).unit? alone.source = some bound)
    (leads : (Scene.ofUnits [alone] .intraFile).Involves first last) :
    (Scene.ofUnits units phase).Involves first last := by
  have growth := Scene.grows_of_alone preserves.before.unbound found
    preserves.resembles preserves.qualifier
  have known : (Scene.ofUnits [alone] .intraFile).unit? alone.source =
      some alone := by
    simp [Scene.unit?, Scene.ofUnits]
  refine leads.later fun {place use} declared => ?_
  obtain ⟨source, inside⟩ := typeAt?_alone declared
  have live : (Scene.ofUnits [alone] .intraFile).IsLive place.node :=
    Scene.isLive_of_unit? (source ▸ known) preserves.before.usable inside
  exact ⟨growth.agree live.usable, growth.lexical live⟩

end Respelling

namespace Linking

/-- Binding sources keeps their units apart. -/
theorem bindSources_sources (units : List LinkUnit) :
    (bindSources units).1.map (·.source) = units.map (·.source) := by
  rw [bindSources_eq, List.map_map]
  exact List.map_congr_left fun unit _ =>
    (bindUnit_front _ _).1.trans (rejectUnit_source _ unit)

end Linking

namespace Respelling

variable {ρ : Respelling}

/-- Units in which references have been linked alone are put together. -/
theorem runs_bindSources {units units' : List LinkUnit}
    (distinct : (units.map (·.source)).Nodup)
    (alone : ∀ unit ∈ units, unit.usable = true → unit.IsLinkedAlone)
    (reads : List.Forall₂ ρ.ReadsAs units units')
    (apart : ρ.KeptApart
      (.ofUnits (Linking.bindSources units).1 .interFile)) :
    ρ.Runs .interFile
      (Scene.ofUnits (Linking.bindSources units).1 .interFile).Involves
      (Linking.bindSources units).1 (Linking.bindSources units').1 := by
  have distinctBound : ((Linking.bindSources units).1.map
      (·.source)).Nodup := (Linking.bindSources_sources units).symm ▸ distinct
  refine ⟨forall₂_of_getElem? fun place => ?_, rfl, apart, distinctBound⟩
  have bound := Linking.getElem?_bindSources units place
  rw [Linking.getElem?_bindSources, Linking.getElem?_bindSources,
    entriesOf_congr (reads.imp fun _ _ same => same.units)]
  rcases rel_cases (rel_getElem? reads place) with
    ⟨before, after⟩ | ⟨unit, unit', before, after, same⟩
  · rw [before, after]
    exact .none
  · rw [before, after]
    rw [before, Option.map_some] at bound
    refine .some (same.units.bound _ same.resembles fun usable accepted => ?_)
    have isAlone := alone unit (List.mem_of_getElem? before) usable
    rw [(Linking.bindUnit_front _ _).2] at accepted
    rw [Linking.rejectUnit_eq_self accepted] at bound
    have preserves := isAlone.bindUnit (Linking.entriesOf units)
    have found := @Scene.unit?_of_mem (.ofUnits _ .interFile) distinctBound _
      (List.mem_of_getElem? bound)
    rw [(Linking.bindUnit_front _ _).1] at found
    exact (same.items usable).imp fun _ _ items =>
      items.imp fun further => involves_of_alone preserves found further

/-- Linked units that agree but for the spelling of the prefix: every link is
the same, and so is the state of every reference. -/
structure Agrees (ρ : Respelling) (unit unit' : LinkUnit) : Prop where
  source : unit'.source = unit.source
  usable : unit'.usable = unit.usable
  links : ∀ field, unit'.tree.link? field = unit.tree.link? field
  references : List.Forall₂ ρ.Resembles unit.queue unit'.queue

theorem Links.agrees {leads : TypePlace → TypePlace → Prop}
    {unit unit' : LinkUnit} (links : ρ.Links leads unit unit') :
    ρ.Agrees unit unit' where
  source := links.units.trees.source
  usable := links.units.usable
  links := links.units.trees.link?
  references := links.resembles

/-- Where no leafref is written, nothing is taken over. -/
theorem keptApart_of_types {scene : Scene}
    (plain : ∀ unit ∈ scene.units, ∀ node ∈ unit.tree.nodes.toList,
      node.kind ≠ .union ∧
        ∀ use ∈ node.construct.typeAt? none, use.builtin ≠ some .leafref) :
    ρ.KeptApart scene := by
  intro place last use path _ declared builtin _ _
  obtain ⟨construct, found, written⟩ := Option.bind_eq_some_iff.mp declared
  obtain ⟨node, known, rfl⟩ := Option.map_eq_some_iff.mp found
  obtain ⟨tree, isTree, inTree⟩ := Option.bind_eq_some_iff.mp known
  obtain ⟨unit, member, rfl, -⟩ := Scene.tree?_mem isTree
  obtain ⟨other, types⟩ := plain unit member node
    (Array.mem_toList_iff.mpr (Array.mem_of_getElem? inTree))
  cases slot : last.member with
  | none =>
      rw [slot] at written
      exact absurd builtin (types use written)
  | some index =>
      rw [slot] at written
      cases construct : node.construct <;>
        simp_all [Construct.typeAt?, SchemaNode.kind, Construct.kind]

end Respelling

namespace Compilation

/-- The prefix of an import is written differently in one source, in the import
and wherever the prefix is used; no type may take over an absolute leafref path
that begins with it from or into another unit.  Then every unit has the same
links, every reference the same state, and linking reports the same. -/
theorem linked_of_respelled {ρ : Respelling} {parsed parsed' : ParsedSources}
    {units units' : List LinkUnit}
    (read : Linking.linkAlone units = (ofParsed parsed).units)
    (read' : Linking.linkAlone units' = (ofParsed parsed').units)
    (own : ∀ unit ∈ units, unit.usable = true →
      ∀ item ∈ unit.queue, item.origin = none)
    (respelled : List.Forall₂ (fun unit unit' =>
      ρ.At unit.source ρ.Respells unit unit') units units')
    (apart : ρ.KeptApart (Scene.ofUnits
      (Linking.bindSources (ofParsed parsed).units).1 .interFile)) :
    List.Forall₂ ρ.Agrees (ofParsed parsed).linked.units
        (ofParsed parsed').linked.units ∧
      ∃ reported reported',
        (ofParsed parsed).linked.diagnostics =
          (ofParsed parsed).diagnostics ++ reported ∧
        (ofParsed parsed').linked.diagnostics =
          (ofParsed parsed').diagnostics ++ reported' ∧
        List.Forall₂ ρ.Diagnoses reported reported' := by
  have reads : List.Forall₂ ρ.ReadsAs (ofParsed parsed).units
      (ofParsed parsed').units :=
    Respelling.readsAs_of_respells own respelled
      (Linking.linkAlone_eq_iff.mp read) (Linking.linkAlone_eq_iff.mp read')
  have runs := (Respelling.runs_bindSources (ofParsed_distinct parsed)
    (fun _ => ofParsed_isLinkedAlone parsed) reads apart).link
  have problems := Respelling.bindSources_errors
    (reads.imp fun _ _ same => same.units)
  have reported : List.Forall₂ ρ.Diagnoses
      (Linking.bindSources (ofParsed parsed).units).2
      (Linking.bindSources (ofParsed parsed').units).2 := by
    rw [problems]
    exact List.forall₂_same.mpr fun diagnostic _ => ⟨rfl, .same _⟩
  exact ⟨runs.links.imp fun _ _ => Respelling.Links.agrees, _, _,
    List.append_assoc .., List.append_assoc ..,
    List.rel_append reported runs.findings⟩

/-- A type of another module, by one prefix and by another one. -/
theorem linked_of_respelled_type :
    let base : Source := ⟨.inline, "module t \x7b namespace \"u:t\"; " ++
      "prefix t; typedef s \x7b type string; \x7d \x7d"⟩
    let text (qualifier : String) : Source := ⟨.inline,
      "module m \x7b namespace \"u:m\"; prefix m; import t \x7b prefix " ++
        qualifier ++ "; \x7d leaf r \x7b type " ++ qualifier ++ ":s; \x7d \x7d"⟩
    let ρ : Respelling := ⟨1, "p", "q"⟩
    ∃ parsed parsed',
      ParsedSources.ofSources .standard [base, text "p"] = .ok parsed ∧
      ParsedSources.ofSources .standard [base, text "q"] = .ok parsed' ∧
      List.Forall₂ ρ.Agrees (ofParsed parsed).linked.units
        (ofParsed parsed').linked.units := by
  intro base text ρ
  let unit (qualifier : String) : LinkUnit :=
    { tree := ⟨1, #[
        .ofConstruct (.module { ModuleHeader.empty with
          namespaceUri := some "u:m"
          qualifier := "m"
          imports := [⟨"t", qualifier, none, ⟨1, 39⟩, ⟨38, 46⟩, none⟩] })
          "m" ⟨1, 1⟩ ⟨0, 8⟩,
        { SchemaNode.ofConstruct (.leaf ⟨some (.ofName ⟨some qualifier, "s"⟩
            ⟨1, 71⟩ ⟨70, 78⟩), none, none, false, ⟨true, false⟩⟩)
            "r" ⟨1, 62⟩ ⟨61, 67⟩ with ancestors := [0] }]⟩
      queue := [.ofText (.derivedType ⟨1, none⟩) (qualifier ++ ":" ++ "s") 1
        ⟨1, 71⟩ ⟨70, 78⟩]
      usable := true
      deferredKeys := [] }
  have checked :
      ((ParsedSources.ofSources .standard [base, text "p"]).toOption.any
        fun parsed =>
          (ParsedSources.ofSources .standard [base, text "q"]).toOption.any
            fun parsed' =>
              (ofParsed parsed).units.head?.any fun first =>
                first.source == 0 && first.queue.isEmpty &&
                  (ofParsed parsed).units == [first, unit "p"] &&
                  (ofParsed parsed').units == [first, unit "q"] &&
                  Linking.linkAlone [first, unit "p"] == [first, unit "p"] &&
                  Linking.linkAlone [first, unit "q"] == [first, unit "q"] &&
                  (Linking.bindSources [first, unit "p"]).1.all fun bound =>
                    bound.tree.nodes.toList.all fun node =>
                      node.kind != .union && (node.construct.typeAt? none).all
                        (·.builtin != some .leafref)) = true := by
    decide +kernel
  simp only [Option.any_eq_true, toOption_eq_some_iff, Bool.and_eq_true,
    beq_iff_eq, List.isEmpty_iff] at checked
  obtain ⟨parsed, parses, parsed', parses', first, -, ⟨⟨⟨⟨⟨source, empty⟩,
    units⟩, units'⟩, alone⟩, alone'⟩, types⟩ := checked
  have renamed : ρ.Names 1 ⟨some "p", "s"⟩ ⟨some "q", "s"⟩ :=
    ⟨fun _ => ⟨by decide, by decide⟩, fun other => absurd rfl other⟩
  have names : ρ.NameText 1 ("p" ++ ":" ++ "s") ("q" ++ ":" ++ "s") := by
    have read (qualifier : String) (is : qualifier ∈ ["p", "q"]) :
        QualifiedName.parse? (qualifier ++ ":" ++ "s") =
          some ⟨some qualifier, "s"⟩ ∧
        Text.afterLast ':' (qualifier ++ ":" ++ "s").toList = ['s'] := by
      revert is
      revert qualifier
      decide +kernel
    obtain ⟨parsed, plain⟩ := read "p" (by decide)
    obtain ⟨parsed', plain'⟩ := read "q" (by decide)
    refine ⟨.append .qualifier (.same "s"), ?_, plain'.trans plain.symm⟩
    rw [parsed, parsed']
    exact .some renamed
  have respells : ρ.Respells (unit "p") (unit "q") := by
    refine ⟨⟨⟨rfl, fun id => ?_⟩, rfl, rfl⟩, .cons ⟨rfl, .name rfl names⟩ .nil⟩
    match id with
    | 0 =>
        refine .some ⟨rfl, .module ⟨fun _ => ?_, fun other => absurd rfl other⟩,
          rfl⟩
        exact ⟨by decide, by decide, by decide, by decide⟩
    | 1 =>
        exact .some ⟨rfl, .leaf none (.some ⟨rfl, renamed, .none, .none⟩), rfl⟩
    | _ + 2 => exact .none
  refine ⟨parsed, parsed', parses, parses',
    (linked_of_respelled (alone.trans units.symm) (alone'.trans units'.symm)
      (fun other member _ item queued => ?_)
      (.cons ⟨fun inside => ?_, fun _ => rfl⟩
        (.cons ⟨fun _ => respells, fun other => absurd rfl other⟩ .nil))
      (units ▸ Respelling.keptApart_of_types ?_)).1⟩
  · obtain rfl | rfl := by simpa using member
    · simp [empty] at queued
    · obtain rfl := by simpa [unit] using queued
      rfl
  · rw [source] at inside
    exact absurd inside (by decide)
  · intro bound member node listed
    have plain := List.all_eq_true.mp (List.all_eq_true.mp types bound member)
      node listed
    simpa [Option.all_eq_true] using plain

/-- A prefix that comes with a type means what it means to the unit with the
type. -/
theorem compile_depends_on_prefix :
    let base : Source := ⟨.inline, "module t \x7b namespace \"u:t\"; " ++
      "prefix t; leaf x \x7b type string; \x7d \x7d"⟩
    let text (qualifier : String) : Source := ⟨.inline,
      "module m \x7b namespace \"u:m\"; prefix m; import t \x7b prefix " ++
        qualifier ++ "; \x7d typedef ref \x7b type leafref \x7b path \"/" ++
        qualifier ++ ":x\"; \x7d \x7d \x7d"⟩
    let user : Source := ⟨.inline, "module n \x7b namespace \"u:n\"; " ++
      "prefix n; import m \x7b prefix m; \x7d import t \x7b prefix p; \x7d " ++
      "leaf r \x7b type m:ref; \x7d \x7d"⟩
    ∃ first second, compile .standard [base, text "p", user] = .ok first ∧
      compile .standard [base, text "q", user] = .ok second ∧
      first.isValid = true ∧ second.isValid = false := by
  intro base text user
  have checked : ((compile .standard [base, text "p", user]).toOption.any
        (·.isValid) &&
      (compile .standard [base, text "q", user]).toOption.any
        (!·.isValid)) = true := by
    decide +kernel
  simp only [Bool.and_eq_true, Option.any_eq_true, toOption_eq_some_iff,
    Bool.not_eq_true'] at checked
  obtain ⟨⟨first, compiled, valid⟩, second, compiled', invalid⟩ := checked
  exact ⟨first, second, compiled, compiled', valid, invalid⟩

end Compilation

end YangSchema
