import YangSchema.Proofs.Draft.Finished
import YangSchema.Proofs.Draft.Moments
import YangSchema.Proofs.Linking.Imports
import YangSchema.Proofs.Linking.Growing

/-!
# The links of a compilation

A unit that has just been read has no links, so it is connected, and it stays so
while it is linked alone.  Neither the units that it is put among nor the binding
of imports changes what it refers to.  So the units of a compilation are connected
wherever linking passes, from the first unit to the last round.
-/

namespace YangSchema

namespace Linking

/-- Units are connected, and whatever linking looks at among them is there. -/
structure IsWhole (phase : LinkPhase) (units : List LinkUnit) : Prop where
  connected : IsConnected phase units
  live : ∀ {ref}, (Scene.ofUnits units phase).LooksAt ref →
    (Scene.ofUnits units phase).IsLive ref

theorem IsConnected.isWhole {phase : LinkPhase} {units : List LinkUnit}
    (connected : IsConnected phase units) : IsWhole phase units :=
  ⟨connected, connected.isLive⟩

end Linking

namespace Draft

variable {draft : Draft} {statements : List Statement}

/-- A unit that has just been read refers to nothing but itself. -/
theorem IsFinished.isConnected (finished : draft.IsFinished) :
    Linking.IsConnected .intraFile [draft.asUnit] where
  distinct := List.nodup_singleton _
  units unit member _ := by
    obtain rfl := List.mem_singleton.mp member
    have unlinked := finished.unlinked
    have found : (Scene.ofUnits [draft.asUnit] .intraFile).unit?
        draft.asUnit.source = some draft.asUnit := by
      simp [Scene.unit?, Scene.ofUnits]
    exact
      { rooted := finished.rooted
        nested := finished.sound.nested
        members := unlinked.members
        links := fun linked => by
          cases linked with
          | construct known ofKind linked =>
              obtain ⟨node, inTree, rfl⟩ :=
                SchemaTree.construct?_eq_some_iff.mp known
              simp [(unlinked.nodes inTree).target] at linked
          | type declared linked =>
              obtain ⟨node, known, declared⟩ :=
                SchemaTree.typeAt?_eq_some_iff.mp declared
              rw [(unlinked.nodes known).types declared] at linked
              cases linked <;> simp_all [TypeLinks.none]
          | feature known listed linked =>
              have free := (unlinked.nodes known).features _
                (List.mem_of_getElem? listed)
              simp [free] at linked
        derived := fun declared bound => by
          obtain ⟨node, known, declared⟩ :=
            SchemaTree.typeAt?_eq_some_iff.mp declared
          simp [(unlinked.nodes known).types declared, TypeLinks.none] at bound
        named := fun {item ref} queued named => by
          have own := unlinked.queued item queued
          cases named with
          | consumer => exact Scene.isLive_of_unit? found rfl own.consumer
          | place => exact Scene.isLive_of_unit? found rfl own.place
          | resolved state => simp [own.pending] at state
          | union origin | typedef origin | leaf origin | uses origin =>
              simp [own.own] at origin
        deferred := unlinked.deferred }

/-- Reading binds no imports, and neither does linking. -/
theorem IsSound.linkInside_isUnbound (sound : draft.IsSound) :
    draft.linkInside.asUnit.IsUnbound := by
  intro header declared declaration listed
  rw [(asUnit_linkInside draft).2.text.header?] at declared
  obtain ⟨root, found, declared⟩ := Option.bind_eq_some_iff.mp declared
  exact (sound.nodes found).unbound _
    (Construct.mem_bindings_of_import declared listed)

theorem IsFinished.linkInside_isConnected (finished : draft.IsFinished) :
    Linking.IsConnected .intraFile [draft.linkInside.asUnit] := by
  have linked := finished.isConnected.of_passes (Linking.link_passes _ _)
  rwa [(asUnit_linkInside draft).1] at linked

/-- When the block of a unit is closed, the unit is finished but for being on the
stack. -/
def Moment.IsFinished : Moment → Prop
  | .entry _ _ => True
  | .exit _ _ inner statement =>
      statement.known ∈ [Keyword.module, .submodule] →
        (∃ root, inner.stack = [root]) ∧
          Draft.IsFinished { inner with stack := [] }

theorem Reaches.isFinished {moment : Moment}
    (reached : Reaches draft statements moment) (sound : draft.IsSound)
    (unlinked : draft.IsUnlinked)
    (held : draft.stack ≠ [] ∨ statements.length ≤ 1) :
    moment.IsFinished := by
  induction reached with
  | entry => trivial
  | @inside _ _ statement _ _ _ _ isBlock ok _ ih =>
      have unwinds := role_unwinds statement.known
      rw [isBlock] at unwinds
      cases unwinds with
      | block _ opens _ =>
          obtain ⟨frames, isOpening, pushed⟩ := opens rfl ok
          exact ih (pushed.sound sound) (pushed.unlinked sound unlinked)
            (.inl (pushed.held isOpening.ne_nil))
  | exit isBlock ok whole =>
      intro unit
      obtain ⟨-, -, stack, finished⟩ :=
        readAll_unit unit isBlock sound unlinked ok whole
      exact ⟨stack, finished⟩
  | @later _ _ rest _ whole reached ih =>
      have follows := (read_reads whole).follows
      obtain held | last := held
      · have held := follows.held.mpr held
        exact ih (follows.sound sound) (follows.unlinked held sound unlinked)
          (.inl held)
      · obtain rfl : rest = [] := by simpa using last
        cases reached

theorem ReachesTopLevel.isFinished {seen : Bool} {moment : Moment}
    (reached : ReachesTopLevel draft seen statements moment)
    (sound : draft.IsSound) (unlinked : seen = false → draft.IsUnlinked) :
    moment.IsFinished := by
  induction reached with
  | @here _ seen statement _ moment stands reached =>
      cases seen with
      | false => exact reached.isFinished sound (unlinked rfl) (.inr (Nat.le_refl 1))
      | true =>
          -- Behind the unit there are only statements without a block.
          have foreign : role statement.known = .foreign := by
            rw [stands.single rfl]
            rfl
          cases reached with
          | entry => trivial
          | inside isBlock | exit isBlock => simp [foreign] at isBlock
          | later _ reached => cases reached
  | @later _ seen statement _ _ stands whole _ ih =>
      refine ih ((read_reads whole).follows.sound sound) fun unseen => ?_
      obtain ⟨rfl, known⟩ : seen = false ∧
          statement.known = .extensionInstance := by simpa using unseen
      rw [read_of_extension known]
      exact (unlinked rfl).passOver statement

end Draft

namespace LinkUnit

/-- Headers are no links. -/
theorem IsConnectedIn.mapHeader {unit : LinkUnit} {scene : Scene}
    (whole : unit.IsConnectedIn scene) (change : ModuleHeader → ModuleHeader) :
    IsConnectedIn { unit with
      tree := unit.tree.modifyConstruct rootId (·.mapHeader change) } scene := by
  have types (slot : TypeSlot) :
      (unit.tree.modifyConstruct rootId (·.mapHeader change)).typeAt? slot =
        unit.tree.typeAt? slot :=
    SchemaTree.typeAt?_modifyConstruct _ (fun construct _ =>
      Construct.typeAt?_mapHeader change construct) slot
  refine whole.of_outline (.modifyConstruct (Construct.kind_mapHeader change)
      (Construct.typeAt?_mapHeader change)) (fun linked => .inl ?_)
    (fun declared => whole.derived (types _ ▸ declared)) whole.named
  obtain old | ⟨rfl, construct, known, changed⟩ :=
    SchemaTree.links_modifyConstruct linked
  · exact old
  obtain ⟨ofKind, linked⟩ | ⟨member, use, declared, linked⟩ := changed
  · refine .construct known ?_ ?_
    · cases construct <;> exact ofKind
    · cases construct <;> exact linked
  · refine .type ?_ linked
    rw [SchemaTree.typeAt?_eq]
    exact Option.bind_eq_some_iff.mpr
      ⟨construct, known, Construct.typeAt?_mapHeader change construct ▸ declared⟩

/-- A unit as it is when it has been linked alone. -/
structure IsLinkedAlone (unit : LinkUnit) : Prop where
  usable : unit.usable = true
  unbound : unit.IsUnbound
  connected : Linking.IsConnected .intraFile [unit]

/-- A unit is what another one, which has been linked alone, has become since. -/
structure Preserves (unit alone : LinkUnit) : Prop where
  before : alone.IsLinkedAlone
  resembles : alone.Resembles unit
  qualifier : unit.tree.ownQualifier? = alone.tree.ownQualifier?
  connected : unit.IsConnectedIn (.ofUnits [alone] .intraFile)

variable {unit : LinkUnit}

theorem IsLinkedAlone.preserves (alone : unit.IsLinkedAlone) :
    unit.Preserves unit where
  before := alone
  resembles := ⟨rfl, .refl unit.tree⟩
  qualifier := rfl
  connected := alone.connected.units unit (List.mem_singleton_self unit)
    alone.usable

/-- Binding imports and includes changes a header only. -/
theorem IsLinkedAlone.bindUnit (alone : unit.IsLinkedAlone)
    (entries : List UnitEntry) :
    (Linking.bindUnit entries unit).1.Preserves unit := by
  have same := alone.preserves
  unfold Linking.bindUnit
  split
  next entry header _ _ declared =>
    exact
      { before := alone
        resembles := ⟨rfl, .modifyConstruct (Construct.kind_mapHeader _)
          (Construct.typeAt?_mapHeader _)⟩
        qualifier := by
          rw [SchemaTree.ownQualifier?, SchemaTree.ownQualifier?, declared,
            Linking.header?_mapHeader declared]
          rfl
        connected := same.connected.mapHeader _ }
  · exact same

end LinkUnit

namespace Linking

/-- Units that have been linked alone are connected when they are put together. -/
theorem IsConnected.of_alone {phase : LinkPhase} {units : List LinkUnit}
    (distinct : (units.map (·.source)).Nodup)
    (each : ∀ unit ∈ units, unit.usable = true →
      ∃ alone, unit.Preserves alone) : IsConnected phase units where
  distinct := distinct
  units unit member usable := by
    obtain ⟨alone, preserves⟩ := each unit member usable
    have source : unit.source = alone.source :=
      preserves.resembles.outline.source
    have found : (Scene.ofUnits units phase).unit? unit.source = some unit :=
      @Scene.unit?_of_mem (.ofUnits units phase) distinct unit member
    have among : (Scene.ofUnits [alone] .intraFile).unit? alone.source =
        some alone := by
      simp [Scene.unit?, Scene.ofUnits]
    rw [source] at found
    refine preserves.connected.grows (Scene.grows_of_alone
      preserves.before.unbound found preserves.resembles preserves.qualifier)
      fun id inside => ?_
    rw [source]
    refine Scene.isLive_of_unit? among preserves.before.usable ?_
    rwa [← preserves.resembles.outline.size_eq]

theorem rejectUnit_eq_self {entries : List UnitEntry} {unit : LinkUnit}
    (usable : (rejectUnit entries unit).1.usable = true) :
    (rejectUnit entries unit).1 = unit := by
  unfold rejectUnit at usable ⊢
  split
  next entry root _ _ =>
    split
    · simp_all
    · rfl
  · rfl

theorem rejectUnit_source (entries : List UnitEntry) (unit : LinkUnit) :
    (rejectUnit entries unit).1.source = unit.source := by
  unfold rejectUnit
  split
  · split <;> rfl
  · rfl

theorem bindSources_eq (units : List LinkUnit) :
    (bindSources units).1 = units.map fun unit =>
      (bindUnit (entriesOf units) (rejectUnit (entriesOf units) unit).1).1 := by
  simp [bindSources, entriesOf]

/-- Binding imports leaves all units that can be used connected. -/
theorem bindSources_isConnected {units : List LinkUnit}
    (distinct : (units.map (·.source)).Nodup)
    (each : ∀ unit ∈ units, unit.usable = true → unit.IsLinkedAlone) :
    IsConnected .interFile (bindSources units).1 := by
  have sources : (bindSources units).1.map (·.source) =
      units.map (·.source) := by
    rw [bindSources_eq, List.map_map]
    exact List.map_congr_left fun unit _ =>
      (bindUnit_front _ _).1.trans (rejectUnit_source _ unit)
  refine .of_alone (sources ▸ distinct) fun bound member usable => ?_
  rw [bindSources_eq] at member
  obtain ⟨unit, among, rfl⟩ := List.mem_map.mp member
  rw [(bindUnit_front _ _).2] at usable
  have kept := rejectUnit_eq_self usable
  rw [kept] at usable ⊢
  exact ⟨unit, (each unit among usable).bindUnit _⟩

end Linking

theorem Analysis.source_ofStatements (source : SourceId)
    (statements : List Statement) :
    (ofStatements source statements).tree.source = source :=
  (Draft.readTopLevel_keeps statements (.refl (Draft.empty source).tree)).source

namespace Compilation

variable (parsed : ParsedSources)

/-- Units that have been read have different sources. -/
theorem ofParsed_distinct :
    ((ofParsed parsed).units.map (·.source)).Nodup := by
  have numbered : (List.range' 0 parsed.trees.length).Nodup :=
    List.nodup_range'
  rw [← List.zipIdx_map_snd 0 parsed.trees] at numbered
  simp only [ofParsed, ParsedSources.analyses, List.map_filterMap]
  refine List.pairwise_filterMap.mpr ((List.pairwise_map.mp numbered).imp ?_)
  rintro ⟨tree, id⟩ ⟨tree', id'⟩ other source isSource source' isSource'
  have names {tree : SyntaxTree} {id source : SourceId}
      (isSource : ((if parsed.diagnostics.hasErrorsIn id then none
          else some (Analysis.ofStatements id (Statement.ofTree tree))).map
            LinkUnit.ofAnalysis).map (·.source) = some source) :
      source = id := by
    split at isSource
    · simp at isSource
    · rw [← Option.some.inj isSource]
      exact Analysis.source_ofStatements id _
  rw [names isSource, names isSource']
  exact other

/-- A unit that can be used is what a source leaves behind, linked alone. -/
theorem ofParsed_isFinished {unit : LinkUnit}
    (member : unit ∈ (ofParsed parsed).units) (usable : unit.usable = true) :
    ∃ draft : Draft, draft.IsFinished ∧ unit = draft.linkInside.asUnit := by
  obtain ⟨analysis, listed, rfl⟩ := List.mem_map.mp member
  obtain ⟨⟨tree, id⟩, -, read⟩ := List.mem_filterMap.mp listed
  dsimp only at read
  split at read
  · simp at read
  · obtain rfl := Option.some.inj read
    obtain ⟨draft, finished, -, linked⟩ := LinkUnit.ofAnalysis_linkInside
      (by simpa [LinkUnit.ofAnalysis] using usable)
    exact ⟨draft, finished, linked⟩

theorem ofParsed_isLinkedAlone {unit : LinkUnit}
    (member : unit ∈ (ofParsed parsed).units) (usable : unit.usable = true) :
    unit.IsLinkedAlone := by
  obtain ⟨draft, finished, rfl⟩ := ofParsed_isFinished parsed member usable
  exact ⟨rfl, finished.sound.linkInside_isUnbound,
    finished.linkInside_isConnected⟩

/-- Links lead to nodes that are there, that belong to units which can be used and
that are of the right kind:  while each unit is linked alone, when they are put
together, when imports are bound and wherever linking passes from there on.  So
linking never looks for what is not there. -/
theorem linking_isWhole :
    (∀ (source : SourceId) (statements : List Statement)
      (before opened inner : Draft) (unit : Statement),
      Draft.ReachesTopLevel (.empty source) false statements
        (.exit before opened inner unit) →
      unit.known ∈ [Keyword.module, .submodule] →
        (∀ units, Linking.Passes .intraFile [inner.asUnit] units →
          Linking.IsWhole .intraFile units) ∧
        ∀ after, Draft.closeUnit inner unit = .ok after →
          Linking.Passes .intraFile [inner.asUnit] [after.asUnit]) ∧
    Linking.IsWhole .intraFile (ofParsed parsed).units ∧
    (∀ units, Linking.Passes .interFile
        (Linking.bindSources (ofParsed parsed).units).1 units →
      Linking.IsWhole .interFile units) ∧
    Linking.Passes .interFile (Linking.bindSources (ofParsed parsed).units).1
      (ofParsed parsed).linked.units := by
  have distinct := ofParsed_distinct parsed
  refine ⟨?_, ?_, fun units passes => ?_, Linking.link_passes _ _⟩
  · intro source statements before opened inner unit reached isUnit
    obtain ⟨⟨root, stack⟩, finished⟩ :=
      reached.isFinished (.empty source) (fun _ => .empty source) isUnit
    refine ⟨fun units passes => (finished.isConnected.of_passes passes).isWhole,
      fun after closed => ?_⟩
    have linked := (Draft.asUnit_linkInside { inner with stack := [] }).1
    rw [← Draft.closeUnit_eq_ok stack closed] at linked
    rw [← linked]
    exact Linking.link_passes .intraFile [inner.asUnit]
  · refine (Linking.IsConnected.of_alone distinct fun unit member usable => ?_).isWhole
    exact ⟨unit, (ofParsed_isLinkedAlone parsed member usable).preserves⟩
  · have bound := Linking.bindSources_isConnected distinct fun _ =>
      ofParsed_isLinkedAlone parsed
    exact (bound.of_passes passes).isWhole

end Compilation

end YangSchema
