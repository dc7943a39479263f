import YangSchema.Linking.Imports
import YangSchema.Proofs.Draft.Refusing
import YangSchema.Proofs.Linking.Settling

/-!
# Binding the sources of a compilation

An import or an include that is not bound is reported as an error, and so is a
unit that repeats another one.  Where nothing is reported every unit is still
usable, and its imports and includes are bound to units of the compilation.
-/

namespace YangSchema

theorem Diagnostics.hasErrors_append (first second : Diagnostics) :
    Diagnostics.hasErrors (first ++ second) =
      (first.hasErrors || second.hasErrors) :=
  List.any_append

theorem Diagnostics.not_isError {diagnostics : Diagnostics}
    (quiet : diagnostics.hasErrors = false) {diagnostic : Diagnostic}
    (reported : diagnostic ∈ diagnostics) : diagnostic.isError ≠ true := by
  simpa using List.any_eq_false.mp quiet diagnostic reported

namespace Construct

variable (change : ModuleHeader → ModuleHeader) (construct : Construct)

theorem kind_mapHeader : (construct.mapHeader change).kind = construct.kind := by
  cases construct <;> rfl

theorem missingTarget?_mapHeader :
    (construct.mapHeader change).missingTarget? = construct.missingTarget? := by
  cases construct <;> rfl

theorem typeAt?_mapHeader :
    (construct.mapHeader change).typeAt? = construct.typeAt? := by
  cases construct <;> rfl

end Construct

/-- Nothing that linking is about has changed. -/
theorem LinkUnit.IsSound.modifyConstruct {unit : LinkUnit} {id : NodeId}
    {change : Construct → Construct} (sound : unit.IsSound)
    (kind : ∀ construct, (change construct).kind = construct.kind)
    (missing : ∀ construct,
      (change construct).missingTarget? = construct.missingTarget?)
    (types : ∀ construct, (change construct).typeAt? = construct.typeAt?) :
    LinkUnit.IsSound
      { unit with tree := unit.tree.modifyConstruct id change } where
  accounts := by
    intro place gapKind gap
    have keeps : unit.tree.Keeps (unit.tree.modifyConstruct id change) :=
      .modifyConstruct fun construct _ => kind construct
    obtain old | ⟨rfl, construct, found, gap⟩ :=
      SchemaTree.hasGap_modifyConstruct (fun construct _ => kind construct) gap
    · exact sound.accounts old
    obtain ⟨node, known, rfl⟩ := SchemaTree.construct?_eq_some_iff.mp found
    have gap := gap.mono (keeps.isTemplate known) (keeps.isInGrouping known)
    refine sound.accounts (.construct known ?_)
    cases gap with
    | target lacking => exact .target (missing _ ▸ lacking)
    | type declared outside gap => exact .type (types _ ▸ declared) outside gap
  nodes := SchemaTree.forall_node_modifyConstruct sound.nodes fun known =>
    { typedef := fun is => (sound.nodes known).typedef ((kind _).symm.trans is)
      types := fun declared => (sound.nodes known).types (types _ ▸ declared) }
  unblocked := sound.unblocked

namespace UnitEntry

variable {entries : List UnitEntry} {entry : UnitEntry}

theorem newest?_mem (found : newest? entries = some entry) :
    entry ∈ entries := by
  induction entries with
  | nil => simp [newest?] at found
  | cons first rest ih =>
      unfold newest? at found
      split at found
      · simp_all
      next best known =>
        split at found
        · exact List.mem_cons_of_mem first (ih (known.trans found))
        · simp_all

theorem pick?_mem {name : String} {revision : Option String}
    {submodule : Bool}
    (picked : pick? entries name revision submodule = some entry) :
    entry ∈ entries :=
  (List.mem_filter.mp (newest?_mem picked)).1

theorem of?_source {unit : LinkUnit} (known : of? unit = some entry) :
    entry.source = unit.source := by
  unfold of? at known
  split at known
  · obtain rfl := Option.some.inj known
    rfl
  · simp at known

theorem of?_isSome {unit : LinkUnit} {header : ModuleHeader}
    (declared : unit.tree.header? = some header) : (of? unit).isSome := by
  obtain ⟨root, found, _⟩ := Option.bind_eq_some_iff.mp declared
  simp [of?, declared, found]

end UnitEntry

namespace Linking

theorem rejectRepeated_sources (accepted entries : List UnitEntry) :
    (rejectRepeated accepted entries).map (·.source) =
      accepted.map (·.source) ++ entries.map (·.source) := by
  induction entries generalizing accepted with
  | nil => simp [rejectRepeated]
  | cons entry rest ih => simp [rejectRepeated, ih]

/-- The units that an import can be bound to. -/
def entriesOf (units : List LinkUnit) : List UnitEntry :=
  rejectRepeated [] (units.filterMap UnitEntry.of?)

theorem entriesOf_source {units : List LinkUnit} {entry : UnitEntry}
    (listed : entry ∈ entriesOf units) :
    ∃ unit ∈ units, unit.source = entry.source := by
  have source := List.mem_map_of_mem (f := (·.source)) listed
  rw [entriesOf, rejectRepeated_sources] at source
  simp only [List.map_nil, List.nil_append, List.mem_map,
    List.mem_filterMap] at source
  obtain ⟨other, ⟨unit, member, known⟩, same⟩ := source
  exact ⟨unit, member, (UnitEntry.of?_source known).symm.trans same⟩

theorem entriesOf_find? {units : List LinkUnit} {unit : LinkUnit}
    {header : ModuleHeader} (member : unit ∈ units)
    (declared : unit.tree.header? = some header) :
    ((entriesOf units).find? (·.source == unit.source)).isSome := by
  obtain ⟨entry, known⟩ :=
    Option.isSome_iff_exists.mp (UnitEntry.of?_isSome declared)
  have listed : unit.source ∈ (entriesOf units).map (·.source) := by
    rw [entriesOf, rejectRepeated_sources]
    simp only [List.map_nil, List.nil_append, List.mem_map, List.mem_filterMap]
    exact ⟨entry, ⟨unit, member, known⟩, UnitEntry.of?_source known⟩
  obtain ⟨found, listed, same⟩ := List.mem_map.mp listed
  exact List.find?_isSome.mpr ⟨found, listed, by simpa using same⟩

/-- A unit that has been rejected has been reported. -/
theorem rejectUnit_quiet {entries : List UnitEntry} {unit : LinkUnit}
    (quiet : (rejectUnit entries unit).2.hasErrors = false) :
    (rejectUnit entries unit).1 = unit := by
  unfold rejectUnit at quiet ⊢
  split
  next entry root _ _ =>
    split
    · simp_all [Diagnostics.hasErrors, Diagnostic.isError,
        Diagnostic.severity, StatementError.toDiagnostic, Diagnostic.ofKind,
        repeatedUnit, StatementError.withHint, StatementError.atPlace]
    · rfl
  · rfl

/-- An import that has not been bound has been reported. -/
theorem bindImport_quiet {entries : List UnitEntry} {declaration : Import}
    (quiet : ∀ error ∈ (bindImport entries declaration).2,
      ¬ error.IsSevere) :
    ∃ entry ∈ entries,
      (bindImport entries declaration).1.resolved = some entry.source := by
  unfold bindImport at quiet ⊢
  split
  next entry picked => exact ⟨entry, UnitEntry.pick?_mem picked, rfl⟩
  next unknown => simp [unknown] at quiet

theorem bindInclude_quiet {entries : List UnitEntry} {parent : String}
    {declaration : Include}
    (quiet : ∀ error ∈ (bindInclude entries parent declaration).2,
      ¬ error.IsSevere) :
    (bindInclude entries parent declaration).1.resolved.isSome := by
  unfold bindInclude at quiet ⊢
  dsimp only at quiet ⊢
  split
  next entry picked =>
    split
    · rfl
    next other => simp [picked, other] at quiet
  next unknown => simp [unknown] at quiet

/-- The imports and includes of a unit are bound, the imports to some of the
sources. -/
def IsBound (sources : List SourceId) (unit : LinkUnit) : Prop :=
  ∀ header, unit.tree.header? = some header →
    (∀ declaration ∈ header.imports, ∃ source ∈ sources,
      declaration.resolved = some source) ∧
    ∀ declaration ∈ header.includes, declaration.resolved.isSome

section

variable {entries : List UnitEntry} {unit : LinkUnit}

theorem bindUnit_front (entries : List UnitEntry) (unit : LinkUnit) :
    (bindUnit entries unit).1.source = unit.source ∧
      (bindUnit entries unit).1.usable = unit.usable := by
  unfold bindUnit
  split <;> exact ⟨rfl, rfl⟩

theorem header?_mapHeader {tree : SchemaTree} {header : ModuleHeader}
    (declared : tree.header? = some header)
    (change : ModuleHeader → ModuleHeader) :
    (tree.modifyConstruct rootId (·.mapHeader change)).header? =
      some (change header) := by
  obtain ⟨root, found, declared⟩ := Option.bind_eq_some_iff.mp declared
  rw [SchemaTree.header?, SchemaTree.root?, SchemaTree.node?_modifyConstruct,
    if_pos rfl, show tree.node? rootId = some root from found]
  cases construct : root.construct <;>
    simp_all [Construct.header?, Construct.mapHeader]

theorem bindUnit_isSound (sound : unit.IsSound) :
    (bindUnit entries unit).1.IsSound := by
  unfold bindUnit
  split
  · exact sound.modifyConstruct (fun _ => Construct.kind_mapHeader _ _)
      (fun _ => Construct.missingTarget?_mapHeader _ _)
      (fun _ => Construct.typeAt?_mapHeader _ _)
  · exact sound

theorem bindUnit_quiet {header : ModuleHeader} {entry : UnitEntry}
    (usable : unit.usable = true)
    (listed : entries.find? (·.source == unit.source) = some entry)
    (declared : unit.tree.header? = some header)
    (quiet : (bindUnit entries unit).2.hasErrors = false) :
    IsBound (entries.map (·.source)) (bindUnit entries unit).1 := by
  have silent : ∀ error : StatementError,
      error.toDiagnostic unit.source ∈ (bindUnit entries unit).2 →
        ¬ error.IsSevere := fun error reported severe =>
    Diagnostics.not_isError quiet reported (severe.isError_toDiagnostic _)
  revert silent
  simp only [bindUnit, usable, listed, declared]
  intro silent header' declared'
  rw [header?_mapHeader declared] at declared'
  obtain rfl := Option.some.inj declared'
  constructor
  · intro declaration bound
    obtain ⟨outcome, listed, rfl⟩ := List.mem_map.mp bound
    obtain ⟨written, _, rfl⟩ := List.mem_map.mp listed
    obtain ⟨found, among, resolved⟩ := bindImport_quiet fun error raised =>
      silent error <| List.mem_map_of_mem <| List.mem_append_left _ <|
        List.mem_flatMap.mpr ⟨_, listed, raised⟩
    exact ⟨found.source, List.mem_map_of_mem among, resolved⟩
  · intro declaration bound
    obtain ⟨outcome, listed, rfl⟩ := List.mem_map.mp bound
    obtain ⟨written, _, rfl⟩ := List.mem_map.mp listed
    exact bindInclude_quiet fun error raised =>
      silent error <| List.mem_map_of_mem <| List.mem_append_right _ <|
        List.mem_flatMap.mpr ⟨_, listed, raised⟩

theorem bindUnit_isBound (usable : unit.usable = true)
    (listed : ∀ header, unit.tree.header? = some header →
      (entries.find? (·.source == unit.source)).isSome)
    (quiet : (bindUnit entries unit).2.hasErrors = false) :
    IsBound (entries.map (·.source)) (bindUnit entries unit).1 := by
  cases declared : unit.tree.header? with
  | some header =>
      obtain ⟨entry, found⟩ :=
        Option.isSome_iff_exists.mp (listed header declared)
      exact bindUnit_quiet usable found declared quiet
  | none =>
      intro header declared'
      simp [bindUnit, declared] at declared'

end

/-- Where binding the sources reports nothing, no unit has been rejected. -/
theorem rejectUnit_of_quiet {units : List LinkUnit}
    (quiet : (bindSources units).2.hasErrors = false) :
    ∀ unit ∈ units, (rejectUnit (entriesOf units) unit).1 = unit := by
  simp only [bindSources, Diagnostics.hasErrors_append,
    Bool.or_eq_false_iff] at quiet
  intro unit member
  refine rejectUnit_quiet (List.any_eq_false.mpr fun diagnostic reported => ?_)
  exact Diagnostics.not_isError quiet.1 <|
    List.mem_flatMap.mpr ⟨_, List.mem_map_of_mem member, reported⟩

/-- Where binding the sources reports nothing, each unit is bound as it is. -/
theorem bindSources_quiet {units : List LinkUnit}
    (quiet : (bindSources units).2.hasErrors = false) :
    (bindSources units).1 =
        units.map (fun unit => (bindUnit (entriesOf units) unit).1) ∧
      ∀ unit ∈ units,
        (bindUnit (entriesOf units) unit).2.hasErrors = false := by
  have kept := rejectUnit_of_quiet quiet
  simp only [bindSources, Diagnostics.hasErrors_append,
    Bool.or_eq_false_iff] at quiet
  have bound : (units.map (rejectUnit (entriesOf units))).map
      (fun rejected => bindUnit (entriesOf units) rejected.1) =
        units.map (bindUnit (entriesOf units)) := by
    rw [List.map_map]
    exact List.map_congr_left fun unit member =>
      congrArg (bindUnit (entriesOf units)) (kept unit member)
  constructor
  · refine (congrArg (List.map (·.1)) bound).trans ?_
    rw [List.map_map]
    rfl
  · intro unit member
    refine List.any_eq_false.mpr fun diagnostic reported => ?_
    refine Diagnostics.not_isError quiet.2 <|
      List.mem_flatMap.mpr ⟨bindUnit (entriesOf units) unit, ?_, reported⟩
    exact bound ▸ List.mem_map_of_mem member

/-- Where binding the sources reports nothing, all units can be linked. -/
theorem bindSources_isSound {units : List LinkUnit}
    (usable : ∀ unit ∈ units, unit.usable = true)
    (distinct : (units.map (·.source)).Nodup)
    (sound : ∀ unit ∈ units, unit.IsSound)
    (quiet : (bindSources units).2.hasErrors = false) :
    (bindSources units).1.map (·.source) = units.map (·.source) ∧
      IsSound (bindSources units).1 ∧
      ∀ unit ∈ (bindSources units).1,
        IsBound (units.map (·.source)) unit := by
  obtain ⟨bound, quietly⟩ := bindSources_quiet quiet
  have sources : (bindSources units).1.map (·.source) =
      units.map (·.source) := by
    rw [bound, List.map_map]
    exact List.map_congr_left fun unit _ => (bindUnit_front _ unit).1
  have among : ∀ source ∈ (entriesOf units).map (·.source),
      source ∈ units.map (·.source) := by
    intro source known
    obtain ⟨entry, listed, rfl⟩ := List.mem_map.mp known
    exact List.mem_map.mpr (entriesOf_source listed)
  have each : ∀ unit' ∈ (bindSources units).1,
      unit'.usable = true ∧ unit'.IsSound ∧
        IsBound (units.map (·.source)) unit' := by
    intro unit' member'
    obtain ⟨unit, member, rfl⟩ := List.mem_map.mp (bound ▸ member')
    refine ⟨(bindUnit_front _ unit).2.trans (usable unit member),
      bindUnit_isSound (sound unit member), fun header declared => ?_⟩
    obtain ⟨imports, includes⟩ := bindUnit_isBound (usable unit member)
      (fun _ => entriesOf_find? member) (quietly unit member) header declared
    refine ⟨fun declaration listed => ?_, includes⟩
    obtain ⟨source, listed, resolved⟩ := imports declaration listed
    exact ⟨source, among source listed, resolved⟩
  refine ⟨sources, ⟨⟨fun unit member => (each unit member).1, ?_⟩,
    sources ▸ distinct, fun unit member => (each unit member).2.1⟩,
    fun unit member => (each unit member).2.2⟩
  intro unit member header declared declaration listed source resolved
  obtain ⟨bound, known, same⟩ :=
    ((each unit member).2.2 header declared).1 declaration listed
  obtain rfl := Option.some.inj (same.symm.trans resolved)
  exact List.mem_map.mp (sources ▸ known)

end Linking

end YangSchema
