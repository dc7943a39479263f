import YangSchema.Compilation
import YangSchema.Proofs.Draft.Moments
import YangSchema.Proofs.Linking.Imports

/-!
# Valid compilations leave nothing open

If a compilation reports no error then every source has a unit, every unit can
be used, every reference has been resolved and every link that a reference is
made for has been set.  The reason is that the queue of a unit accounts for its
tree at all times: a link that is missing has a reference that is still waiting,
and a reference that is still waiting at the end is reported.
-/

namespace YangSchema

/-- What the type of a leaf, a leaf-list or a member of a union refers to is
linked. -/
structure TypeUse.IsLinked (use : TypeUse) (inGrouping : Prop) : Prop where
  derived : use.isDerived →
    use.links.typedef.isSome ∧ use.links.effective.isSome
  identity : use.effectiveBuiltin? = some .identityref →
    use.links.identity.isSome
  leafref : use.effectiveBuiltin? = some .leafref → ¬ inGrouping →
    use.links.leafrefTarget.isSome

/-- Nothing in a unit is left open. -/
structure LinkUnit.IsLinked (unit : LinkUnit) : Prop where
  usable : unit.usable = true
  resolved : ∀ item ∈ unit.queue, ∃ target, item.state = .resolved target
  imports : ∀ header, unit.tree.header? = some header →
    ∀ declaration ∈ header.imports, declaration.resolved.isSome
  includes : ∀ header, unit.tree.header? = some header →
    ∀ declaration ∈ header.includes, declaration.resolved.isSome
  uses : ∀ id body, unit.tree.construct? id = some (.uses body) →
    body.target.isSome
  augments : ∀ id body, unit.tree.construct? id = some (.augment body) →
    body.target.isSome
  bases : ∀ id body, unit.tree.construct? id = some (.identity body) →
    body.base.isSome → body.baseTarget.isSome
  ifFeatures : ∀ id node, unit.tree.node? id = some node →
    ∀ feature ∈ node.metadata.ifFeatures, feature.target.isSome
  types : ∀ slot use, unit.tree.typeAt? slot = some use →
    ¬ unit.tree.IsTemplate slot.node →
      use.IsLinked (unit.tree.IsInGrouping slot.node)

/-- Where no reference waits there is no gap. -/
theorem LinkUnit.IsSound.not_hasGap {unit : LinkUnit} (sound : unit.IsSound)
    (resolved : ∀ item ∈ unit.queue, ∃ target, item.state = .resolved target)
    {id : NodeId} {kind : ReferenceKind} : ¬ unit.tree.HasGap id kind := by
  intro gap
  obtain ⟨item, queued, -, -, -, waiting⟩ := sound.accounts gap
  obtain ⟨target, done⟩ := resolved item queued
  exact waiting target done

/-- A type without gaps is linked. -/
theorem TypeUse.isLinked_of_not_hasGap {use : TypeUse} {slot : TypeSlot}
    {inGrouping : Prop} (whole : ∀ kind, ¬ use.HasGap slot inGrouping kind) :
    use.IsLinked inGrouping where
  derived unnamed := by
    have derived : use.builtin = none := by
      simpa [TypeUse.isDerived] using unnamed
    constructor
    all_goals
      by_contra missing
      simp only [Option.isSome_iff_ne_none, ne_eq, not_not] at missing
      exact whole _ (.typedef derived (by simp [missing]))
  identity based := by
    by_contra missing
    simp only [Option.isSome_iff_ne_none, ne_eq, not_not] at missing
    exact whole _ (.identity based missing)
  leafref refers outside := by
    by_contra missing
    simp only [Option.isSome_iff_ne_none, ne_eq, not_not] at missing
    exact whole _ (.leafref refers outside missing)

/-- A sound unit whose references are all resolved is linked. -/
theorem LinkUnit.IsSound.isLinked {unit : LinkUnit} {sources : List SourceId}
    (sound : unit.IsSound) (usable : unit.usable = true)
    (resolved : ∀ item ∈ unit.queue, ∃ target, item.state = .resolved target)
    (bound : Linking.IsBound sources unit) : unit.IsLinked := by
  have whole {id kind} : ¬ unit.tree.HasGap id kind := sound.not_hasGap resolved
  have target {id construct}
      (found : unit.tree.construct? id = some construct)
      (kind : ReferenceKind) : construct.missingTarget? ≠ some kind := by
    intro missing
    obtain ⟨node, known, rfl⟩ := SchemaTree.construct?_eq_some_iff.mp found
    exact whole (.construct known (.target missing))
  exact
    { usable, resolved
      imports := by
        intro header declared declaration listed
        obtain ⟨source, -, same⟩ := (bound header declared).1 declaration listed
        simp [same]
      includes := fun header declared => (bound header declared).2
      uses := by
        intro id body found
        have present := target found .uses
        simpa [Construct.missingTarget?, Option.isSome_iff_ne_none]
          using present
      augments := by
        intro id body found
        have present := target found .augment
        simpa [Construct.missingTarget?, Option.isSome_iff_ne_none]
          using present
      bases := by
        intro id body found based
        have present := target found .base
        simpa [Construct.missingTarget?, based, Option.isSome_iff_ne_none]
          using present
      ifFeatures := by
        intro id node found feature listed
        obtain ⟨index, listed⟩ := List.mem_iff_getElem?.mp listed
        by_contra missing
        exact whole (.metadata found (.ifFeature listed (by
          simpa [Option.isSome_iff_ne_none] using missing)))
      types := by
        intro slot use declared outside
        obtain ⟨node, found, declared⟩ :=
          SchemaTree.typeAt?_eq_some_iff.mp declared
        exact TypeUse.isLinked_of_not_hasGap fun kind gap =>
          whole (.construct found (.type declared outside gap)) }

namespace Linking

/-- What is found wrong in a unit is reported. -/
theorem not_mem_unitErrors {units : List LinkUnit}
    (quiet : (findings units).hasErrors = false) {unit : LinkUnit}
    (member : unit ∈ units) (usable : unit.usable = true)
    {error : StatementError} (severe : error.IsSevere) :
    error ∉ unitErrors (.ofUnits units .interFile) unit := by
  intro raised
  refine Diagnostics.not_isError quiet ?_
    (severe.isError_toDiagnostic unit.source)
  exact List.mem_flatMap.mpr ⟨unit, List.mem_filter.mpr ⟨member, usable⟩,
    List.mem_map_of_mem (List.mem_mergeSort.mpr raised)⟩

/-- A reference that has not been resolved and is not blocked is reported. -/
theorem resolved_of_findings_quiet {units : List LinkUnit}
    (quiet : (findings units).hasErrors = false) {unit : LinkUnit}
    (member : unit ∈ units) (usable : unit.usable = true) {item : Reference}
    (queued : item ∈ unit.queue) (unblocked : item.state ≠ .blocked) :
    ∃ target, item.state = .resolved target := by
  have silent : ∀ error : StatementError, error.IsSevere →
      referenceError? (.ofUnits units .interFile) unit item ≠ some error := by
    intro error severe raised
    refine not_mem_unitErrors quiet member usable severe ?_
    simp only [unitErrors, List.mem_append, List.mem_filterMap]
    exact .inl (.inl (.inl ⟨item, queued, raised⟩))
  unfold referenceError? at silent
  cases state : item.state with
  | resolved target => exact ⟨target, rfl⟩
  | blocked => exact absurd state unblocked
  | unresolved => exact absurd rfl (state ▸ silent _ (by rfl))
  | failed failure => exact absurd rfl (state ▸ silent _ (by rfl))

/-- Linking leaves nothing open if nothing is found wrong afterwards. -/
theorem link_isLinked {units : List LinkUnit} {sources : List SourceId}
    (ready : IsSound units) (bound : ∀ unit ∈ units, IsBound sources unit)
    (quiet : (findings (link .interFile units)).hasErrors = false) :
    ∀ unit ∈ link .interFile units, unit.IsLinked := by
  have linked := link_isSound .interFile ready
  have evolves := link_evolves .interFile units
  generalize link .interFile units = after at linked evolves quiet
  intro unit member
  have usable := linked.usable.usable unit member
  have sound := linked.units unit member
  have resolved : ∀ item ∈ unit.queue,
      ∃ target, item.state = .resolved target := fun item queued =>
    resolved_of_findings_quiet quiet member usable queued
      (sound.unblocked item queued)
  have isBound : IsBound sources unit := by
    -- What the unit imports has not changed since its sources were bound.
    obtain ⟨earlier, among, evolved⟩ := evolves.earlier member
    intro header declared
    exact bound earlier among header
      (evolved.text.header?.symm.trans declared)
  exact sound.isLinked usable resolved isBound

end Linking

/-- Without syntax errors every source is read. -/
theorem ParsedSources.analyses_of_quiet {parsed : ParsedSources}
    (quiet : parsed.diagnostics.hasErrors = false) :
    parsed.analyses = parsed.trees.zipIdx.map fun (tree, id) =>
      .ofStatements id (Statement.ofTree tree) := by
  rw [analyses, ← List.filterMap_eq_map]
  refine List.filterMap_congr fun ⟨tree, id⟩ _ => ?_
  have none : parsed.diagnostics.hasErrorsIn id = false := by
    refine List.any_eq_false.mpr fun diagnostic reported => ?_
    simp [Diagnostics.not_isError quiet reported]
  simp [none]

/-- The unit of a source that has been read without an error. -/
theorem LinkUnit.ofAnalysis_isSound {source : SourceId}
    {statements : List Statement}
    (whole : (Analysis.ofStatements source statements).failed = false) :
    (ofAnalysis (.ofStatements source statements)).source = source ∧
      (ofAnalysis (.ofStatements source statements)).usable = true ∧
      (ofAnalysis (.ofStatements source statements)).IsSound := by
  obtain ⟨draft, sound, source, tree, queue⟩ :=
    Analysis.ofStatements_isSound whole
  refine ⟨(congrArg (·.source) tree).trans source,
    by simp [ofAnalysis, whole], ?_, ?_, ?_⟩
  · intro id kind gap
    simp only [ofAnalysis, tree, queue] at gap ⊢
    exact sound.accounts gap
  · intro id node found
    simp only [ofAnalysis, tree] at found
    exact (sound.nodes found).sound
  · simpa only [ofAnalysis, queue] using sound.unblocked

/-- Where nothing has been reported, every source is read as a sound unit. -/
theorem Compilation.ofParsed_isSound {parsed : ParsedSources}
    (quiet : (ofParsed parsed).diagnostics.hasErrors = false) :
    (ofParsed parsed).units.map (·.source) = List.range parsed.trees.length ∧
      ∀ unit ∈ (ofParsed parsed).units, unit.usable = true ∧ unit.IsSound := by
  simp only [ofParsed, Diagnostics.hasErrors_append,
    Bool.or_eq_false_iff] at quiet
  have units : (ofParsed parsed).units =
      parsed.trees.zipIdx.map fun (tree, id) =>
        .ofAnalysis (.ofStatements id (Statement.ofTree tree)) := by
    simp [ofParsed, ParsedSources.analyses_of_quiet quiet.1]
  have whole : ∀ entry ∈ parsed.trees.zipIdx,
      (Analysis.ofStatements entry.2 (Statement.ofTree entry.1)).failed =
        false := by
    intro entry listed
    by_contra failed
    have reported := Analysis.hasErrors_of_failed (by simpa using failed)
    obtain ⟨diagnostic, among, isError⟩ := List.any_eq_true.mp reported
    refine Diagnostics.not_isError quiet.2 (List.mem_flatMap.mpr
      ⟨_, ?_, among⟩) isError
    rw [ParsedSources.analyses_of_quiet quiet.1]
    exact List.mem_map.mpr ⟨entry, listed, rfl⟩
  rw [units]
  constructor
  · rw [List.map_map, List.range_eq_range', ← List.zipIdx_map_snd 0]
    exact List.map_congr_left fun entry listed =>
      (LinkUnit.ofAnalysis_isSound (whole entry listed)).1
  · intro unit member
    obtain ⟨entry, listed, rfl⟩ := List.mem_map.mp member
    exact (LinkUnit.ofAnalysis_isSound (whole entry listed)).2

/-- What sound units of different sources are linked to. -/
theorem Compilation.linked_isLinked {compilation : Compilation}
    (distinct : (compilation.units.map (·.source)).Nodup)
    (sound : ∀ unit ∈ compilation.units,
      unit.usable = true ∧ unit.IsSound)
    (valid : compilation.linked.isValid = true) :
    compilation.linked.units.map (·.source) =
        compilation.units.map (·.source) ∧
      ∀ unit ∈ compilation.linked.units, unit.IsLinked := by
  simp only [isValid, linked, Diagnostics.hasErrors_append,
    Bool.not_eq_true', Bool.or_eq_false_iff] at valid
  obtain ⟨⟨-, bound⟩, found⟩ := valid
  obtain ⟨sources, ready, imports⟩ := Linking.bindSources_isSound
    (fun unit member => (sound unit member).1) distinct
    (fun unit member => (sound unit member).2) bound
  have evolves := Linking.link_evolves .interFile
    (Linking.bindSources compilation.units).1
  exact ⟨evolves.map_source.trans sources,
    Linking.link_isLinked ready imports found⟩

/-- When nothing has been reported about parsed sources, each has a unit in which
nothing is left open. -/
theorem Compilation.ofParsed_isLinked {parsed : ParsedSources}
    (valid : (ofParsed parsed).linked.isValid = true) :
    (ofParsed parsed).linked.units.map (·.source) =
        List.range parsed.trees.length ∧
      ∀ unit ∈ (ofParsed parsed).linked.units, unit.IsLinked := by
  have read : (ofParsed parsed).diagnostics.hasErrors = false := by
    simp only [isValid, linked, Diagnostics.hasErrors_append,
      Bool.not_eq_true', Bool.or_eq_false_iff] at valid
    exact valid.1.1
  obtain ⟨sourcesRead, sound⟩ := ofParsed_isSound read
  rw [← sourcesRead]
  exact linked_isLinked (sourcesRead ▸ List.nodup_range) sound valid

/-- Nothing is found wrong in a valid set. -/
theorem Compilation.findings_of_isValid {limits : ParseLimits} {sources : Sources}
    {compilation : Compilation}
    (compiled : compile limits sources = .ok compilation)
    (valid : compilation.isValid = true) :
    (Linking.findings compilation.units).hasErrors = false := by
  simp only [compile, bind_eq_ok_iff, pure_eq_ok_iff] at compiled
  obtain ⟨parsed, -, rfl⟩ := compiled
  simp only [isValid, linked, Diagnostics.hasErrors_append, Bool.not_eq_true',
    Bool.or_eq_false_iff] at valid
  exact valid.2

/-- In a valid set nothing is left open. -/
theorem Compilation.isLinked_of_isValid {limits : ParseLimits} {sources : Sources}
    {compilation : Compilation}
    (compiled : compile limits sources = .ok compilation)
    (valid : compilation.isValid = true) :
    ∀ unit ∈ compilation.units, unit.IsLinked := by
  simp only [compile, bind_eq_ok_iff, pure_eq_ok_iff] at compiled
  obtain ⟨parsed, -, rfl⟩ := compiled
  exact (ofParsed_isLinked valid).2

/-- A compilation without errors has a unit for every source, and nothing in
any of them is left open. -/
theorem compile_isLinked {limits : ParseLimits} {sources : Sources}
    {compilation : Compilation}
    (compiled : compile limits sources = .ok compilation)
    (valid : compilation.isValid = true) :
    compilation.units.map (·.source) = List.range sources.length ∧
      ∀ unit ∈ compilation.units, unit.IsLinked := by
  simp only [compile, bind_eq_ok_iff, pure_eq_ok_iff] at compiled
  obtain ⟨parsed, parsing, rfl⟩ := compiled
  have count : parsed.trees.length = sources.length := by
    simp only [ParsedSources.ofSources, bind_eq_ok_iff, pure_eq_ok_iff]
      at parsing
    obtain ⟨results, each, rfl⟩ := parsing
    simp [length_of_mapM each]
  exact count ▸ Compilation.ofParsed_isLinked valid

/-- A leafref that leads into a grouping of another module. -/
theorem compile_isLinked_importing :
    ∃ compilation, compile .standard
        [⟨.inline, "module a \x7b namespace \"u:a\"; prefix a; " ++
            "grouping g \x7b leaf x \x7b type string; \x7d \x7d \x7d"⟩,
          ⟨.inline, "module b \x7b namespace \"u:b\"; prefix b; " ++
            "import a \x7b prefix p; \x7d uses p:g; leaf r \x7b " ++
            "type leafref \x7b path \"/b:x\"; \x7d \x7d \x7d"⟩] =
        .ok compilation ∧
      compilation.units.map (·.source) = [0, 1] ∧
      ∀ unit ∈ compilation.units, unit.IsLinked := by
  generalize written : ([_, _] : Sources) = sources
  have valid : (compile .standard sources).toOption.any (·.isValid) = true := by
    subst written
    decide +kernel
  cases compiled : compile .standard sources with
  | error error => simp [compiled, Except.toOption] at valid
  | ok compilation =>
      have linked := compile_isLinked compiled (by
        simpa [compiled, Except.toOption] using valid)
      rw [← written] at linked
      exact ⟨compilation, rfl, linked⟩

end YangSchema
