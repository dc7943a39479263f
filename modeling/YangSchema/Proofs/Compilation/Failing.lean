import YangSchema.Proofs.Compilation.Completeness
import YangSchema.Proofs.Linking.Asking
import YangSchema.Proofs.Linking.Failing
import YangSchema.Proofs.Linking.Picking

/-!
# Replacing a unit by one that fails

When a unit of a valid compilation is replaced by one that fails but declares the
same, the imports and includes of the others are bound as before.  A name that one
of the others looks up for itself is resolved to the same node as before or blocked.
Again paths are another matter:  a step that leads nowhere any more is not blocked.
-/

namespace YangSchema

/-- A unit that has failed and has the source, the name, the kind, the revision and
the module of another one. -/
structure LinkUnit.FailsAs (failed unit : LinkUnit) : Prop where
  unusable : failed.usable = false
  source : failed.source = unit.source
  entry : (UnitEntry.of? failed).map (·.label) =
    (UnitEntry.of? unit).map (·.label)

namespace LinkUnit.FailsAs

variable {failed unit : LinkUnit} (fails : failed.FailsAs unit)
include fails

theorem bindUnit (entries : List UnitEntry) :
    failed.FailsAs (Linking.bindUnit entries unit).1 where
  unusable := fails.unusable
  source := fails.source.trans (Linking.bindUnit_front entries unit).1.symm
  entry := (Linking.of?_bindUnit entries unit).symm ▸ fails.entry

/-- A unit that is bound and linked declares what it has declared before. -/
theorem of_bindUnit {entries : List UnitEntry} {start : LinkUnit}
    (evolves : (Linking.bindUnit entries start).1.Evolves unit) :
    failed.FailsAs start where
  unusable := fails.unusable
  source := fails.source.trans <| evolves.text.source.trans
    (Linking.bindUnit_front entries start).1
  entry := by
    rw [fails.entry, UnitEntry.of?_evolves evolves, Linking.of?_bindUnit]

end LinkUnit.FailsAs

theorem map_set_of_eq {α β : Type} {items : List α} {index : Nat}
    {item other : α} (known : items[index]? = some item) {read : α → β}
    (same : read other = read item) :
    (items.set index other).map read = items.map read := by
  obtain ⟨inside, rfl⟩ := List.getElem?_eq_some_iff.mp known
  rw [List.map_set, same, ← List.getElem_map read, List.set_getElem_self]
  simpa using inside

section

variable {units : List LinkUnit} {place : Nat} {unit failed : LinkUnit}
  (known : units[place]? = some unit)
include known

theorem nodup_sources_set (fails : failed.FailsAs unit)
    (distinct : (units.map (·.source)).Nodup) :
    ((units.set place failed).map (·.source)).Nodup :=
  (map_set_of_eq known fails.source).symm ▸ distinct

/-- Where one unit is replaced, the others are found as before. -/
theorem Scene.failsAt_set {phase : LinkPhase}
    (distinct : (units.map (·.source)).Nodup) (fails : failed.FailsAs unit) :
    (ofUnits units phase).FailsAt (ofUnits (units.set place failed) phase)
      unit.source where
  failed := by
    have inside := (List.getElem?_eq_some_iff.mp known).1
    refine ⟨failed, ?_, fails.unusable⟩
    rw [← fails.source]
    exact @unit?_of_mem (ofUnits (units.set place failed) phase)
      (nodup_sources_set known fails distinct) failed
      (List.mem_set inside failed)
  others {source} other := by
    have elsewhere : (unit.source == source) = false := by
      simpa using other.symm
    have elsewhere' : (failed.source == source) = false := by
      rwa [fails.source]
    unfold unit? ofUnits
    dsimp only
    clear distinct
    induction units generalizing place with
    | nil => rfl
    | cons first rest ih =>
        cases place with
        | zero =>
            obtain rfl : first = unit := by simpa using known
            rw [List.set_cons_zero, List.find?_cons, List.find?_cons, elsewhere,
              elsewhere']
        | succ place =>
            rw [List.set_cons_succ, List.find?_cons, List.find?_cons,
              ih (by simpa using known)]
  phase := rfl

end

namespace Linking

open UnitEntry (AreApart Alike)

section

variable {units : List LinkUnit} {place : Nat} {unit failed : LinkUnit}
  (known : units[place]? = some unit) (fails : failed.FailsAs unit)
include known fails

theorem labels_set :
    ((units.set place failed).filterMap UnitEntry.of?).map (·.label) =
      (units.filterMap UnitEntry.of?).map (·.label) := by
  have same := congrArg (·.filterMap id) (@map_set_of_eq _ _ _ _ _ failed known
    (fun unit => (UnitEntry.of? unit).map (·.label)) fails.entry)
  simpa only [List.filterMap_map, List.map_filterMap, Function.id_comp]
    using same

variable (distinct : (units.map (·.source)).Nodup)
  (apart : AreApart (units.filterMap UnitEntry.of?))
include distinct apart

/-- The other units are bound as before. -/
theorem bindSources_set :
    (bindSources (units.set place failed)).1 =
      (bindSources units).1.set place failed := by
  have labels := labels_set known fails
  have distinct' := nodup_sources_set known fails distinct
  have apart' := apart.of_labels labels
  have same : (fun unit => (bindUnit
        ((units.set place failed).filterMap UnitEntry.of?) unit).1) =
      fun unit => (bindUnit (units.filterMap UnitEntry.of?) unit).1 :=
    funext fun unit => congrArg (·.1) (bindUnit_alike apart apart'
      (.of_labels labels) (nodup_sources_of? distinct)
      (nodup_sources_of? distinct') unit)
  rw [bindSources_of_apart distinct' apart', same, List.map_set,
    bindSources_of_apart distinct apart]
  congr 1
  simp [bindUnit, fails.unusable]

variable (finished : ∀ unit ∈ units, unit.usable = true →
  ∃ draft : Draft, draft.IsFinished ∧ unit = draft.asUnit)
include finished

/-- What a unit besides the failed one looks up for itself survives. -/
theorem survives_set (unambiguous : (Scene.ofUnits (bindSources units).1
    .interFile).IsUnambiguous) {elsewhere : Nat} {other : LinkUnit}
    {item : Reference} (away : elsewhere ≠ place)
    (knownOther : units[elsewhere]? = some other) (usable : other.usable = true)
    (queued : item ∈ other.queue) (own : item.IsOwnName) :
    Scene.Survives
      ((Scene.ofUnits (bindSources units).1 .interFile).lookupReference
        other.source item)
      ((Scene.ofUnits (bindSources (units.set place failed)).1
        .interFile).lookupReference other.source item) := by
  have prepared := isPrepared_of_finished finished
  have connected := bindSources_isConnected distinct fun unit member usable =>
    (prepared unit member usable).alone
  have bound {place : Nat} {unit : LinkUnit} (known : units[place]? = some unit) :
      (bindSources units).1[place]? =
        some (bindUnit (units.filterMap UnitEntry.of?) unit).1 := by
    rw [bindSources_of_apart distinct apart, List.getElem?_map, known,
      Option.map_some]
  have fails' := fails.bindUnit (units.filterMap UnitEntry.of?)
  have relates := (Scene.failsAt_set (bound known) connected.distinct
    fails').relates unambiguous fun unit member usable =>
      (connected.units unit member usable).members
  -- The other unit is still there, with the same nodes.
  have member := List.mem_of_getElem? knownOther
  have preserves := (prepared other member usable).alone.bindUnit
    (units.filterMap UnitEntry.of?)
  have size := preserves.resembles.outline.size_eq
  have among : (bindUnit (units.filterMap UnitEntry.of?) other).1 ∈
      (bindSources units).1.set place failed := by
    refine List.mem_of_getElem? (i := elsewhere) ?_
    rw [List.getElem?_set_ne (Ne.symm away), bound knownOther]
  have found := @Scene.unit?_of_mem (.ofUnits _ .interFile)
    (nodup_sources_set (bound known) fails' connected.distinct) _ among
  rw [(bindUnit_front _ other).1] at found
  have live {id : NodeId} (inside : id < other.tree.size) :
      (Scene.ofUnits ((bindSources units).1.set place failed)
        .interFile).IsLive ⟨other.source, id⟩ :=
    Scene.isLive_of_unit? found (preserves.resembles.usable.trans usable)
      (size ▸ inside)
  rw [bindSources_set known fails distinct apart]
  obtain ⟨draft, isFinished, rfl⟩ := finished other member usable
  have inTree := isFinished.unlinked.queued item queued
  exact relates.lookupReference own.own (live inTree.place) own.named
    (live inTree.consumer)

/-- A unit besides the failed one has the header that it has otherwise, and a name
that it looks up for itself stands as it does otherwise, if it is resolved there, or
is blocked. -/
theorem exists_beside_failed (unambiguous : (Scene.ofUnits (bindSources units).1
      .interFile).IsUnambiguous) (usable : ∀ unit ∈ units, unit.usable = true)
    {broken : LinkUnit} (member : broken ∈
      link .interFile (bindSources (linkAlone (units.set place failed))).1)
    (beside : broken.source ≠ unit.source) :
    broken.usable = true ∧
    ∃ intact ∈ link .interFile (bindSources (linkAlone units)).1,
      intact.source = broken.source ∧
      broken.tree.header? = intact.tree.header? ∧
      ∀ index item, broken.queue[index]? = some item → item.IsOwnName →
        ∃ state, intact.queue[index]? = some { item with state } ∧
          ∀ target, state = .resolved target →
            item.state = .blocked ∨ intact.AgreesAt broken index item := by
  have evolves (units : List LinkUnit) :
      Evolves (bindSources units).1
        (link .interFile (bindSources (linkAlone units)).1) :=
    (linkAlone_evolves units).bindSources.trans (link_evolves .interFile _)
  have finishedBroken : ∀ unit ∈ units.set place failed, unit.usable = true →
      ∃ draft : Draft, draft.IsFinished ∧ unit = draft.asUnit := by
    intro unit member usable
    obtain member | rfl := List.mem_or_eq_of_mem_set member
    · exact finished unit member usable
    · simp [fails.unusable] at usable
  have evolvesBroken := evolves (units.set place failed)
  rw [bindSources_set known fails distinct apart] at evolvesBroken
  obtain ⟨elsewhere, knownBroken⟩ := List.mem_iff_getElem?.mp member
  obtain ⟨start, knownStart, evolved⟩ := evolvesBroken.unit_before knownBroken
  have away : elsewhere ≠ place := by
    rintro rfl
    have inside := (List.getElem?_eq_some_iff.mp knownStart).1
    rw [List.getElem?_set_self (by simpa using inside)] at knownStart
    obtain rfl := Option.some.inj knownStart
    exact beside (evolved.text.source.trans fails.source)
  rw [List.getElem?_set_ne away.symm] at knownStart
  obtain ⟨intact, knownIntact, evolved'⟩ := (evolves units).unit knownStart
  obtain ⟨other, knownOther, rfl⟩ : ∃ other, units[elsewhere]? = some other ∧
      (bindUnit (units.filterMap UnitEntry.of?) other).1 = start := by
    rw [bindSources_of_apart distinct apart, List.getElem?_map] at knownStart
    exact Option.map_eq_some_iff.mp knownStart
  have isUsable := usable other (List.mem_of_getElem? knownOther)
  have isUsableBroken := evolved.usable.trans
    ((bindUnit_front _ other).2.trans isUsable)
  refine ⟨isUsableBroken, intact, List.mem_of_getElem? knownIntact,
    evolved'.text.source.trans evolved.text.source.symm,
    evolved.text.header?.trans evolved'.text.header?.symm,
    fun index item found own => ?_⟩
  obtain ⟨_, same, -, -, queued, agree⟩ := linkAlone_ownName
    (nodup_sources_set known fails distinct) finishedBroken knownBroken
    isUsableBroken found own
  rw [List.getElem?_set_ne away.symm, knownOther] at same
  obtain rfl := Option.some.inj same
  have settled := (bindSources_isOrderly_of_prepared
    ((linkAlone_evolves units).map_source ▸ distinct)
    (isPrepared_linkAlone finished)).ends.settled
  obtain ⟨_, same, agree'⟩ := linkAlone_agreesAt distinct finished knownOther
    knownStart (evolved.usable.symm.trans isUsableBroken) queued own.named
    (link_steps .interFile _) settled
  obtain rfl := Option.some.inj (knownIntact.symm.trans same)
  refine ⟨_, agree'.state.trans (LinkUnit.getElem?_apply_self queued _),
    fun target resolved => ?_⟩
  have looked := lookupReference_of_resolved rfl resolved
  rw [← Scene.outcome_setState _ item .unresolved] at agree
  obtain survived | blocked := survives_set known fails distinct apart finished
    unambiguous away knownOther isUsable (List.mem_of_getElem? queued)
    ⟨own.own, own.named⟩ _ looked
  · right
    rw [Scene.outcome, survived] at agree
    have agree' : (other.apply index ((Scene.ofUnits (bindSources units).1
        .interFile).outcome other.source
          { item with state := .unresolved })).AgreesAt intact index item :=
      ⟨agree'.state, agree'.fields⟩
    exact agree'.symm.trans agree
  · left
    rw [Scene.outcome, blocked] at agree
    have state := agree.state.trans (LinkUnit.getElem?_apply_self queued _)
    rw [found, Option.some.injEq] at state
    exact congrArg (·.state) state

end

theorem linkAlone_set (units : List LinkUnit) (place : Nat) {failed : LinkUnit}
    (unusable : failed.usable = false) :
    linkAlone (units.set place failed) = (linkAlone units).set place failed := by
  induction units generalizing place with
  | nil => rfl
  | cons first rest ih =>
      obtain ⟨alone, is, -⟩ := link_alone first
      unfold linkAlone at ih ⊢
      cases place with
      | zero =>
          rw [List.set_cons_zero, List.flatMap_cons, List.flatMap_cons, is,
            link_alone_of_unusable unusable]
          rfl
      | succ place =>
          rw [List.set_cons_succ, List.flatMap_cons, List.flatMap_cons, is, ih]
          rfl

end Linking

theorem zipIdx_set {α : Type} (items : List α) (index : Nat) (item : α) :
    (items.set index item).zipIdx = items.zipIdx.set index (item, index) := by
  refine List.ext_getElem? fun other => ?_
  rw [List.getElem?_zipIdx, List.getElem?_set, List.getElem?_set,
    List.length_zipIdx, List.getElem?_zipIdx]
  split
  next here =>
    subst here
    split <;> simp
  · rfl

/-- When the text of a source is replaced by one that can be parsed, its tree and
its diagnostics are. -/
theorem ParsedSources.ofSources_set {limits : ParseLimits} {sources : Sources}
    {parsed : ParsedSources} (parsing : ofSources limits sources = .ok parsed)
    {place : SourceId} {changed : Source} {text : Parsed}
    (parses : parse limits place changed.text = .ok text) :
    ∃ parsed', ofSources limits (sources.set place changed) = .ok parsed' ∧
      parsed'.trees = parsed.trees.set place text.tree ∧
      ∀ diagnostic ∈ parsed'.diagnostics,
        diagnostic ∈ parsed.diagnostics ∨ diagnostic ∈ text.diagnostics := by
  simp only [ofSources, bind_eq_ok_iff, pure_eq_ok_iff] at parsing ⊢
  obtain ⟨results, each, rfl⟩ := parsing
  have each' := @mapM_set _ _ _ _ _ _ place (changed, place) _ each parses
  rw [← zipIdx_set] at each'
  refine ⟨_, ⟨_, each', rfl⟩, List.map_set .., fun diagnostic reported => ?_⟩
  obtain ⟨result, listed, among⟩ := List.mem_flatMap.mp reported
  obtain listed | rfl := List.mem_or_eq_of_mem_set listed
  · exact .inl (List.mem_flatMap.mpr ⟨result, listed, among⟩)
  · exact .inr among

/-- A text without syntax errors that is read as a unit that fails and declares what
another one declares. -/
structure LinkUnit.BreaksAs (unit : LinkUnit) (limits : ParseLimits)
    (text : String) (parsed : Parsed) : Prop where
  parses : parse limits unit.source text = .ok parsed
  quiet : parsed.diagnostics.hasErrors = false
  fails : (ofAnalysis (.ofStatements unit.source
    (Statement.ofTree parsed.tree))).FailsAs unit

namespace Compilation

theorem ofParsed_set {parsed parsed' : ParsedSources} {place : SourceId}
    {tree : SyntaxTree} (quiet : parsed.diagnostics.hasErrors = false)
    (quiet' : parsed'.diagnostics.hasErrors = false)
    (trees : parsed'.trees = parsed.trees.set place tree) :
    (ofParsed parsed').units = (ofParsed parsed).units.set place
      (.ofAnalysis (.ofStatements place (Statement.ofTree tree))) := by
  simp only [ofParsed, ParsedSources.analyses_of_quiet quiet,
    ParsedSources.analyses_of_quiet quiet', trees, zipIdx_set, List.map_set]

/-- When a unit of a valid compilation is replaced by one that fails and declares
the same, the other units can still be used, and their imports and includes are
bound as before.  A name that one of them looks up for itself is resolved to the
same node and fills the same fields, or it is blocked;  for that no unit may declare
what a submodule that it includes declares, too. -/
theorem names_beside_failed_unit {limits : ParseLimits} {sources : Sources}
    {compilation : Compilation}
    (compiled : compile limits sources = .ok compilation)
    (valid : compilation.isValid = true)
    (unambiguous : (Scene.ofUnits compilation.units .interFile).IsUnambiguous)
    {unit : LinkUnit} (member : unit ∈ compilation.units) {changed : Source}
    {text : Parsed} (breaks : unit.BreaksAs limits changed.text text) :
    ∃ broken, compile limits (sources.set unit.source changed) = .ok broken ∧
      ∀ other ∈ broken.units, other.source ≠ unit.source →
        other.usable = true ∧
        ∃ intact ∈ compilation.units, intact.source = other.source ∧
          other.tree.header? = intact.tree.header? ∧
          ∀ (index : Nat) (item : Reference),
            other.queue[index]? = some item → item.IsOwnName →
            ∃ target,
              intact.queue[index]? =
                some { item with state := .resolved target } ∧
              (item.state = .blocked ∨ item.state = .resolved target ∧
                ∀ field ∈ item.results,
                  other.tree.link? field = intact.tree.link? field) := by
  simp only [compile, bind_eq_ok_iff, pure_eq_ok_iff] at compiled ⊢
  obtain ⟨parsed, parsing, rfl⟩ := compiled
  obtain ⟨numbered, linked⟩ := ofParsed_isLinked valid
  obtain ⟨parsed', parsing', trees, reports⟩ :=
    ParsedSources.ofSources_set parsing breaks.parses
  refine ⟨_, ⟨parsed', parsing', rfl⟩, fun other member' beside => ?_⟩
  -- Nothing has been reported about either set of texts.
  simp only [isValid, Compilation.linked, Diagnostics.hasErrors_append,
    Bool.not_eq_true', Bool.or_eq_false_iff] at valid
  obtain ⟨⟨read, binding⟩, -⟩ := valid
  have quiet : parsed.diagnostics.hasErrors = false := by
    simp only [ofParsed, Diagnostics.hasErrors_append,
      Bool.or_eq_false_iff] at read
    exact read.1
  have quiet' : parsed'.diagnostics.hasErrors = false := by
    refine List.any_eq_false.mpr fun diagnostic reported => ?_
    obtain known | known := reports diagnostic reported
    · exact Diagnostics.not_isError quiet known
    · exact Diagnostics.not_isError breaks.quiet known
  have replaced := ofParsed_set quiet quiet' trees
  -- The units as they have been read.
  obtain ⟨units, alone, finished⟩ :=
    Linking.exists_linkAlone fun _ => ofParsed_isFinished parsed
  have evolves := Linking.linkAlone_evolves units
  have distinct := ofParsed_distinct parsed
  have sound := (ofParsed_isSound read).2
  have apart := Linking.areApart_of_kept (fun unit member => (sound unit member).1)
    distinct (Linking.rejectUnit_of_quiet binding)
  rw [← alone] at distinct sound apart replaced
  rw [evolves.map_source] at distinct
  rw [evolves.filterMap_of?] at apart
  have usable : ∀ unit ∈ units, unit.usable = true := by
    intro unit member
    obtain ⟨place, known⟩ := List.mem_iff_getElem?.mp member
    obtain ⟨unit', known', evolved⟩ := evolves.unit known
    exact evolved.usable.symm.trans
      (sound unit' (List.mem_of_getElem? known')).1
  rw [← Linking.linkAlone_set units _ breaks.fails.unusable] at replaced
  simp only [Compilation.linked, replaced, ← alone]
    at unambiguous member numbered linked member' ⊢
  have later := evolves.bindSources.trans (Linking.link_evolves .interFile _)
  obtain ⟨place, known⟩ := List.mem_iff_getElem?.mp member
  obtain rfl : unit.source = place := by
    have inRange := congrArg (·[place]?) numbered
    rw [List.getElem?_map, known, Option.map_some] at inRange
    obtain ⟨_, same⟩ := List.getElem?_eq_some_iff.mp inRange.symm
    rw [← same, List.getElem_range]
  obtain ⟨_, knownBound, evolved⟩ := later.unit_before known
  rw [Linking.bindSources_of_apart distinct apart, List.getElem?_map]
    at knownBound
  obtain ⟨start, knownStart, rfl⟩ := Option.map_eq_some_iff.mp knownBound
  have source : unit.source = start.source :=
    evolved.text.source.trans (Linking.bindUnit_front _ start).1
  have distinctBound : ((Linking.bindSources units).1.map (·.source)).Nodup :=
    later.map_source.symm.trans numbered ▸ List.nodup_range
  obtain ⟨isUsable, intact, among, same, header, names⟩ :=
    Linking.exists_beside_failed knownStart (breaks.fails.of_bindUnit evolved)
      distinct apart finished
      (Scene.isUnambiguous_of_evolves distinctBound later unambiguous) usable
      member' (source ▸ beside)
  refine ⟨isUsable, intact, among, same, header, fun index item found own => ?_⟩
  obtain ⟨state, queued, stands⟩ := names index item found own
  obtain ⟨target, resolved⟩ :=
    (linked intact among).resolved _ (List.mem_of_getElem? queued)
  obtain rfl : state = .resolved target := resolved
  refine ⟨target, queued, (stands target rfl).imp_right fun agree => ?_⟩
  have item_eq := Option.some.inj
    (found.symm.trans (agree.state.trans queued))
  exact ⟨congrArg (·.state) item_eq, agree.fields⟩

/-- Two groupings of which one is lost with the module that declares it. -/
theorem names_beside_failed_unit_importing :
    let base : Source := ⟨.inline, "module b \x7b namespace \"u:b\"; " ++
      "prefix b; grouping g \x7b leaf x \x7b type string; \x7d \x7d \x7d"⟩
    let changed : Source := ⟨.inline, "module b \x7b namespace \"u:b\"; " ++
      "prefix b; leaf bad; grouping g \x7b leaf x \x7b type string; " ++
      "\x7d \x7d \x7d"⟩
    let app : Source := ⟨.inline, "module a \x7b namespace \"u:a\"; prefix a; " ++
      "import b \x7b prefix b; \x7d grouping h \x7b leaf y \x7b " ++
      "type string; \x7d \x7d uses b:g; uses h; \x7d"⟩
    ∃ compilation broken intact other lost kept target,
      compile .standard [base, app] = .ok compilation ∧
      compile .standard [changed, app] = .ok broken ∧
      intact ∈ compilation.units ∧ other ∈ broken.units ∧
      intact.source = 1 ∧ other.source = 1 ∧
      other.queue[0]? = some lost ∧ lost.state = .blocked ∧
      intact.queue[0]? = some { lost with state := .resolved target } ∧
      other.queue[1]? = some kept ∧ intact.queue[1]? = some kept := by
  intro base changed app
  let entry : UnitEntry := ⟨0, "b", none, false, none, true⟩
  have read : ((parse .standard 0 changed.text).toOption.any fun text =>
      let failed := LinkUnit.ofAnalysis (.ofStatements 0
        (Statement.ofTree text.tree))
      !text.diagnostics.hasErrors && !failed.usable && failed.source == 0 &&
        (UnitEntry.of? failed).map (·.label) == some entry) = true := by
    decide +kernel
  have first : ((compile .standard [base, app]).toOption.any fun compilation =>
      compilation.isValid &&
      decide (Scene.ofUnits compilation.units .interFile).IsUnambiguous &&
      compilation.units.any fun unit => unit.source == 0 &&
        (UnitEntry.of? unit).map (·.label) == some entry) = true := by
    decide +kernel
  have second : ((compile .standard [changed, app]).toOption.any fun broken =>
      broken.units.any fun other => other.source == 1 &&
        (other.queue[0]?.any fun item => item.kind == .uses &&
          item.origin == none && item.state == .blocked) &&
        other.queue[1]?.any fun item => item.kind == .uses &&
          item.origin == none && item.state != .blocked) = true := by
    decide +kernel
  simp only [Option.any_eq_true, toOption_eq_some_iff, Bool.and_eq_true,
    decide_eq_true_eq, List.any_eq_true, beq_iff_eq, bne_iff_ne,
    Bool.not_eq_true'] at read first second
  obtain ⟨text, parses, ⟨⟨quiet, unusable⟩, source⟩, declares⟩ := read
  obtain ⟨compilation, compiled, ⟨valid, unambiguous⟩, unit, member, isUnit,
    declared⟩ := first
  obtain ⟨broken, recompiled, other, among, ⟨isOther, lost, queued, ⟨kind, own⟩,
    blocked⟩, kept, queued', ⟨kind', own'⟩, reached⟩ := second
  rw [← isUnit] at parses unusable source declares
  obtain ⟨_, again, names⟩ := names_beside_failed_unit compiled valid unambiguous
    member ⟨parses, quiet, unusable, source, declares.trans declared.symm⟩
  rw [isUnit] at again
  obtain rfl := Except.ok.inj (recompiled.symm.trans again)
  obtain ⟨-, intact, among', same, -, names⟩ :=
    names other among (by simp [isOther, isUnit])
  obtain ⟨target, lost', -⟩ := names 0 lost queued ⟨own, by rw [kind]; rfl⟩
  obtain ⟨_, kept', stands⟩ := names 1 kept queued' ⟨own', by rw [kind']; rfl⟩
  have state := (stands.resolve_left reached).1
  rw [← state] at kept'
  exact ⟨compilation, broken, intact, other, lost, kept, target, compiled,
    recompiled, among', among, same.trans isOther, isOther, queued, blocked,
    lost', queued', kept'⟩

/-- A leafref to a node of a submodule is reported when the submodule fails:  a step
that is not found any more is not blocked. -/
theorem compile_reports_beside_failed_unit :
    let m : Source := ⟨.inline, "module m \x7b namespace \"u:m\"; prefix m; " ++
      "include s; leaf r \x7b type leafref \x7b path \"/m:x\"; \x7d \x7d \x7d"⟩
    let s : Source := ⟨.inline, "submodule s \x7b belongs-to m \x7b " ++
      "prefix m; \x7d leaf x \x7b type string; \x7d \x7d"⟩
    let changed : Source := ⟨.inline, "submodule s \x7b belongs-to m \x7b " ++
      "prefix m; \x7d leaf x; \x7d"⟩
    ∃ compilation broken unit text,
      compile .standard [m, s] = .ok compilation ∧
      compilation.isValid = true ∧ unit ∈ compilation.units ∧
      unit.source = 1 ∧ unit.BreaksAs .standard changed.text text ∧
      compile .standard [m, changed] = .ok broken ∧
      (∃ diagnostic ∈ broken.diagnostics, diagnostic.source = 0) ∧
      ∃ other ∈ broken.units, other.source = 0 ∧
        ∃ item ∈ other.queue, item.state = .unresolved := by
  intro m s changed
  let entry : UnitEntry := ⟨1, "s", none, true, some "m", true⟩
  have read : ((parse .standard 1 changed.text).toOption.any fun text =>
      let failed := LinkUnit.ofAnalysis (.ofStatements 1
        (Statement.ofTree text.tree))
      !text.diagnostics.hasErrors && !failed.usable && failed.source == 1 &&
        (UnitEntry.of? failed).map (·.label) == some entry) = true := by
    decide +kernel
  have first : ((compile .standard [m, s]).toOption.any fun compilation =>
      compilation.isValid && compilation.units.any fun unit =>
        unit.source == 1 &&
          (UnitEntry.of? unit).map (·.label) == some entry) = true := by
    decide +kernel
  have second : ((compile .standard [m, changed]).toOption.any fun broken =>
      broken.diagnostics.any (·.source == 0) &&
        broken.units.any fun other => other.source == 0 &&
          other.queue.any (·.state == .unresolved)) = true := by
    decide +kernel
  simp only [Option.any_eq_true, toOption_eq_some_iff, Bool.and_eq_true,
    List.any_eq_true, beq_iff_eq, Bool.not_eq_true'] at read first second
  obtain ⟨text, parses, ⟨⟨quiet, unusable⟩, source⟩, declares⟩ := read
  obtain ⟨compilation, compiled, valid, unit, member, isUnit, declared⟩ := first
  obtain ⟨broken, recompiled, reported, unresolved⟩ := second
  rw [← isUnit] at parses unusable source declares
  exact ⟨compilation, broken, unit, text, compiled, valid, member, isUnit,
    ⟨parses, quiet, unusable, source, declares.trans declared.symm⟩, recompiled,
    reported, unresolved⟩

end Compilation

end YangSchema
