import YangSchema.Proofs.Linking.Asking
import YangSchema.Proofs.Linking.Picking

/-!
# The order of the units

If no two units have the same name, kind and revision, the order in which units
are linked makes no difference for names:  imports and includes are bound to the
same units, names are looked up in the same units, and so they are resolved to the
same nodes.  Paths are another matter, for the augments of a node are gone through
in the order of their units.
-/

namespace YangSchema

namespace Linking

variable {units units' : List LinkUnit}

theorem areApart_of_evolves (evolves : Evolves units units') :
    UnitEntry.AreApart (units'.filterMap UnitEntry.of?) ↔
      UnitEntry.AreApart (units.filterMap UnitEntry.of?) := by
  rw [evolves.filterMap_of?]

/-- Units that have been linked alone in another order have been read in another
order. -/
theorem exists_linkAlone_perm (permuted : units'.Perm (linkAlone units)) :
    ∃ others, others.Perm units ∧ linkAlone others = units' := by
  obtain ⟨others, each, permutes⟩ :=
    List.perm_comp_forall₂ permuted (linkAlone_eq_iff.mp rfl)
  exact ⟨others, permutes, linkAlone_eq_iff.mpr each⟩

theorem areApart_perm
    (apart : UnitEntry.AreApart (units.filterMap UnitEntry.of?))
    (permuted : units'.Perm units) :
    UnitEntry.AreApart (units'.filterMap UnitEntry.of?) :=
  apart.perm (permuted.filterMap UnitEntry.of?).symm fun apart =>
    Bool.eq_false_iff.mpr fun same =>
      Bool.eq_false_iff.mp apart (UnitEntry.repeats_symm same)

section

variable (distinct : (units.map (·.source)).Nodup)
  (apart : UnitEntry.AreApart (units.filterMap UnitEntry.of?))
  (permuted : units'.Perm units)
include distinct apart permuted

/-- A unit is bound in the same way whatever the order of the others is. -/
theorem bindUnit_perm : bindUnit (units'.filterMap UnitEntry.of?) =
    bindUnit (units.filterMap UnitEntry.of?) := by
  have distinct' : (units'.map (·.source)).Nodup :=
    (permuted.map _).nodup_iff.mpr distinct
  have alike : UnitEntry.Alike (units.filterMap UnitEntry.of?)
      (units'.filterMap UnitEntry.of?) := fun label =>
    ((permuted.filterMap UnitEntry.of?).map (·.label)).mem_iff.symm
  exact funext (bindUnit_alike apart (areApart_perm apart permuted) alike
    (nodup_sources_of? distinct) (nodup_sources_of? distinct'))

/-- The sources of units are bound in the same way in any order. -/
theorem bindSources_perm :
    (bindSources units').1.Perm (bindSources units).1 := by
  have distinct' : (units'.map (·.source)).Nodup :=
    (permuted.map _).nodup_iff.mpr distinct
  rw [bindSources_of_apart distinct' (areApart_perm apart permuted),
    bindUnit_perm distinct apart permuted, bindSources_of_apart distinct apart]
  exact permuted.map _

end

end Linking

namespace Scene

variable {units units' : List LinkUnit} {phase : LinkPhase}
  (distinct : (units.map (·.source)).Nodup) (permuted : units'.Perm units)
include distinct permuted

/-- The unit of a source does not depend on the order of the units. -/
theorem unit?_perm (source : SourceId) :
    (ofUnits units' phase).unit? source = (ofUnits units phase).unit? source := by
  have distinct' : (units'.map (·.source)).Nodup :=
    (permuted.map _).nodup_iff.mpr distinct
  refine Option.ext fun unit => ⟨fun found => ?_, fun found => ?_⟩
  · obtain ⟨member, rfl⟩ := unit?_mem found
    exact @unit?_of_mem (ofUnits units phase) distinct unit
      (permuted.mem_iff.mp member)
  · obtain ⟨member, rfl⟩ := unit?_mem found
    exact @unit?_of_mem (ofUnits units' phase) distinct' unit
      (permuted.mem_iff.mpr member)

/-- What is found for a name does not depend on the order of the units. -/
theorem outcome_perm (source : SourceId) {item : Reference}
    (own : item.IsOwnName) :
    (ofUnits units' phase).outcome source item =
      (ofUnits units phase).outcome source item := by
  have same := @unit?_perm _ _ phase distinct permuted
  refine outcome_of_scopes (fun source => ?_) (fun source qualifier => ?_) ?_
    source own.own own.named
  · cases found : (ofUnits units phase).unit? source with
    | none => exact .missing found ((same source).trans found)
    | some unit =>
        exact .found found ((same source).trans found)
          ⟨rfl, .refl unit.tree⟩
  · simp only [scopes, tree?, isUsable, same]
    rfl
  · simp only [nodeCount, ofUnits]
    rw [foldl_add_eq, foldl_add_eq]
    exact congrArg _ (permuted.map _).sum_eq

end Scene

namespace Linking

variable {units units' : List LinkUnit} {late : LinkUnit}
  (distinct : (units.map (·.source)).Nodup)
  (finished : ∀ unit ∈ units, unit.usable = true →
    ∃ draft : Draft, draft.IsFinished ∧ unit = draft.asUnit)
  (apart : UnitEntry.AreApart (units.filterMap UnitEntry.of?))
  (permuted : units'.Perm units)
include distinct finished apart permuted

/-- When units are linked in another order, there is a unit of the same source in
which every name that the unit looks up for itself stands as it does here. -/
theorem exists_permuted
    (member : late ∈ link .interFile (bindSources (linkAlone units)).1)
    (usable : late.usable = true) :
    ∃ late' ∈ link .interFile (bindSources (linkAlone units')).1,
      late'.source = late.source ∧ late'.usable = true ∧
      ∀ index item, late.queue[index]? = some item → item.IsOwnName →
        late.AgreesAt late' index item := by
  have distinct' : (units'.map (·.source)).Nodup :=
    (permuted.map _).nodup_iff.mpr distinct
  have finished' : ∀ unit ∈ units', unit.usable = true →
      ∃ draft : Draft, draft.IsFinished ∧ unit = draft.asUnit :=
    fun unit member => finished unit (permuted.mem_iff.mp member)
  have apart' : UnitEntry.AreApart (units'.filterMap UnitEntry.of?) :=
    areApart_perm apart permuted
  have bound := bindSources_of_apart distinct apart
  have bound' := bindSources_of_apart distinct' apart'
  have evolves (units : List LinkUnit) :
      Evolves (bindSources units).1
        (link .interFile (bindSources (linkAlone units)).1) :=
    (linkAlone_evolves units).bindSources.trans (link_evolves .interFile _)
  obtain ⟨place, known⟩ := List.mem_iff_getElem?.mp member
  -- The unit as it has been read is among those in the other order, too.
  obtain ⟨unit, knownUnit, source, isUsable⟩ : ∃ unit,
      units[place]? = some unit ∧ late.source = unit.source ∧
        unit.usable = true := by
    obtain ⟨_, knownBound, evolved⟩ := (evolves units).unit_before known
    rw [bound, List.getElem?_map] at knownBound
    obtain ⟨unit, knownUnit, rfl⟩ := Option.map_eq_some_iff.mp knownBound
    obtain ⟨source, isUsable⟩ :=
      bindUnit_front (units.filterMap UnitEntry.of?) unit
    exact ⟨unit, knownUnit, evolved.text.source.trans source,
      isUsable.symm.trans (evolved.usable.symm.trans usable)⟩
  obtain ⟨place', knownUnit'⟩ := List.mem_iff_getElem?.mp
    (permuted.mem_iff.mpr (List.mem_of_getElem? knownUnit))
  obtain ⟨start, knownStart, usableStart, sourceStart⟩ : ∃ start,
      (bindSources units').1[place']? = some start ∧ start.usable = true ∧
        start.source = unit.source := by
    obtain ⟨source, same⟩ :=
      bindUnit_front (units'.filterMap UnitEntry.of?) unit
    exact ⟨_, by rw [bound', List.getElem?_map, knownUnit', Option.map_some],
      same.trans isUsable, source⟩
  obtain ⟨late', known', evolved⟩ := (evolves units').unit knownStart
  refine ⟨late', List.mem_of_getElem? known', ?_, evolved.usable.trans usableStart,
    fun index item found own => ?_⟩
  · exact (evolved.text.source.trans sourceStart).trans source.symm
  obtain ⟨_, same, -, -, queued, agree⟩ :=
    linkAlone_ownName distinct finished known usable found own
  obtain rfl := Option.some.inj (knownUnit.symm.trans same)
  have settled := (bindSources_isOrderly_of_prepared
    ((linkAlone_evolves units').map_source ▸ distinct')
    (isPrepared_linkAlone finished')).ends.settled
  obtain ⟨_, same, agree'⟩ := linkAlone_agreesAt distinct' finished' knownUnit'
    knownStart usableStart queued own.named (link_steps .interFile _) settled
  obtain rfl := Option.some.inj (known'.symm.trans same)
  have boundSources : ((bindSources units).1.map (·.source)).Nodup := by
    rw [bound, List.map_map]
    exact (List.map_congr_left fun unit _ => (bindUnit_front _ unit).1).symm ▸
      distinct
  rw [Scene.outcome_setState, Scene.outcome_perm boundSources
    (bindSources_perm distinct apart permuted) unit.source own] at agree'
  have agree' : (unit.apply index ((Scene.ofUnits (bindSources units).1
      .interFile).outcome unit.source item)).AgreesAt late' index item :=
    ⟨agree'.state, agree'.fields⟩
  exact agree.symm.trans agree'

end Linking

namespace Compilation

/-- If no two units of a compilation have the same name, kind and revision, then
linking them in another order changes nothing for the names that a unit looks up
for itself:  neither what is found for them nor the fields that they fill. -/
theorem names_of_permuted_units (parsed : ParsedSources)
    (apart : UnitEntry.AreApart ((ofParsed parsed).units.filterMap UnitEntry.of?))
    {units' : List LinkUnit} (permuted : units'.Perm (ofParsed parsed).units) :
    ∀ unit ∈ (ofParsed parsed).linked.units, unit.usable = true →
      ∃ unit' ∈ Linking.link .interFile (Linking.bindSources units').1,
        unit'.source = unit.source ∧ unit'.usable = true ∧
        ∀ (index : Nat) (item : Reference),
          unit.queue[index]? = some item → item.IsOwnName →
          unit'.queue[index]? = some item ∧
          ∀ field ∈ item.results,
            unit'.tree.link? field = unit.tree.link? field := by
  intro unit member usable
  obtain ⟨units, alone, finished⟩ :=
    Linking.exists_linkAlone fun _ => ofParsed_isFinished parsed
  have distinct := ofParsed_distinct parsed
  rw [← alone] at permuted distinct apart
  rw [(Linking.linkAlone_evolves units).map_source] at distinct
  rw [Linking.areApart_of_evolves (Linking.linkAlone_evolves units)] at apart
  obtain ⟨others, permutes, rfl⟩ := Linking.exists_linkAlone_perm permuted
  simp only [linked, ← alone] at member
  obtain ⟨late', member', source, usable', agree⟩ :=
    Linking.exists_permuted distinct finished apart permutes member usable
  refine ⟨late', member', source, usable', fun index item found own => ?_⟩
  have agree := agree index item found own
  exact ⟨agree.state.trans found, agree.fields⟩

/-- A grouping of a module that comes first or last. -/
theorem names_of_permuted_units_importing :
    ∃ (parsed : ParsedSources) (unit unit' : LinkUnit) (item : Reference),
      ParsedSources.ofSources .standard
        [⟨.inline, "module a \x7b namespace \"u:a\"; prefix a; " ++
            "grouping g \x7b leaf x \x7b type string; \x7d \x7d \x7d"⟩,
          ⟨.inline, "module b \x7b namespace \"u:b\"; prefix b; " ++
            "import a \x7b prefix p; \x7d uses p:g; \x7d"⟩] = .ok parsed ∧
      unit ∈ (ofParsed parsed).linked.units ∧
      unit' ∈ Linking.link .interFile
        (Linking.bindSources (ofParsed parsed).units.reverse).1 ∧
      unit.source = 1 ∧ unit'.source = 1 ∧ item.kind = .uses ∧
      item.state = .resolved ⟨0, 1⟩ ∧ unit.queue[0]? = some item ∧
      unit'.queue[0]? = some item := by
  generalize written : ([_, _] : Sources) = sources
  have checked : (ParsedSources.ofSources .standard sources).toOption.any
      (fun parsed =>
        decide (UnitEntry.AreApart
          ((ofParsed parsed).units.filterMap UnitEntry.of?)) &&
        (ofParsed parsed).linked.units.any fun unit =>
          unit.usable && unit.source == 1 && unit.queue[0]?.any fun item =>
            item.kind == .uses && item.state == .resolved ⟨0, 1⟩ &&
              item.origin == none) = true := by
    subst written
    decide +kernel
  cases parsing : ParsedSources.ofSources .standard sources with
  | error error => simp [parsing, Except.toOption] at checked
  | ok parsed =>
      simp only [parsing, Except.toOption, Option.any_some, Bool.and_eq_true,
        decide_eq_true_eq, List.any_eq_true, beq_iff_eq, Option.any_eq_true]
        at checked
      obtain ⟨apart, unit, member, ⟨usable, source⟩, item, queued, ⟨kind, state⟩,
        own⟩ := checked
      obtain ⟨unit', member', same, -, names⟩ := names_of_permuted_units parsed
        apart (List.reverse_perm (ofParsed parsed).units) unit member usable
      exact ⟨parsed, unit, unit', item, rfl, member, member', source,
        same.trans source, kind, state, queued,
        (names 0 item queued ⟨own, by rw [kind]; rfl⟩).1⟩

/-- Two augments add nodes of the same name:  which one a path means depends on the
order of their modules, whatever prefix is written. -/
theorem compile_depends_on_order :
    let m : Source := ⟨.inline, "module m \x7b namespace \"u:m\"; prefix m; " ++
      "container c; \x7d"⟩
    let x : Source := ⟨.inline, "module x \x7b namespace \"u:x\"; prefix x; " ++
      "import m \x7b prefix m; \x7d augment \"/m:c\" \x7b " ++
      "leaf n \x7b type string; \x7d \x7d \x7d"⟩
    let y : Source := ⟨.inline, "module y \x7b namespace \"u:y\"; prefix y; " ++
      "import m \x7b prefix m; \x7d augment \"/m:c\" \x7b " ++
      "container n \x7b leaf k \x7b type string; \x7d \x7d \x7d " ++
      "leaf r \x7b type leafref \x7b path \"/m:c/y:n/y:k\"; \x7d \x7d \x7d"⟩
    ∃ first second, compile .standard [m, x, y] = .ok first ∧
      compile .standard [m, y, x] = .ok second ∧
      UnitEntry.AreApart (first.units.filterMap UnitEntry.of?) ∧
      first.isValid = false ∧ second.isValid = true := by
  intro m x y
  have checked : ((compile .standard [m, x, y]).toOption.any fun first =>
        decide (UnitEntry.AreApart (first.units.filterMap UnitEntry.of?)) &&
          !first.isValid) &&
      ((compile .standard [m, y, x]).toOption.any (·.isValid)) = true := by
    decide +kernel
  cases compiled : compile .standard [m, x, y] with
  | error error => simp [compiled, Except.toOption] at checked
  | ok first =>
      cases compiled' : compile .standard [m, y, x] with
      | error error => simp [compiled', Except.toOption] at checked
      | ok second =>
          simp only [compiled, compiled', Except.toOption, Option.any_some,
            Bool.and_eq_true, decide_eq_true_eq, Bool.not_eq_true'] at checked
          obtain ⟨⟨apart, invalid⟩, valid⟩ := checked
          exact ⟨first, second, rfl, rfl, apart, invalid, valid⟩

end Compilation

end YangSchema
