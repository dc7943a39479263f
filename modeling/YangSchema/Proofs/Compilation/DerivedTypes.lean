import YangSchema.Proofs.Interval.Values
import YangSchema.Proofs.Linking.Asking
import YangSchema.Proofs.Linking.Derivations

/-!
# Effective types

A type that names a typedef leads from there to further typedefs, each of which is
looked up where the one before is defined.  What the unit writes down for such a
type is what all types on the way amount to together.  If the way leads to a typedef
for the second time, or a type on it oversteps what it inherits, then the name has
failed.
-/

namespace YangSchema

/-- All layers of a chain taken together, the built-in end last. -/
structure EffectiveType.Combines (effective : EffectiveType)
    (base : BuiltinType) (layers : List TypeUse) : Prop where
  builtin : effective.builtin = base
  patterns : effective.patterns =
    layers.reverse.flatMap (·.patterns.map (·.regex))
  fractionDigits : effective.fractionDigits =
    layers.getLast?.bind (·.fractionDigits)
  /-- The integers that are left are those of the built-in type which every layer
  admits, with its symbols bound to the ends of what it inherits. -/
  values : ∀ (kind : IntervalKind) (least greatest : Int),
    base.limits? kind = some (least, greatest) →
    (∀ restriction ∈ TypeUse.restrictions kind layers, restriction.AreWhole) →
    ∀ value,
      ((effective.intervals? kind).getD [⟨.int least, .int greatest⟩]).Admits
          value ↔
        (least ≤ value ∧ value ≤ greatest) ∧
          ∀ binding ∈ Intervals.bindings [⟨.int least, .int greatest⟩]
            (TypeUse.restrictions kind layers), binding.result.Admits value

/-- Some layer of a chain restricts what the built-in type takes no restriction of,
or reaches beyond what it inherits. -/
inductive Oversteps (builtin : BuiltinType) (layers : List TypeUse) : Prop
  | interval {kind : IntervalKind} {layer : TypeUse} (among : layer ∈ layers)
      (restricts : (layer.restriction? kind).isSome)
      (untaken : builtin.supports kind = false)
  | pattern {layer : TypeUse} (among : layer ∈ layers)
      (restricts : layer.patterns ≠ [])
      (untaken : builtin.supportsPattern = false)
  /-- A part lies inside no inherited one, as far as bounds of 64 bits tell. -/
  | outside {kind : IntervalKind} {natural : Intervals}
      {binding : Intervals.Binding} {part : Interval}
      (known : builtin.natural? (layers.getLast?.bind (·.fractionDigits)) kind =
        some natural)
      (among : binding ∈ Intervals.bindings natural
        (TypeUse.restrictions kind layers))
      (listed : part ∈ binding.result)
      (beyond : ∀ outer ∈ binding.inherited,
        outer.min.compare part.min = .gt ∨ outer.max.compare part.max = .lt)
  | wider {kind : IntervalKind} {least greatest value : Int}
      {binding : Intervals.Binding}
      (limits : builtin.limits? kind = some (least, greatest))
      (whole : ∀ restriction ∈ TypeUse.restrictions kind layers,
        restriction.AreWhole)
      (among : binding ∈ Intervals.bindings [⟨.int least, .int greatest⟩]
        (TypeUse.restrictions kind layers))
      (admitted : binding.result.Admits value)
      (new : ¬ binding.inherited.Admits value)

section

variable {builtin : BuiltinType} {layers : List TypeUse}
  {effective : EffectiveType}

theorem EffectiveType.ofLayers_combines
    (merged : ofLayers builtin layers = .ok effective) :
    effective.Combines builtin layers := by
  have intervals {kind : IntervalKind} {least greatest : Int} :=
    @ofLayers_intervals builtin layers effective kind least greatest merged
  simp only [ofLayers, bind_eq_ok_iff, pure_eq_ok_iff] at merged
  obtain ⟨final, restricted, rfl⟩ := merged
  refine ⟨rfl, (ValueSpace.foldlM_restrict_patterns restricted).1, rfl, ?_⟩
  intro kind least greatest limits whole value
  obtain ⟨within, left⟩ := intervals limits
  have admits := @Intervals.bindings_admit_iff _ [(least, greatest)] value whole
    within
  rw [Intervals.admits_ofPairs_iff] at admits
  rw [left]
  simp only [List.mem_singleton, exists_eq_left] at admits
  exact admits

/-- What oversteps is not merged. -/
theorem Oversteps.not_merged (oversteps : Oversteps builtin layers) :
    EffectiveType.ofLayers builtin layers ≠ .ok effective := by
  intro merged
  have intervals {kind : IntervalKind} {least greatest : Int} :=
    @EffectiveType.ofLayers_intervals builtin layers effective kind least
      greatest merged
  simp only [EffectiveType.ofLayers, bind_eq_ok_iff] at merged
  obtain ⟨final, restricted, -⟩ := merged
  cases oversteps with
  | @interval kind layer among restricts untaken =>
      have untaken := (ValueSpace.ofBuiltin_natural _).trans
        (BuiltinType.natural?_eq_none untaken
          (layers.getLast?.bind (·.fractionDigits)))
      have none := (ValueSpace.foldlM_restrict_inapplicable restricted untaken).2
        layer (by simpa using among)
      simp [none] at restricts
  | @pattern layer among restricts untaken =>
      have taken := (ValueSpace.foldlM_restrict_patterns restricted).2 layer
        (by simpa using among)
      simp [restricts, untaken] at taken
  | @outside kind natural binding part known among listed beyond =>
      have within := (ValueSpace.foldlM_restrict_intervals restricted
        ((ValueSpace.ofBuiltin_natural _).trans known)).1 binding among
      obtain ⟨outer, inherited, contains⟩ :=
        List.any_eq_true.mp (List.all_eq_true.mp within part listed)
      have beyond := beyond outer inherited
      simp only [Interval.contains, Bool.and_eq_true, decide_eq_true_eq]
        at contains
      exact beyond.elim contains.1 contains.2
  | @wider kind least greatest value binding limits whole among admitted new =>
      have within := (intervals limits).1
      exact new (@Intervals.bindings_add_nothing _ [(least, greatest)] value
        whole within binding among admitted)

theorem EffectiveType.ofLayers_raises :
    Raises Miss.IsFailure (ofLayers builtin layers) := by
  simp only [ofLayers, raises_bind_iff]
  exact ⟨ValueSpace.foldlM_restrict_raises, by simp⟩

end

namespace Scene

/-- The typedefs that a type leads to, each with its own type and looked up where
the one before is defined. -/
inductive LeadsTo (scene : Scene) :
    NodeRef → TypeUse → List (NodeRef × TypeUse) → Prop
  | last {place typedef : NodeRef} {use type : TypeUse}
      (found : scene.lexical place use.name .typedef = .ok typedef)
      (declared : scene.type? typedef = some type) :
      LeadsTo scene place use [(typedef, type)]
  | further {place typedef : NodeRef} {use type : TypeUse}
      {steps : List (NodeRef × TypeUse)}
      (found : scene.lexical place use.name .typedef = .ok typedef)
      (declared : scene.type? typedef = some type)
      (derived : type.builtin = none)
      (rest : LeadsTo scene typedef type steps) :
      LeadsTo scene place use ((typedef, type) :: steps)

variable {scene : Scene} {place first : NodeRef} {use type : TypeUse}
  {builtin : BuiltinType} {chain : List NodeRef} {met : List TypeUse}
  {steps rest : List (NodeRef × TypeUse)}

/-- The last typedef on the way has a built-in type. -/
def EndsIn (steps : List (NodeRef × TypeUse)) (builtin : BuiltinType) : Prop :=
  steps.getLast?.bind (·.2.builtin) = some builtin

theorem chainEnd_builtin (declared : scene.type? first = some type)
    (named : type.builtin = some builtin) (bound : Nat) :
    scene.chainEnd (bound + 1) first chain met =
      .ok ⟨first, builtin, met ++ [type]⟩ := by
  simp [chainEnd, declared, named]

theorem chainEnd_derived {next : NodeRef}
    (declared : scene.type? first = some type) (derived : type.builtin = none)
    (found : scene.lexical first type.name .typedef = .ok next) (bound : Nat) :
    scene.chainEnd (bound + 1) first chain met =
      if next ∈ chain then
        .error (.failed (.circularTypedefs (chain.map scene.nameOf)
          (scene.nameOf next)))
      else scene.chainEnd bound next (chain ++ [next]) (met ++ [type]) := by
  simp only [chainEnd, declared, derived, found, List.contains_iff_mem]
  by_cases again : next ∈ chain <;> simp [again, bind, Except.bind, throw,
    throwThe, MonadExceptOf.throw]

theorem LeadsTo.head (leads : scene.LeadsTo place use ((first, type) :: rest)) :
    scene.lexical place use.name .typedef = .ok first ∧
      scene.type? first = some type := by
  cases leads with
  | last found declared => exact ⟨found, declared⟩
  | further found declared => exact ⟨found, declared⟩

/-- The walk along typedefs collects the way to a built-in type, on which no typedef
comes twice. -/
theorem LeadsTo.of_chainEnd {bound : Nat} {ending : ChainEnd}
    (found : scene.lexical place use.name .typedef = .ok first)
    (reached : scene.chainEnd bound first chain met = .ok ending)
    (distinct : chain.Nodup) :
    ∃ type rest, scene.LeadsTo place use ((first, type) :: rest) ∧
      (chain ++ rest.map (·.1)).Nodup ∧
      EndsIn ((first, type) :: rest) ending.builtin ∧
      ending.layers = met ++ type :: rest.map (·.2) := by
  induction bound generalizing place use first chain met with
  | zero => simp [chainEnd] at reached
  | succ bound ih =>
      cases declared : scene.type? first with
      | none => simp [chainEnd, declared] at reached
      | some type =>
          cases named : type.builtin with
          | some builtin =>
              rw [chainEnd_builtin declared named] at reached
              obtain rfl := Except.ok.inj reached
              exact ⟨type, [], .last found declared, by simpa using distinct,
                by simpa [EndsIn] using named, by simp⟩
          | none =>
              cases found' : scene.lexical first type.name .typedef with
              | error miss =>
                  simp [chainEnd, declared, named, found', bind, Except.bind]
                    at reached
              | ok next =>
                  rw [chainEnd_derived declared named found'] at reached
                  split at reached
                  · simp at reached
                  next fresh =>
                  have distinct' := List.Nodup.concat fresh distinct
                  rw [List.concat_eq_append] at distinct'
                  obtain ⟨inner, rest, leads, once, ends, layers⟩ :=
                    ih found' reached distinct'
                  refine ⟨type, (next, inner) :: rest,
                    .further found declared named leads, by simpa using once,
                    ?_, by simpa using layers⟩
                  simpa [EndsIn] using ends

/-- The walk along typedefs goes the whole way if no typedef comes twice on it, and
fails otherwise. -/
theorem LeadsTo.chainEnd_eq (met : List TypeUse)
    (leads : scene.LeadsTo place use ((first, type) :: rest))
    (distinct : chain.Nodup) (more : Nat) :
    ((chain ++ rest.map (·.1)).Nodup → ∀ builtin,
      EndsIn ((first, type) :: rest) builtin → ∃ typedef,
        scene.chainEnd (rest.length + 1 + more) first chain met =
          .ok ⟨typedef, builtin, met ++ type :: rest.map (·.2)⟩) ∧
    (¬ (chain ++ rest.map (·.1)).Nodup → ∃ failure,
      scene.chainEnd (rest.length + 1 + more) first chain met =
        .error (.failed failure)) := by
  induction rest generalizing place use first type chain met with
  | nil =>
      refine ⟨fun _ builtin ends => ⟨first, ?_⟩, fun twice => ?_⟩
      · rw [List.length_nil, Nat.add_right_comm,
          chainEnd_builtin leads.head.2 (by simpa [EndsIn] using ends)]
        rfl
      · exact absurd (by simpa using distinct) twice
  | cons step rest ih =>
      obtain ⟨next, inner⟩ := step
      cases leads with
      | further found declared derived leads =>
          rw [List.length_cons, Nat.add_right_comm,
            chainEnd_derived declared derived leads.head.1]
          by_cases again : next ∈ chain
          · simp only [again, if_true]
            refine ⟨fun once => ?_, fun _ => ⟨_, rfl⟩⟩
            exact absurd rfl
              ((List.nodup_append.mp once).2.2 next again next (by simp))
          · have distinct' := List.Nodup.concat again distinct
            rw [List.concat_eq_append] at distinct'
            have further := ih (met ++ [type]) leads distinct'
            simpa [again, EndsIn] using further

theorem chainEnd_eq_of_le {bound : Nat} (first : NodeRef)
    (room : scene.nodeCount + 1 ≤ bound) :
    scene.chainEnd bound first [first] met =
      scene.chainEnd (scene.nodeCount + 1) first [first] met := by
  obtain ⟨more, rfl⟩ := Nat.exists_eq_add_of_le room
  exact chainEnd_add (chain_endsWithin first) more met

/-- What is derived from a type combines all types on the way to a built-in one. -/
theorem derive_combines {derivation : Derivation}
    (derived : scene.derive place use = .ok derivation) :
    ∃ steps builtin, scene.LeadsTo place use steps ∧
      steps.head?.map (·.1) = some derivation.typedef ∧
      (steps.map (·.1)).Nodup ∧ EndsIn steps builtin ∧
      derivation.effective.Combines builtin (use :: steps.map (·.2)) := by
  simp only [derive, bind_eq_ok_iff, pure_eq_ok_iff] at derived
  obtain ⟨first, found, ending, reached, effective, merged, -, -, rfl⟩ := derived
  obtain ⟨type, rest, leads, once, ends, layers⟩ :=
    LeadsTo.of_chainEnd found reached (List.nodup_singleton first)
  have combines := EffectiveType.ofLayers_combines merged
  rw [layers] at combines
  refine ⟨_, ending.builtin, leads, rfl, by simpa using once, ends, ?_⟩
  -- Where the members come from is no part of what the layers restrict.
  split
  · exact ⟨combines.builtin, combines.patterns, combines.fractionDigits,
      fun kind => by cases kind <;> exact combines.values _⟩
  · exact combines

/-- A type whose way leads to a typedef for the second time, or to a built-in type
with a layer that oversteps what it inherits, is refused. -/
theorem LeadsTo.derive_failed (leads : scene.LeadsTo place use steps)
    (wrong : ¬ (steps.map (·.1)).Nodup ∨ ∃ builtin, EndsIn steps builtin ∧
      Oversteps builtin (use :: steps.map (·.2))) :
    ∃ failure, scene.derive place use = .error (.failed failure) := by
  obtain ⟨⟨first, type⟩, rest, rfl⟩ : ∃ step rest, steps = step :: rest := by
    cases leads <;> exact ⟨_, _, rfl⟩
  have walk := leads.chainEnd_eq [use] (List.nodup_singleton first)
    (scene.nodeCount + 1)
  rw [chainEnd_eq_of_le first (Nat.le_add_left _ _)] at walk
  simp only [List.map_cons, List.singleton_append] at walk wrong
  unfold derive
  rw [leads.head.1]
  by_cases once : (first :: rest.map (·.1)).Nodup
  · obtain ⟨builtin, ends, oversteps⟩ := wrong.resolve_left (· once)
    obtain ⟨typedef, reached⟩ := walk.1 once builtin ends
    cases merged : EffectiveType.ofLayers builtin
        (use :: type :: rest.map (·.2)) with
    | ok effective => exact absurd merged oversteps.not_merged
    | error miss =>
        obtain ⟨failure, rfl⟩ := EffectiveType.ofLayers_raises miss merged
        refine ⟨failure, ?_⟩
        simp only [bind, Except.bind, reached]
        exact merged ▸ rfl
  · obtain ⟨failure, failed⟩ := walk.2 once
    exact ⟨failure, by simp [failed, bind, Except.bind]⟩

/-- A reference to a typedef stands for the type at its slot. -/
theorem lookupReference_derivedType {unit : LinkUnit} {item : Reference}
    {slot : TypeSlot} (known : scene.unit? unit.source = some unit)
    (own : item.origin = none) (kind : item.kind = .derivedType slot) :
    (∀ outcome, scene.lookupReference unit.source item = .ok outcome →
      ∃ use derivation members, unit.tree.typeAt? slot = some use ∧
        scene.derive ⟨unit.source, slot.node⟩ use = .ok derivation ∧
        outcome = .derived derivation members) ∧
    ∀ use miss, unit.tree.typeAt? slot = some use →
      scene.derive ⟨unit.source, slot.node⟩ use = .error miss →
      scene.lookupReference unit.source item = .error miss := by
  simp only [lookupReference, kind, derivedOutcome, derivedUse, own, tree?,
    known, Option.map_some, Option.bind_some]
  cases declared : unit.tree.typeAt? slot with
  | none => simp [throw, throwThe, MonadExceptOf.throw]
  | some use =>
      refine ⟨fun outcome settled => ?_, fun _ miss same failed => ?_⟩
      · simp only [bind_eq_ok_iff] at settled
        obtain ⟨derivation, derived, settled⟩ := settled
        split at settled
        · simp only [bind_eq_ok_iff, pure_eq_ok_iff] at settled
          obtain ⟨members, -, rfl⟩ := settled
          exact ⟨use, derivation, members, rfl, derived, rfl⟩
        · obtain rfl := pure_eq_ok_iff.mp settled
          exact ⟨use, derivation, [], rfl, derived, rfl⟩
      · obtain rfl := Option.some.inj same
        simp [failed, bind, Except.bind]

end Scene

namespace LinkUnit

variable {unit late : LinkUnit} {item : Reference} {slot : TypeSlot}
  {index : Nat} {derivation : Derivation} {members : List Reference}

/-- A unit that is as if the outcome of a derived type were just written down has
the effective type in its slot. -/
theorem AgreesAt.effective {state : ReferenceState}
    (found : unit.queue[index]? = some { item with state }) (own : item.origin = none) (kind : item.kind = .derivedType slot)
    (declared : (unit.tree.typeAt? slot).isSome)
    (agree : (unit.apply index (.derived derivation members)).AgreesAt late index
      item) :
    ∃ use, late.tree.typeAt? slot = some use ∧
      use.links.effective = some derivation.effective := by
  obtain ⟨use, declared⟩ := Option.isSome_iff_exists.mp declared
  have field := agree.fields ⟨slot.node, .effective slot.member⟩
    (by simp [Reference.results, own, kind])
  have written : (unit.apply index (.derived derivation members)).tree =
      bindDerivation unit.tree item slot derivation := by
    simp [LinkUnit.apply, found, kind, bindDerivation, own]
  rw [written] at field
  simp only [bindDerivation, own, Option.isSome_none, Bool.false_eq_true,
    if_false, SchemaTree.link?_type, SchemaTree.typeAt?_modifyLinks, if_true,
    declared] at field
  obtain ⟨use', declared', field⟩ := Option.bind_eq_some_iff.mp field
  obtain ⟨effective, known, same⟩ := Option.map_eq_some_iff.mp field
  obtain rfl : effective = derivation.effective := by simpa using same
  exact ⟨use', declared', known⟩

variable {scene : Scene}

/-- What a derived type stands at is what its way amounts to. -/
theorem AgreesAt.derivedType (known : scene.unit? late.source = some late)
    (queued : unit.queue[index]? = some { item with state := .unresolved })
    (found : late.queue[index]? = some item)
    (outline : unit.tree.SameOutline late.tree)
    (own : item.origin = none) (kind : item.kind = .derivedType slot)
    (agree : (unit.apply index (scene.outcome late.source item)).AgreesAt late
      index item) :
    (∀ target, item.state = .resolved target →
      ∃ use effective steps builtin,
        late.tree.typeAt? slot = some use ∧
        use.links.effective = some effective ∧
        scene.LeadsTo ⟨late.source, slot.node⟩ use steps ∧
        steps.head?.map (·.1) = some target ∧
        (steps.map (·.1)).Nodup ∧ Scene.EndsIn steps builtin ∧
        effective.Combines builtin (use :: steps.map (·.2))) ∧
    ∀ use steps, late.tree.typeAt? slot = some use →
      scene.LeadsTo ⟨late.source, slot.node⟩ use steps →
      (¬ (steps.map (·.1)).Nodup ∨ ∃ builtin, Scene.EndsIn steps builtin ∧
        Oversteps builtin (use :: steps.map (·.2))) →
      ∃ failure, item.state = .failed failure := by
  obtain ⟨settles, fails⟩ := Scene.lookupReference_derivedType known own kind
  have state : item.state =
      stateOf item.kind .unresolved (scene.outcome late.source item) := by
    have same := found.symm.trans
      (agree.state.trans (getElem?_apply_self queued _))
    exact congrArg Reference.state (Option.some.inj same)
  refine ⟨fun target resolved => ?_, fun use steps declared leads wrong => ?_⟩
  · rw [resolved] at state
    unfold Scene.outcome at agree state
    cases answer : scene.lookupReference late.source item with
    | error miss => cases miss <;> simp [answer, Outcome.ofMiss, stateOf] at state
    | ok outcome =>
        obtain ⟨use, derivation, members, declared, derived, rfl⟩ :=
          settles _ answer
        simp only [answer] at agree state
        obtain ⟨use', declared', -⟩ := outline.typeAt? declared
        obtain ⟨_, same, effective⟩ := agree.effective queued own kind
          (Option.isSome_of_eq_some declared')
        obtain rfl := Option.some.inj (declared.symm.trans same)
        obtain ⟨steps, builtin, leads, first, once, ends, combines⟩ :=
          Scene.derive_combines derived
        obtain rfl : target = derivation.typedef := by
          simpa [stateOf, kind] using state
        exact ⟨use, derivation.effective, steps, builtin, declared, effective,
          leads, first, once, ends, combines⟩
  · obtain ⟨failure, failed⟩ := leads.derive_failed wrong
    refine ⟨failure, ?_⟩
    rw [state, Scene.outcome, fails use _ declared failed]
    rfl

end LinkUnit

namespace Compilation

/-- A derived type that a unit uses and that has been resolved leads to a built-in
type, no typedef coming twice, and has the effective type that all layers on the way
amount to.  If it leads to a typedef for the second time, or some layer oversteps
what it inherits, it has failed. -/
theorem derived_types_combine (parsed : ParsedSources) :
    let units := (ofParsed parsed).linked.units
    let scene := Scene.ofUnits units .interFile
    ∀ unit ∈ units, unit.usable = true →
      ∀ item ∈ unit.queue, item.origin = none →
      ∀ slot, item.kind = .derivedType slot →
      (∀ target, item.state = .resolved target →
        ∃ use effective steps builtin,
          unit.tree.typeAt? slot = some use ∧
          use.links.effective = some effective ∧
          scene.LeadsTo ⟨unit.source, slot.node⟩ use steps ∧
          steps.head?.map (·.1) = some target ∧
          (steps.map (·.1)).Nodup ∧ Scene.EndsIn steps builtin ∧
          effective.Combines builtin (use :: steps.map (·.2))) ∧
      ∀ use steps, unit.tree.typeAt? slot = some use →
        scene.LeadsTo ⟨unit.source, slot.node⟩ use steps →
        (¬ (steps.map (·.1)).Nodup ∨ ∃ builtin, Scene.EndsIn steps builtin ∧
          Oversteps builtin (use :: steps.map (·.2))) →
        ∃ failure, item.state = .failed failure := by
  intro units scene late member usable item listed own slot kind
  obtain ⟨started, alone, finished⟩ :=
    Linking.exists_linkAlone fun _ => ofParsed_isFinished parsed
  have distinct := ofParsed_distinct parsed
  rw [← alone, (Linking.linkAlone_evolves started).map_source] at distinct
  have linked : units = Linking.link .interFile
      (Linking.bindSources (Linking.linkAlone started)).1 := by
    rw [alone]
    rfl
  obtain ⟨place, known⟩ := List.mem_iff_getElem?.mp member
  obtain ⟨index, found⟩ := List.mem_iff_getElem?.mp listed
  rw [linked] at known
  obtain ⟨unit, queued, outline, agree⟩ := Linking.linkAlone_standing
    distinct finished known usable found ⟨own, by rw [kind]; rfl⟩
  rw [← linked] at agree
  have distinct : (units.map (·.source)).Nodup := by
    have connected := Linking.bindSources_isConnected distinct
      fun unit member usable =>
        (Linking.isPrepared_of_finished finished unit member usable).alone
    have evolves := (Linking.linkAlone_evolves started).bindSources.trans
      (Linking.link_evolves .interFile _)
    rw [linked, evolves.map_source]
    exact connected.distinct
  have known : scene.unit? late.source = some late :=
    @Scene.unit?_of_mem scene distinct late member
  exact agree.derivedType known queued found outline own kind

/-- A leaf that narrows a typedef of a typedef, and a leaf whose typedefs run in a
circle. -/
theorem derived_types_combine_narrowed :
    ∃ (parsed : ParsedSources) (unit : LinkUnit) (item circular : Reference)
      (use : TypeUse) (effective : EffectiveType) (layers : List TypeUse),
      ParsedSources.ofSources .standard [⟨.inline,
        "module m \x7b namespace \"u:m\"; prefix m; " ++
          "typedef a \x7b type int8 \x7b range \"min..10 | 20..max\"; \x7d \x7d " ++
          "typedef b \x7b type a \x7b range \"5..10 | 30..max\"; \x7d \x7d " ++
          "leaf l \x7b type b \x7b range \"7 | 40..max\"; \x7d \x7d " ++
          "typedef c \x7b type d; \x7d typedef d \x7b type c; \x7d " ++
          "leaf k \x7b type c; \x7d \x7d"⟩] = .ok parsed ∧
      unit ∈ (ofParsed parsed).linked.units ∧
      item ∈ unit.queue ∧ item.text = "b" ∧ item.state = .resolved ⟨0, 2⟩ ∧
      unit.tree.typeAt? ⟨3, none⟩ = some use ∧
      use.links.effective = some effective ∧
      effective.range = some [⟨.int 7, .int 7⟩, ⟨.int 40, .int 127⟩] ∧
      effective.Combines .int8 layers ∧
      circular ∈ unit.queue ∧ circular.text = "c" ∧
      ∃ failure, circular.state = .failed failure := by
  generalize written : ([_] : Sources) = sources
  have checked : (ParsedSources.ofSources .standard sources).toOption.any
      (fun parsed =>
        let scene := Scene.ofUnits (ofParsed parsed).linked.units .interFile
        (ofParsed parsed).linked.units.any fun unit =>
          unit.usable && unit.source == 0 &&
          unit.queue[0]?.any (fun item => item.text == "b" &&
            item.kind == .derivedType ⟨3, none⟩ && item.origin == none &&
            item.state == .resolved ⟨0, 2⟩) &&
          (unit.tree.typeAt? ⟨3, none⟩).any (fun use =>
            use.links.effective.any fun effective =>
              effective.builtin == .int8 && effective.range ==
                some [⟨.int 7, .int 7⟩, ⟨.int 40, .int 127⟩]) &&
          unit.queue[1]?.any (fun item => item.text == "c" &&
            item.kind == .derivedType ⟨6, none⟩ && item.origin == none) &&
          (unit.tree.typeAt? ⟨6, none⟩).any fun k =>
            scene.lexical ⟨0, 6⟩ k.name .typedef == .ok ⟨0, 4⟩ &&
            (scene.type? ⟨0, 4⟩).any fun c => c.builtin == none &&
              scene.lexical ⟨0, 4⟩ c.name .typedef == .ok ⟨0, 5⟩ &&
              (scene.type? ⟨0, 5⟩).any fun d => d.builtin == none &&
                scene.lexical ⟨0, 5⟩ d.name .typedef == .ok ⟨0, 4⟩) = true := by
    subst written
    decide +kernel
  cases parsing : ParsedSources.ofSources .standard sources with
  | error error => simp [parsing, Except.toOption] at checked
  | ok parsed =>
      simp only [parsing, Except.toOption, Option.any_some, Bool.and_eq_true,
        List.any_eq_true, beq_iff_eq, Option.any_eq_true] at checked
      obtain ⟨unit, member, ⟨⟨⟨⟨usable, source⟩, item, queued, ⟨⟨⟨text, kind⟩, own⟩,
        state⟩⟩, use, declared, effective, known, builtin, range⟩, circular,
        queued', ⟨text', kind'⟩, own'⟩, k, declaredK, toC, c, declaredC, ⟨derivedC,
        toD⟩, d, declaredD, derivedD, back⟩ := checked
      have listed := List.mem_of_getElem? queued
      have listed' := List.mem_of_getElem? queued'
      obtain ⟨use', effective', steps, _, declared', known', -, -, -, -,
          combines⟩ :=
        (derived_types_combine parsed unit member usable item listed own _
          kind).1 _ state
      obtain rfl := Option.some.inj (declared.symm.trans declared')
      obtain rfl := Option.some.inj (known.symm.trans known')
      obtain rfl := combines.builtin.symm.trans builtin
      have circle : (Scene.ofUnits (ofParsed parsed).linked.units
          .interFile).LeadsTo ⟨unit.source, 6⟩ k
            [(⟨0, 4⟩, c), (⟨0, 5⟩, d), (⟨0, 4⟩, c)] :=
        .further (source ▸ toC) declaredC derivedC
          (.further toD declaredD derivedD (.last back declaredC))
      have failed := (derived_types_combine parsed unit member usable circular
        listed' own' _ kind').2 k _ declaredK circle (.inl (by simp))
      exact ⟨parsed, unit, item, circular, use, effective, _, rfl, member,
        listed, text, state, declared, known, range, combines, listed', text',
        failed⟩

/-- Bounds are compared as if they had 64 bits as soon as one of them is a decimal,
so that an integer beyond what is inherited is let in. -/
theorem compile_widens_decimal_range :
    (compile .standard [⟨.inline,
        "module m \x7b namespace \"u:m\"; prefix m; typedef t \x7b " ++
          "type decimal64 \x7b fraction-digits 1; " ++
          "range \"0.0..9007199254740992.0\"; \x7d \x7d leaf l \x7b " ++
          "type t \x7b range \"0..9007199254740993\"; \x7d \x7d \x7d"⟩]).toOption.map
      (fun compilation => (compilation.isValid,
        compilation.units.flatMap fun unit => unit.queue.map (·.state),
        compilation.units.flatMap fun unit => unit.tree.ids.filterMap fun id =>
          ((unit.tree.type? id).bind (·.range)).map (·.intervals))) =
      some (true, [.resolved ⟨0, 1⟩],
        [[⟨.decimal (.ofInt 0), .decimal (.ofInt 9007199254740992)⟩],
          [⟨.int 0, .int 9007199254740993⟩]]) ∧
    (Decimal.Binary64.ofInt 9007199254740992).positional =
      "9007199254740992" ∧
    Decimal.Binary64.ofInt 9007199254740993 = .ofInt 9007199254740992 := by
  refine ⟨by decide +kernel, by decide +kernel, by decide +kernel⟩

end Compilation

end YangSchema
