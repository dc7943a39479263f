import YangSchema.Compilation
import YangSchema.Proofs.Interval.Binding
import YangSchema.Proofs.Schema.Types

/-!
# Restrictions along a typedef chain

A type either names a built-in type or begins a chain of typedefs that ends in
one.  Every type on the way may restrict the values that it inherits, and the
symbols of each restriction are bound to what it inherits.  This file determines
for which chains all bound restrictions are regular: those in which every
restriction fits between the ends of the intervals that it inherits.
-/

namespace YangSchema

/-- The intervals of a kind that restrict an effective type. -/
def EffectiveType.intervals? (type : EffectiveType) :
    IntervalKind → Option Intervals
  | .range => type.range
  | .length => type.length

/-- The least and the greatest value, or length of a value, of a built-in
type. -/
def BuiltinType.limits? (type : BuiltinType) :
    IntervalKind → Option (Int × Int)
  | .range => type.integerLimits?
  | .length => if type.supportsLength then some (unsignedLimits 64) else none

theorem BuiltinType.limits?_ordered {type : BuiltinType} {kind : IntervalKind}
    {least greatest : Int}
    (limits : type.limits? kind = some (least, greatest)) :
    least ≤ greatest := by
  cases kind with
  | range =>
      cases type <;>
        simp_all [limits?, integerLimits?, signedLimits, unsignedLimits] <;>
        omega
  | length =>
      simp only [limits?] at limits
      split at limits <;> simp_all [unsignedLimits]
      omega

namespace Intervals

/-- A restriction and the intervals that it inherits. -/
structure Binding where
  restriction : Intervals
  inherited : Intervals

/-- What remains of the inherited intervals. -/
def Binding.result (binding : Binding) : Intervals :=
  binding.restriction.resolve binding.inherited

def Binding.IsWithin (binding : Binding) : Prop :=
  binding.restriction.isWithin binding.inherited = true

/-- The restriction fits between the ends of what it inherits. -/
def Binding.Fits (binding : Binding) : Prop :=
  ∃ low high, Spans low high binding.inherited ∧
    FitsBetween low high binding.restriction

/-- The restrictions of a chain bound one after the other, each to the result
of the one before. -/
def bindings (inherited : Intervals) : List Intervals → List Binding
  | [] => []
  | restriction :: outer =>
      ⟨restriction, inherited⟩ ::
        bindings (restriction.resolve inherited) outer

variable {kind : IntervalKind} {least greatest : Int}
  {inherited : Intervals} {restrictions : List Intervals}

theorem bindings_isRegular_iff
    (regular : IsRegular least greatest inherited)
    (read : ∀ restriction ∈ restrictions, ∃ expression,
      parse kind expression = .ok restriction)
    (within : ∀ binding ∈ bindings inherited restrictions,
      binding.IsWithin) :
    (∀ binding ∈ bindings inherited restrictions,
        IsRegular least greatest binding.result) ↔
      ∀ binding ∈ bindings inherited restrictions, binding.Fits := by
  induction restrictions generalizing inherited with
  | nil => simp [bindings]
  | cons restriction outer ih =>
      simp only [bindings, List.forall_mem_cons] at read within ⊢
      obtain ⟨⟨expression, parsed⟩, outerRead⟩ := read
      obtain ⟨low, high, spans, -⟩ := regular.exists_spans
      have bound := resolve_isRegular_iff parsed regular spans within.1
      have first :
          IsRegular least greatest (Binding.result ⟨restriction, inherited⟩) ↔
            Binding.Fits ⟨restriction, inherited⟩ := by
        refine bound.trans ⟨fun fits => ⟨low, high, spans, fits⟩, ?_⟩
        rintro ⟨low', high', spans', fits⟩
        obtain ⟨rfl, rfl⟩ := spans'.ends_eq spans
        exact fits
      rw [← first]
      exact and_congr_right fun regular => ih regular outerRead within.2

end Intervals

/-- The restrictions of a kind along a chain, that of the built-in type
first. -/
def TypeUse.restrictions (kind : IntervalKind) (layers : List TypeUse) :
    List Intervals :=
  layers.reverse.filterMap fun layer =>
    (layer.restriction? kind).map (·.intervals)

namespace ValueSpace

def intervals? (space : ValueSpace) : IntervalKind → Option Intervals
  | .range => space.range
  | .length => space.length

def isRestricted (space : ValueSpace) : IntervalKind → Bool
  | .range => space.rangeRestricted
  | .length => space.lengthRestricted

variable {builtin : BuiltinType} {layer : TypeUse} {space next : ValueSpace}
  {kind : IntervalKind} {inherited : Intervals}

theorem narrow_eq_ok_iff {keyword : String} {restriction narrowed : Intervals}
    {inherited? : Option Intervals} :
    narrow keyword builtin restriction inherited? = .ok narrowed ↔
      ∃ inherited, inherited? = some inherited ∧
        restriction.isWithin inherited ∧
        narrowed = restriction.resolve inherited := by
  cases inherited? with
  | none => simp [narrow]
  | some inherited =>
      by_cases within : restriction.isWithin inherited
      · simp [narrow, within, eq_comm (a := narrowed)]
      · simp [narrow, within]

theorem restrictRange_eq_ok
    (restricted : restrictRange builtin layer space = .ok next) :
    match layer.range with
    | none => next = space
    | some restriction =>
        ∃ inherited, space.range = some inherited ∧
          restriction.intervals.isWithin inherited ∧
          next = { space with
            range := some (restriction.intervals.resolve inherited)
            rangeRestricted := true } := by
  unfold restrictRange at restricted
  cases declared : layer.range with
  | none =>
      simp only [declared, Except.ok.injEq] at restricted
      exact restricted.symm
  | some restriction =>
      simp only [declared] at restricted
      obtain ⟨range, narrowed, result⟩ := bind_eq_ok_iff.mp restricted
      obtain ⟨inherited, known, within, rfl⟩ := narrow_eq_ok_iff.mp narrowed
      exact ⟨inherited, known, within, (pure_eq_ok_iff.mp result).symm⟩

theorem restrictLength_eq_ok
    (restricted : restrictLength builtin layer space = .ok next) :
    match layer.length with
    | none => next = space
    | some restriction =>
        ∃ inherited, space.length = some inherited ∧
          restriction.intervals.isWithin inherited ∧
          next = { space with
            length := some (restriction.intervals.resolve inherited)
            lengthRestricted := true } := by
  unfold restrictLength at restricted
  cases declared : layer.length with
  | none =>
      simp only [declared, Except.ok.injEq] at restricted
      exact restricted.symm
  | some restriction =>
      simp only [declared] at restricted
      obtain ⟨length, narrowed, result⟩ := bind_eq_ok_iff.mp restricted
      obtain ⟨inherited, known, within, rfl⟩ := narrow_eq_ok_iff.mp narrowed
      exact ⟨inherited, known, within, (pure_eq_ok_iff.mp result).symm⟩

theorem restrictPatterns_intervals (kind : IntervalKind)
    (restricted : restrictPatterns builtin layer space = .ok next) :
    next.intervals? kind = space.intervals? kind ∧
      next.isRestricted kind = space.isRestricted kind := by
  unfold restrictPatterns at restricted
  split at restricted
  · obtain rfl : space = next := by simpa using restricted
    exact ⟨rfl, rfl⟩
  · split at restricted
    · obtain rfl := by simpa using restricted
      cases kind <;> exact ⟨rfl, rfl⟩
    · simp at restricted

/-- A layer either says nothing about a kind of restriction, or binds its own
one to what it inherits, in which it must lie. -/
theorem restrict_intervals (restricted : restrict builtin space layer = .ok next)
    (known : space.intervals? kind = some inherited) :
    match layer.restriction? kind with
    | none =>
        next.intervals? kind = some inherited ∧
          next.isRestricted kind = space.isRestricted kind
    | some restriction =>
        restriction.intervals.isWithin inherited ∧
          next.intervals? kind =
            some (restriction.intervals.resolve inherited) ∧
          next.isRestricted kind = true := by
  simp only [restrict, bind_eq_ok_iff] at restricted
  obtain ⟨ranged, range, measured, length, restricted⟩ := restricted
  obtain ⟨sameIntervals, sameRestricted⟩ :=
    restrictPatterns_intervals kind restricted
  rw [sameIntervals, sameRestricted]
  have range := restrictRange_eq_ok range
  have length := restrictLength_eq_ok length
  -- A restriction of the other kind leaves both fields as they are.
  cases kind with
  | range =>
      have sameRange : measured.range = ranged.range ∧
          measured.rangeRestricted = ranged.rangeRestricted := by
        split at length
        · simp [length]
        · obtain ⟨_, _, _, rfl⟩ := length
          exact ⟨rfl, rfl⟩
      simp only [TypeUse.restriction?, intervals?, isRestricted, sameRange]
      cases declared : layer.range <;> simp_all [intervals?]
  | length =>
      have sameLength : ranged.length = space.length ∧
          ranged.lengthRestricted = space.lengthRestricted := by
        split at range
        · simp [range]
        · obtain ⟨_, _, _, rfl⟩ := range
          exact ⟨rfl, rfl⟩
      simp only [TypeUse.restriction?, intervals?, isRestricted]
      cases declared : layer.length <;> simp_all [intervals?]

/-- Along the layers of a chain every restriction lies within what it inherits,
and what is left in the end is the last one. -/
theorem foldlM_restrict_intervals {layers : List TypeUse} {final : ValueSpace}
    (restricted : layers.foldlM (restrict builtin) space = .ok final)
    (known : space.intervals? kind = some inherited) :
    let bindings := Intervals.bindings inherited <|
      layers.filterMap fun layer =>
        (layer.restriction? kind).map (·.intervals)
    (∀ binding ∈ bindings, binding.IsWithin) ∧
      final.intervals? kind =
        some ((bindings.getLast?.map (·.result)).getD inherited) ∧
      final.isRestricted kind =
        (space.isRestricted kind || !bindings.isEmpty) := by
  induction layers generalizing space inherited with
  | nil =>
      obtain rfl : space = final := by simpa using restricted
      simp [Intervals.bindings, known]
  | cons layer outer ih =>
      rw [List.foldlM_cons, bind_eq_ok_iff] at restricted
      obtain ⟨next, first, rest⟩ := restricted
      have step := restrict_intervals first known
      cases declared : layer.restriction? kind with
      | none =>
          simp only [declared] at step
          have outerLayers := ih rest step.1
          simpa [declared, step.2] using outerLayers
      | some restriction =>
          simp only [declared] at step
          obtain ⟨within, left, flagged⟩ := step
          obtain ⟨outerWithin, final, restricted⟩ := ih rest left
          simp only [List.filterMap_cons, declared, Option.map_some,
            Intervals.bindings, List.forall_mem_cons]
          refine ⟨⟨within, outerWithin⟩, ?_, by simp [restricted, flagged]⟩
          rw [final, List.getLast?_cons, Option.map_some, Option.getD_some,
            ← Option.getD_map Intervals.Binding.result]
          rfl

theorem ofBuiltin_intervals {least greatest : Int}
    (fractionDigits : Option Nat)
    (limits : builtin.limits? kind = some (least, greatest)) :
    (ofBuiltin builtin fractionDigits).intervals? kind =
      some [⟨.int least, .int greatest⟩] := by
  cases kind with
  | range =>
      cases builtin <;>
        simp_all [BuiltinType.limits?, BuiltinType.integerLimits?, ofBuiltin,
          intervals?, BuiltinType.naturalRange?]
  | length =>
      simp only [BuiltinType.limits?] at limits
      split at limits
      · simp_all [ofBuiltin, intervals?, BuiltinType.naturalLength?]
      · simp at limits

end ValueSpace

/-- The effective type of a chain has its innermost value space narrowed by
every restriction of the chain. -/
theorem EffectiveType.ofLayers_intervals {builtin : BuiltinType}
    {layers : List TypeUse} {effective : EffectiveType} {kind : IntervalKind}
    {least greatest : Int} (merged : ofLayers builtin layers = .ok effective)
    (limits : builtin.limits? kind = some (least, greatest)) :
    let bindings := Intervals.bindings [⟨.int least, .int greatest⟩]
      (TypeUse.restrictions kind layers)
    (∀ binding ∈ bindings, binding.IsWithin) ∧
      effective.intervals? kind = bindings.getLast?.map (·.result) := by
  simp only [ofLayers, bind_eq_ok_iff, pure_eq_ok_iff] at merged
  obtain ⟨final, restricted, rfl⟩ := merged
  obtain ⟨within, last, flagged⟩ := ValueSpace.foldlM_restrict_intervals
    restricted (ValueSpace.ofBuiltin_intervals _ limits)
  refine ⟨within, ?_⟩
  rw [TypeUse.restrictions]
  generalize Intervals.bindings _ _ = bindings at last flagged ⊢
  cases kind <;>
    simp only [ValueSpace.intervals?, ValueSpace.isRestricted] at last flagged <;>
    cases bindings using List.reverseRecOn <;>
    simp_all [intervals?, ValueSpace.ofBuiltin]

namespace Scene

/-- The types from one that is written at a place down to the one that names the
built-in type. -/
inductive Layers (scene : Scene) :
    NodeRef → TypeUse → BuiltinType → List TypeUse → Prop
  | builtin {place : NodeRef} {use : TypeUse} {builtin : BuiltinType}
      (named : use.builtin = some builtin) :
      Layers scene place use builtin [use]
  | derived {place typedef : NodeRef} {use type : TypeUse}
      {builtin : BuiltinType} {layers : List TypeUse}
      (unknown : use.builtin = none)
      (found : scene.lexical place use.name .typedef = .ok typedef)
      (declared : scene.type? typedef = some type)
      (inner : Layers scene typedef type builtin layers) :
      Layers scene place use builtin (use :: layers)

/-- A type passes the check of its body or, if it is derived, that of its
typedef chain. -/
def Accepts (scene : Scene) (place : NodeRef) (use : TypeUse) : Prop :=
  match use.builtin with
  | some _ => ∃ statement, Draft.checkTypeBody statement use = .ok ()
  | none => ∃ derivation, scene.derive place use = .ok derivation

variable {scene : Scene} {place : NodeRef} {use : TypeUse}
  {builtin : BuiltinType} {layers : List TypeUse} {kind : IntervalKind}
  {least greatest : Int}

/-- The walk along typedefs collects the layers of the chain. -/
theorem chainEnd_layers {bound : Nat} {chain : List NodeRef}
    {met : List TypeUse} {found : ChainEnd}
    (reached : scene.chainEnd bound place chain met = .ok found)
    (declared : scene.type? place = some use)
    (inner : scene.Layers place use builtin layers) :
    found.builtin = builtin ∧ found.layers = met ++ layers := by
  induction bound generalizing place use layers chain met with
  | zero => simp [chainEnd] at reached
  | succ bound ih =>
      simp only [chainEnd, declared] at reached
      cases inner with
      | builtin named =>
          simp only [named] at reached
          obtain rfl := by simpa using reached
          exact ⟨rfl, rfl⟩
      | derived unknown found' declared' inner' =>
          simp only [unknown, found', bind_eq_ok_iff, Except.ok.injEq,
            exists_eq_left'] at reached
          split at reached
          · simp at reached
          · simpa using ih reached declared' inner'

/-- What a chain of typedefs is derived to restricts values as its layers do
one after the other. -/
theorem derive_layers {derivation : Derivation}
    (derived : scene.derive place use = .ok derivation)
    (unknown : use.builtin = none)
    (chain : scene.Layers place use builtin layers) :
    ∃ effective, EffectiveType.ofLayers builtin layers = .ok effective ∧
      ∀ kind, derivation.effective.intervals? kind =
        effective.intervals? kind := by
  cases chain with
  | builtin named => simp [named] at unknown
  | @derived _ typedef _ type _ layers _ found declared inner =>
      simp only [derive, found, bind_eq_ok_iff, Except.ok.injEq,
        exists_eq_left', pure_eq_ok_iff] at derived
      obtain ⟨ending, reached, effective, merged, _, _, rfl⟩ := derived
      obtain ⟨rfl, collected⟩ := chainEnd_layers reached declared inner
      rw [List.singleton_append] at collected
      refine ⟨effective, by rw [← collected]; exact merged, ?_⟩
      intro kind
      split <;> cases kind <;> rfl

theorem checkWithin_eq_ok {keyword : String} 
    {restriction : IntervalRestriction} {natural : Intervals}
    (checked : Draft.checkWithin keyword builtin (some restriction)
      (some natural) = .ok ()) :
    restriction.intervals.isWithin natural = true := by
  simp only [Draft.checkWithin] at checked
  split at checked
  · assumption
  · simp at checked

/-- The body of a type that names a built-in one lies within its limits. -/
theorem checkTypeBody_isWithin {statement : Statement}
    (checked : Draft.checkTypeBody statement use = .ok ())
    (named : use.builtin = some builtin)
    (limits : builtin.limits? kind = some (least, greatest)) :
    ∀ restriction ∈ use.restriction? kind,
      restriction.intervals.isWithin [⟨.int least, .int greatest⟩] := by
  have natural :=
    ValueSpace.ofBuiltin_intervals use.fractionDigits limits
  intro restriction declared
  obtain ⟨-, range, length⟩ := (Draft.checkTypeBody_eq_ok_iff named).mp
    checked
  cases kind with
  | range =>
      simp only [TypeUse.restriction?, Option.mem_def] at declared
      simp only [ValueSpace.intervals?, ValueSpace.ofBuiltin] at natural
      rw [declared, natural] at range
      exact checkWithin_eq_ok range
  | length =>
      simp only [TypeUse.restriction?, Option.mem_def] at declared
      simp only [ValueSpace.intervals?, ValueSpace.ofBuiltin] at natural
      rw [declared, natural] at length
      exact checkWithin_eq_ok length

theorem restrictions_isWithin (accepted : scene.Accepts place use)
    (chain : scene.Layers place use builtin layers)
    (limits : builtin.limits? kind = some (least, greatest)) :
    ∀ binding ∈ Intervals.bindings [⟨.int least, .int greatest⟩]
      (TypeUse.restrictions kind layers), binding.IsWithin := by
  unfold Accepts at accepted
  cases named : use.builtin with
  | some direct =>
      simp only [named] at accepted
      obtain ⟨statement, checked⟩ := accepted
      cases chain with
      | derived unknown => simp [named] at unknown
      | builtin known =>
          have within := checkTypeBody_isWithin checked known limits
          cases declared : use.restriction? kind with
          | none => simp [TypeUse.restrictions, declared, Intervals.bindings]
          | some restriction =>
              simpa [TypeUse.restrictions, declared, Intervals.bindings,
                Intervals.Binding.IsWithin] using within restriction declared
  | none =>
      simp only [named] at accepted
      obtain ⟨derivation, derived⟩ := accepted
      obtain ⟨effective, merged, _⟩ := derive_layers derived named chain
      exact (EffectiveType.ofLayers_intervals merged limits).1

/-- The restrictions of an accepted type, bound along its chain of typedefs, are
all regular exactly when each of them fits between the ends of the intervals
that it inherits.  What a derived type leaves is its last bound restriction. -/
theorem accepted_restrictions_isRegular_iff
    (accepted : scene.Accepts place use)
    (chain : scene.Layers place use builtin layers)
    (limits : builtin.limits? kind = some (least, greatest))
    (read : ∀ layer ∈ layers, layer.IsRead kind) :
    let bindings := Intervals.bindings [⟨.int least, .int greatest⟩]
      (TypeUse.restrictions kind layers)
    ((∀ binding ∈ bindings,
        Intervals.IsRegular least greatest binding.result) ↔
      ∀ binding ∈ bindings, binding.Fits) ∧
    ∀ derivation, use.builtin = none →
      scene.derive place use = .ok derivation →
      derivation.effective.intervals? kind =
        bindings.getLast?.map (·.result) := by
  have regular : Intervals.IsRegular least greatest
      [⟨.int least, .int greatest⟩] := by
    have ordered := BuiltinType.limits?_ordered limits
    exact ⟨[(least, greatest)], rfl, by simp, by simpa, by simp⟩
  have expressions : ∀ restriction ∈ TypeUse.restrictions kind layers,
      ∃ expression, Intervals.parse kind expression = .ok restriction := by
    intro restriction member
    simp only [TypeUse.restrictions, List.mem_filterMap, List.mem_reverse,
      Option.map_eq_some_iff] at member
    obtain ⟨layer, layerMember, declared, isDeclared, rfl⟩ := member
    exact read layer layerMember declared isDeclared
  constructor
  · exact Intervals.bindings_isRegular_iff regular expressions
      (restrictions_isWithin accepted chain limits)
  · intro derivation unknown derived
    obtain ⟨effective, merged, same⟩ := derive_layers derived unknown chain
    rw [same kind]
    exact (EffectiveType.ofLayers_intervals merged limits).2

/-- A typedef of `int8` with two intervals, and a leaf that narrows it. -/
theorem accepted_restrictions_isRegular_iff_narrowed :
    ∃ (scene : Scene) (place : NodeRef) (use : TypeUse)
      (layers : List TypeUse),
      use.builtin = none ∧ scene.Accepts place use ∧
      scene.Layers place use .int8 layers ∧
      (∀ layer ∈ layers, layer.IsRead .range) ∧
      TypeUse.restrictions .range layers =
        [[⟨.int (-5), .int 10⟩, ⟨.int 20, .max⟩], [⟨.min, .int 3⟩]] ∧
      ∀ binding ∈ Intervals.bindings [⟨.int (-128), .int 127⟩]
        (TypeUse.restrictions .range layers),
        Intervals.IsRegular (-128) 127 binding.result := by
  let restriction (intervals : Intervals) : IntervalRestriction :=
    ⟨intervals, .empty, .start, ⟨0, 0⟩⟩
  let inner : TypeUse :=
    { TypeUse.ofName ⟨none, "int8"⟩ .start ⟨0, 0⟩ with
      range := some (restriction [⟨.int (-5), .int 10⟩, ⟨.int 20, .max⟩]) }
  let use : TypeUse :=
    { TypeUse.ofName ⟨none, "t"⟩ .start ⟨0, 0⟩ with
      range := some (restriction [⟨.min, .int 3⟩]) }
  let tree := ((SchemaTree.empty 0).addRoot
    (.ofConstruct (.module .empty) "m" .start ⟨0, 0⟩)).addChild rootId
      (.ofConstruct (.typedef ⟨some inner, none, none⟩) "t" .start ⟨0, 0⟩)
  let scene := ofUnits [⟨tree, [], true, []⟩] .intraFile
  have accepted : scene.Accepts ⟨0, 0⟩ use := by
    have derived : (scene.derive ⟨0, 0⟩ use).isOk = true := by decide +kernel
    show ∃ derivation, scene.derive ⟨0, 0⟩ use = .ok derivation
    cases outcome : scene.derive ⟨0, 0⟩ use with
    | ok derivation => exact ⟨derivation, rfl⟩
    | error miss => simp [outcome, Except.isOk, Except.toBool] at derived
  have found : scene.lexical ⟨0, 0⟩ use.name .typedef = .ok ⟨0, 1⟩ := by
    decide +kernel
  have chain : scene.Layers ⟨0, 0⟩ use .int8 [use, inner] :=
    .derived rfl found rfl (.builtin rfl)
  have read : ∀ layer ∈ [use, inner], layer.IsRead .range := by
    simp only [List.forall_mem_cons, List.not_mem_nil, false_implies,
      implies_true, and_true]
    exact ⟨fun _ declared => ⟨"min..3", by cases declared; decide +kernel⟩,
      fun _ declared => ⟨"-5..10 | 20..max", by cases declared; decide +kernel⟩⟩
  have restrictions : TypeUse.restrictions .range [use, inner] =
      [[⟨.int (-5), .int 10⟩, ⟨.int 20, .max⟩], [⟨.min, .int 3⟩]] := rfl
  refine ⟨scene, ⟨0, 0⟩, use, [use, inner], rfl, accepted, chain, read,
    restrictions, ?_⟩
  apply (accepted_restrictions_isRegular_iff accepted chain rfl read).1.mpr
  rw [restrictions]
  simp only [Intervals.bindings, List.forall_mem_cons, List.not_mem_nil,
    false_implies, implies_true, and_true]
  exact ⟨⟨-128, 127, ⟨rfl, rfl⟩, by simp [Bound.IsInside],
      by simp [Bound.AreApart]⟩,
    ⟨-5, 127, ⟨rfl, rfl⟩, by simp [Bound.IsInside], by simp⟩⟩

/-- Nothing keeps the lower end of an interval below the upper one once the
symbol `min` is bound. -/
theorem compile_accepts_inverted_range :
    ((compile .standard [⟨.inline,
        "module m \x7b namespace \"urn:m\"; prefix m; " ++
          "leaf l \x7b type int8 \x7b range \"min..-129\"; \x7d \x7d \x7d"⟩]).toOption.map
      fun compilation => (compilation.isValid,
        (compilation.units.head?.bind (·.tree.type? 1)).map fun use =>
          (use.builtin, use.range.map
            (·.intervals.resolve [⟨.int (-128), .int 127⟩])))) =
      some (true, some (some .int8, some [⟨.int (-128), .int (-129)⟩])) ∧
    ¬ Intervals.IsRegular (-128) 127 [⟨.int (-128), .int (-129)⟩] := by
  refine ⟨by decide +kernel, ?_⟩
  rintro ⟨pairs, same, -, bounded, -⟩
  have member : (⟨.int (-128), .int (-129)⟩ : Interval) ∈
      Intervals.ofPairs pairs := by
    rw [← same]
    exact List.mem_singleton_self _
  obtain ⟨⟨first, last⟩, pairMember, equal⟩ := List.mem_map.mp member
  have := bounded _ pairMember
  simp only [Interval.mk.injEq, Bound.int.injEq] at equal
  omega

end Scene

end YangSchema
