import YangSchema.Linking.Findings
import YangSchema.Proofs.Linking.Asking
import YangSchema.Proofs.Linking.FirstMatch
import YangSchema.Proofs.Relations

/-!
# Names in another place

A scene can be laid out differently: its nodes stand in other places, maybe in other
units.  If each name that is written at a node still means the same definition, which
is now elsewhere, then the types are derived as before, and each reference that is
made by a name is bound to the definition in its new place.
-/

namespace YangSchema

/-- What a type says, wherever it is written. -/
@[ext]
structure TypeText where
  name : QualifiedName
  builtin : Option BuiltinType
  range : Option Intervals
  length : Option Intervals
  patterns : List String
  fractionDigits : Option Nat
  path : Option String
  base : Option QualifiedName

instance : DecidableEq TypeText := fun _ _ =>
  decidable_of_iff _ TypeText.ext_iff.symm

def TypeUse.text (use : TypeUse) : TypeText :=
  { name := use.name
    builtin := use.builtin
    range := use.range.map (·.intervals)
    length := use.length.map (·.intervals)
    patterns := use.patterns.map (·.regex)
    fractionDigits := use.fractionDigits
    path := use.path
    base := use.base }

/-- Types that say the same. -/
abbrev TypeUse.Matches (use use' : TypeUse) : Prop :=
  use'.text = use.text

theorem TypeUse.Matches.restrict {use use' : TypeUse} (same : use.Matches use')
    (builtin : BuiltinType) (space : ValueSpace) :
    space.restrict builtin use' = space.restrict builtin use := by
  have range : use'.range.map (·.intervals) = use.range.map (·.intervals) :=
    congrArg (·.range) same
  have length : use'.length.map (·.intervals) = use.length.map (·.intervals) :=
    congrArg (·.length) same
  have patterns : use'.patterns.map (·.regex) = use.patterns.map (·.regex) :=
    congrArg (·.patterns) same
  have none : use'.patterns.isEmpty = use.patterns.isEmpty := by
    simpa using congrArg List.isEmpty patterns
  have byRange (space : ValueSpace) : ValueSpace.restrictRange builtin use' space =
      ValueSpace.restrictRange builtin use space := by
    unfold ValueSpace.restrictRange
    cases known : use.range <;> cases known' : use'.range <;> simp_all
  have byLength (space : ValueSpace) :
      ValueSpace.restrictLength builtin use' space =
        ValueSpace.restrictLength builtin use space := by
    unfold ValueSpace.restrictLength
    cases known : use.length <;> cases known' : use'.length <;> simp_all
  simp only [ValueSpace.restrict, byRange, byLength, ValueSpace.restrictPatterns,
    none, patterns]

theorem EffectiveType.ofLayers_congr {layers layers' : List TypeUse}
    (same : List.Forall₂ TypeUse.Matches layers layers') (builtin : BuiltinType) :
    ofLayers builtin layers' = ofLayers builtin layers := by
  have reversed := List.rel_reverse same
  unfold ofLayers
  rw [← List.head?_reverse, ← List.head?_reverse]
  generalize layers.reverse = first at reversed ⊢
  generalize layers'.reverse = second at reversed ⊢
  have digits : second.head?.bind (·.fractionDigits) =
      first.head?.bind (·.fractionDigits) := by
    cases reversed with
    | nil => rfl
    | cons last _ => exact congrArg (·.fractionDigits) last
  have fold (space : ValueSpace) :
      second.foldlM (ValueSpace.restrict builtin) space =
        first.foldlM (ValueSpace.restrict builtin) space := by
    clear digits
    induction reversed generalizing space with
    | nil => rfl
    | cons last _ ih => simp only [List.foldlM_cons, last.restrict, ih]
  simp only [digits, fold]

namespace Scene

variable {before after : Scene} {place target : NodeRef} {kind : ConstructKind}

/-- The names that are written at some nodes mean the same definitions in another
scene, where these nodes stand elsewhere. -/
structure Relocates (before after : Scene) (move : NodeRef → NodeRef)
    (writes : NodeRef → ConstructKind → QualifiedName → Prop) : Prop where
  means : ∀ {place kind name target}, writes place kind name →
    before.means place kind name = .ok target →
      after.means (move place) kind name = .ok (move target)
  types : ∀ {place use}, before.typeAt? place = some use →
    ∃ use', after.typeAt? ⟨move place.node, place.member⟩ = some use' ∧
      use.Matches use'
  typeNames : ∀ {place use}, before.typeAt? place = some use →
    writes place.node .typedef use.name ∧
      ∀ base, use.base = some base → writes place.node .identity base
  injective : ∀ {first second}, (before.node? first).isSome = true →
    (before.node? second).isSome = true → move first = move second →
      first = second
  around : ∀ {place target}, (before.node? place).isSome = true →
    (before.node? target).isSome = true →
      move target ∈ after.ancestors (move place) →
        target ∈ before.ancestors place

namespace Relocates

variable {move : NodeRef → NodeRef}
  {writes : NodeRef → ConstructKind → QualifiedName → Prop}
  (relocates : Relocates before after move writes)
include relocates

theorem lexical {name : QualifiedName} (nested : kind = .grouping ∨ kind = .typedef)
    (written : writes place kind name)
    (found : before.lexical place name kind = .ok target) :
    after.lexical (move place) name kind = .ok (move target) := by
  have same := relocates.means written (by rw [Scene.means, if_pos nested, found])
  rwa [Scene.means, if_pos nested] at same

theorem topLevel {name : QualifiedName}
    (unnested : ¬ (kind = .grouping ∨ kind = .typedef))
    (written : writes place kind name)
    (found : before.topLevel place.source name kind = .ok target) :
    after.topLevel (move place).source name kind = .ok (move target) := by
  have same := relocates.means written (by rw [Scene.means, if_neg unnested, found])
  rwa [Scene.means, if_neg unnested] at same

/-- The ends of two chains, one of which stands elsewhere. -/
structure Ends (move : NodeRef → NodeRef) (ending ending' : ChainEnd) : Prop where
  typedef : ending'.typedef = move ending.typedef
  builtin : ending'.builtin = ending.builtin
  layers : List.Forall₂ TypeUse.Matches ending.layers ending'.layers

theorem chainEnd_of_bound {bound : Nat} {chain : List NodeRef}
    {layers layers' : List TypeUse} {ending : ChainEnd}
    (known : ∀ typedef ∈ chain, (before.node? typedef).isSome = true)
    (same : List.Forall₂ TypeUse.Matches layers layers')
    (reached : before.chainEnd bound place chain layers = .ok ending) :
    ∃ ending', after.chainEnd bound (move place) (chain.map move) layers' =
      .ok ending' ∧ Ends move ending ending' := by
  induction bound generalizing place chain layers layers' with
  | zero => simp [Scene.chainEnd] at reached
  | succ bound ih =>
      cases declared : before.type? place with
      | none => simp [Scene.chainEnd, declared] at reached
      | some use =>
          have slot : before.typeAt? ⟨place, none⟩ = some use := declared
          obtain ⟨use', declared', alike⟩ := relocates.types slot
          have declared' : after.type? (move place) = some use' := declared'
          have builtin : use'.builtin = use.builtin := congrArg (·.builtin) alike
          have name : use'.name = use.name := congrArg (·.name) alike
          have further : List.Forall₂ TypeUse.Matches (layers ++ [use])
              (layers' ++ [use']) := List.rel_append same (.cons alike .nil)
          unfold Scene.chainEnd at reached ⊢
          simp only [declared, declared', builtin, name] at reached ⊢
          cases ofBuiltin : use.builtin with
          | some builtin =>
              simp only [ofBuiltin] at reached
              obtain rfl := Except.ok.inj reached
              exact ⟨_, rfl, rfl, rfl, further⟩
          | none =>
              simp only [ofBuiltin] at reached
              obtain ⟨next, found, reached⟩ := bind_eq_ok_iff.mp reached
              have found' := relocates.lexical (.inr rfl)
                (relocates.typeNames slot).1 found
              obtain ⟨node, isNode, -⟩ := lexical_names found
              have isNode : (before.node? next).isSome = true := by simp [isNode]
              split at reached
              · simp at reached
              next fresh =>
                have fresh' : (chain.map move).contains (move next) = false := by
                  refine Bool.eq_false_iff.mpr fun again => fresh ?_
                  obtain ⟨other, listed, same⟩ :=
                    List.mem_map.mp (List.contains_iff_mem.mp again)
                  obtain rfl := relocates.injective (known other listed) isNode same
                  exact List.contains_iff_mem.mpr listed
                have known' : ∀ other ∈ chain ++ [next],
                    (before.node? other).isSome = true :=
                  List.forall_mem_append.mpr ⟨known,
                    List.forall_mem_singleton.mpr isNode⟩
                obtain ⟨ending', reached', ends⟩ := ih known' further reached
                refine ⟨ending', ?_, ends⟩
                rw [found']
                simpa only [bind, Except.bind, fresh', Bool.false_eq_true,
                  if_false, List.map_append, List.map_cons, List.map_nil]
                  using reached'

/-- Chains from a typedef, whatever room there is in the two scenes. -/
theorem chainEnd {layers layers' : List TypeUse} {ending : ChainEnd}
    (known : (before.node? place).isSome = true)
    (same : List.Forall₂ TypeUse.Matches layers layers')
    (reached : before.chainEnd (before.nodeCount + 1) place [place] layers =
      .ok ending) :
    ∃ ending', after.chainEnd (after.nodeCount + 1) (move place) [move place]
      layers' = .ok ending' ∧ Ends move ending ending' := by
  have early := chainEnd_add (@chain_endsWithin before place)
    after.nodeCount layers
  have late := chainEnd_add (@chain_endsWithin after (move place))
    before.nodeCount layers'
  rw [show after.nodeCount + 1 + before.nodeCount =
    before.nodeCount + 1 + after.nodeCount by omega] at late
  rw [← late]
  exact relocates.chainEnd_of_bound (List.forall_mem_singleton.mpr known) same
    (early.trans reached)

theorem baseIdentity {use use' : TypeUse} {builtin : BuiltinType}
    {identity : Option NodeRef} (base : use'.base = use.base)
    (written : ∀ name, use.base = some name → writes place .identity name)
    (based : before.baseIdentity place use builtin = .ok identity) :
    ∃ identity', after.baseIdentity (move place) use' builtin = .ok identity' := by
  unfold Scene.baseIdentity at based ⊢
  rw [base]
  split at based
  next name isBase =>
    obtain ⟨target, found, -⟩ := bind_eq_ok_iff.mp based
    have found' := relocates.topLevel (by simp) (written name isBase) found
    exact ⟨some (move target), by rw [found']; rfl⟩
  · exact ⟨none, rfl⟩

theorem derive {use use' : TypeUse} {derivation : Derivation}
    (written : writes place .typedef use.name) (alike : use.Matches use')
    (derived : before.derive place use = .ok derivation) :
    ∃ derivation', after.derive (move place) use' = .ok derivation' ∧
      derivation'.typedef = move derivation.typedef := by
  simp only [Scene.derive, bind_eq_ok_iff, pure_eq_ok_iff] at derived
  obtain ⟨first, found, ending, reached, effective, merged, identity, based, rfl⟩ :=
    derived
  have found' := relocates.lexical (.inr rfl) written found
  obtain ⟨node, isNode, -⟩ := lexical_names found
  obtain ⟨ending', reached', ends⟩ := relocates.chainEnd (by simp [isNode])
    (.cons alike .nil) reached
  have merged' := (EffectiveType.ofLayers_congr ends.layers ending.builtin).trans
    merged
  obtain ⟨last, isLast, declared, -⟩ := chainEnd_last reached
  have slot : before.typeAt? ⟨ending.typedef, none⟩ = some last := declared
  obtain ⟨last', isLast', -, -⟩ := chainEnd_last reached'
  have base : last'.base = last.base := by
    have same := rel_getElem? ends.layers (ending.layers.length - 1)
    rw [← List.getLast?_eq_getElem?, isLast, ends.layers.length_eq,
      ← List.getLast?_eq_getElem?, isLast'] at same
    cases same with
    | some alike => exact congrArg (·.base) alike
  have getLast (layers : List TypeUse) (other : TypeUse) {use : TypeUse}
      (isLast : layers.getLast? = some use) : layers.getLastD other = use := by
    rw [List.getLastD_eq_getLast?, isLast, Option.getD_some]
  rw [getLast _ _ isLast] at based
  obtain ⟨identity', based'⟩ := relocates.baseIdentity base
    (relocates.typeNames slot).2 based
  have name : use'.name = use.name := congrArg (·.name) alike
  unfold Scene.derive
  rw [name, found']
  simp only [bind, Except.bind, reached', ends.builtin, merged', ends.typedef,
    getLast _ _ isLast', based']
  exact ⟨_, rfl, rfl⟩

theorem grouping {name : QualifiedName}
    (known : (before.node? place).isSome = true)
    (written : writes place .grouping name)
    (found : before.grouping place name = .ok target) :
    after.grouping (move place) name = .ok (move target) := by
  obtain ⟨first, named, found⟩ := bind_eq_ok_iff.mp found
  have named' := relocates.lexical (.inl rfl) written named
  obtain ⟨node, isNode, -⟩ := lexical_names named
  split at found
  · simp at found
  next outside =>
    obtain rfl : first = target := by simpa using found
    have outside' : move first ∉ after.ancestors (move place) := fun around =>
      outside (relocates.around known (by simp [isNode]) around)
    unfold Scene.grouping
    rw [named']
    simp [bind, Except.bind, outside', pure, Except.pure]

end Relocates

end Scene

/-- A kind of reference, whatever node it is made for. -/
def ReferenceKind.unplaced : ReferenceKind → ReferenceKind
  | .derivedType slot => .derivedType ⟨rootId, slot.member⟩
  | .identityref slot => .identityref ⟨rootId, slot.member⟩
  | .leafref slot => .leafref ⟨rootId, slot.member⟩
  | .uses => .uses
  | .base => .base
  | .ifFeature index => .ifFeature index
  | .augment => .augment

/-- What a reference asks for, whatever has been found for it. -/
@[ext]
structure Ask where
  kind : ReferenceKind
  text : String
  consumer : NodeRef
  place : NodeRef

attribute [ext] NodeRef

instance : DecidableEq Ask := fun first second =>
  decidable_of_iff (first.kind = second.kind ∧ first.text = second.text ∧
      (first.consumer.source = second.consumer.source ∧
        first.consumer.node = second.consumer.node) ∧
      first.place.source = second.place.source ∧
        first.place.node = second.place.node)
    (by simp only [Ask.ext_iff, NodeRef.ext_iff])

def Reference.ask (item : Reference) (source : SourceId) : Ask :=
  { kind := item.kind.unplaced
    text := item.text
    consumer := ⟨source, item.consumer⟩
    place := ⟨source, item.place⟩ }

/-- The same, asked for by nodes that stand elsewhere. -/
def Ask.move (move : NodeRef → NodeRef) (ask : Ask) : Ask :=
  { ask with consumer := move ask.consumer, place := move ask.place }

namespace Scene

variable {before after : Scene} {target : NodeRef} {source source' : SourceId}
  {item item' : Reference} {move : NodeRef → NodeRef}
  {writes : NodeRef → ConstructKind → QualifiedName → Prop}

/-- The members of a union can be referred to at first. -/
theorem unionReferences_of_own (scene : Scene) (own : item.origin = none)
    (slot : TypeSlot) (typedef : NodeRef) :
    ∃ members, scene.unionReferences item slot typedef = .ok members := by
  unfold unionReferences expandedTypedefs
  rw [own]
  cases (scene.type? typedef).bind (·.members) <;> exact ⟨_, rfl⟩

namespace Relocates

theorem derivedOutcome (relocates : Relocates before after move writes)
    {slot slot' : TypeSlot} (own : item.origin = none) (own' : item'.origin = none)
    (place : move ⟨source, slot.node⟩ = ⟨source', slot'.node⟩)
    (member : slot'.member = slot.member) {outcome : Outcome}
    (found : before.derivedOutcome source item slot = .ok outcome) :
    ∃ derivation derivation',
      (∃ members, outcome = .derived derivation members) ∧
      (∃ members', after.derivedOutcome source' item' slot' =
        .ok (.derived derivation' members')) ∧
      derivation'.typedef = move derivation.typedef := by
  unfold Scene.derivedOutcome at found ⊢
  simp only [derivedUse_of_own _ own, derivedUse_of_own _ own', ← place, member]
    at found ⊢
  cases declared : before.typeAt? ⟨⟨source, slot.node⟩, slot.member⟩ with
  | none => simp [declared, throw, throwThe, MonadExceptOf.throw] at found
  | some use =>
      obtain ⟨use', declared', alike⟩ := relocates.types declared
      simp only [declared, bind_eq_ok_iff] at found
      obtain ⟨derivation, derived, found⟩ := found
      obtain ⟨derivation', derived', typedef⟩ := relocates.derive
        (relocates.typeNames declared).1 alike derived
      refine ⟨derivation, derivation', ?_, ?_, typedef⟩
      · split at found
        · obtain ⟨members, -, found⟩ := bind_eq_ok_iff.mp found
          exact ⟨members, (pure_eq_ok_iff.mp found).symm⟩
        · exact ⟨[], (pure_eq_ok_iff.mp found).symm⟩
      · simp only [declared', derived', bind, Except.bind]
        split
        · obtain ⟨members', made⟩ := unionReferences_of_own after own' slot' _
          exact ⟨members', by rw [made]; rfl⟩
        · exact ⟨[], rfl⟩

/-- A reference that is made by a name is resolved to what it has been resolved to,
in its new place. -/
theorem resolves (relocates : Relocates before after move writes)
    (own : item.IsOwnName) (own' : item'.origin = none)
    (same : item'.ask source' = (item.ask source).move move)
    (known : (before.node? ⟨source, item.consumer⟩).isSome = true)
    (written : ∀ kind name, Linking.soughtKind item.kind = some kind →
      QualifiedName.parse? item.text = some name →
        writes ⟨source, item.consumer⟩ kind name)
    (resolved : LinkUnit.stateOf item.kind .unresolved
      (before.outcome source item) = .resolved target) :
    LinkUnit.stateOf item'.kind .unresolved (after.outcome source' item') =
      .resolved (move target) := by
  have kinds : item'.kind.unplaced = item.kind.unplaced := congrArg (·.kind) same
  have text : item'.text = item.text := congrArg (·.text) same
  have place : ⟨source', item'.place⟩ = move ⟨source, item.place⟩ :=
    congrArg (·.place) same
  have parsed {name : QualifiedName} (isName : referenceName item = .ok name) :
      QualifiedName.parse? item.text = some name := by
    unfold referenceName at isName
    split at isName <;> simp_all
  have renamed : referenceName item' = referenceName item := by
    unfold referenceName
    rw [text]
  have at_consumer : referencePlace source item = ⟨source, item.consumer⟩ := by
    simp [referencePlace, own.own]
  have at_consumer' : referencePlace source' item' =
      move ⟨source, item.consumer⟩ := by
    simp only [referencePlace, own']
    exact congrArg (·.consumer) same
  have named := own.named
  obtain ⟨outcome, found, state⟩ : ∃ outcome,
      before.lookupReference source item = .ok outcome ∧
        LinkUnit.stateOf item.kind .unresolved outcome = .resolved target := by
    unfold Scene.outcome at resolved
    split at resolved
    next outcome found => exact ⟨outcome, found, resolved⟩
    next miss _ => cases miss <;> cases resolved
  suffices there : ∃ outcome', after.lookupReference source' item' = .ok outcome' ∧
      LinkUnit.stateOf item'.kind .unresolved outcome' =
        .resolved (move target) by
    obtain ⟨outcome', found', state'⟩ := there
    rwa [Scene.outcome, found']
  clear resolved
  unfold lookupReference at found ⊢
  simp only [at_consumer, at_consumer', renamed] at found ⊢
  -- Both references are of one kind.
  cases kind : item.kind <;> cases kind' : item'.kind <;>
    simp only [kind, kind', ReferenceKind.unplaced, reduceCtorEq] at kinds
  case uses.uses =>
    simp only [kind, bind_eq_ok_iff, pure_eq_ok_iff] at found
    obtain ⟨name, isName, first, found, rfl⟩ := found
    rw [kind] at state
    obtain rfl := ReferenceState.resolved.inj state
    have found' := relocates.grouping known
      (written .grouping name (by rw [kind]; rfl) (parsed isName)) found
    exact ⟨.target (move first), by
      simp only [isName, found', bind, Except.bind]; rfl, rfl⟩
  case derivedType.derivedType slot slot' =>
    simp only [kind] at found
    simp only [Reference.place, kind, kind'] at place
    obtain ⟨derivation, derivation', ⟨_, rfl⟩, ⟨_, found'⟩, typedef⟩ :=
      relocates.derivedOutcome own.own own' place.symm (by simpa using kinds) found
    rw [kind] at state
    obtain rfl := ReferenceState.resolved.inj state
    exact ⟨_, found', congrArg ReferenceState.resolved typedef⟩
  case base.base =>
    simp only [kind, bind_eq_ok_iff] at found
    obtain ⟨name, isName, first, found, ok⟩ := found
    split at ok
    · simp at ok
    next other =>
      obtain rfl := pure_eq_ok_iff.mp ok
      rw [kind] at state
      obtain rfl := ReferenceState.resolved.inj state
      have found' := relocates.topLevel (by simp)
        (written .identity name (by rw [kind]; rfl) (parsed isName)) found
      obtain ⟨node, isNode, -⟩ := topLevel_names found
      have other' : move first ≠ move ⟨source, item.consumer⟩ := fun same =>
        other (relocates.injective (by simp [isNode]) known same)
      exact ⟨.target (move first), by
        simp only [isName, found', bind, Except.bind, if_neg other']; rfl, rfl⟩
  case identityref.identityref | ifFeature.ifFeature =>
    simp only [kind, bind_eq_ok_iff, pure_eq_ok_iff] at found
    obtain ⟨name, isName, first, found, rfl⟩ := found
    rw [kind] at state
    obtain rfl := ReferenceState.resolved.inj state
    have found' := relocates.topLevel (by simp)
      (written _ name (by rw [kind]; rfl) (parsed isName)) found
    exact ⟨.target (move first), by
      simp only [isName, found', bind, Except.bind]; rfl, rfl⟩
  case leafref.leafref | augment.augment =>
    simp [kind, ReferenceKind.isName] at named

end Relocates

end Scene

end YangSchema
