import YangSchema.Linking.Settling
import YangSchema.Proofs.Except
import YangSchema.Proofs.Linking.Scenes
import YangSchema.Proofs.Schema.Gaps

/-!
# References that are never blocked

A reference is blocked when it leads into a unit that cannot be used.  If every
unit can be used and every bound import is bound to one of the units, then no
reference is blocked.
-/

namespace YangSchema

/-- All units can be used, and imports are bound to none but these. -/
structure Linking.AllUsable (units : List LinkUnit) : Prop where
  usable : ∀ unit ∈ units, unit.usable = true
  imports : ∀ unit ∈ units, ∀ header, unit.tree.header? = some header →
    ∀ declaration ∈ header.imports, ∀ source,
      declaration.resolved = some source → ∃ other ∈ units,
        other.source = source

namespace Scene

/-- A lookup that may fail in any way but for an unusable unit. -/
abbrev IsFree {α : Type} (lookup : Lookup α) : Prop :=
  Raises (· ≠ .blocked) lookup

variable {scene : Scene}

variable (usable : Linking.AllUsable scene.units)
include usable

theorem isUsable_of_mem {unit : LinkUnit} (member : unit ∈ scene.units) :
    scene.isUsable unit.source = true := by
  cases found : scene.unit? unit.source with
  | none => simpa using List.find?_eq_none.mp found unit member
  | some other =>
      simp [isUsable, found, usable.usable other (unit?_mem found).1]

theorem scopes_isFree (source : SourceId) (qualifier : Option String) :
    IsFree (scene.scopes source qualifier) := by
  unfold scopes
  split
  · simp
  next header known =>
    split
    · split <;> simp
    next name =>
      split
      · simp
      next imported bound =>
        obtain ⟨declaration, listed, resolved⟩ :=
          Option.bind_eq_some_iff.mp bound
        obtain ⟨tree, found, declared⟩ := Option.bind_eq_some_iff.mp known
        obtain ⟨unit, member, rfl, -⟩ := tree?_mem found
        obtain ⟨other, member, rfl⟩ := usable.imports unit member header
          declared declaration (List.mem_of_find?_eq_some listed) imported
          resolved
        simp [isUsable_of_mem usable member]

theorem searchFrom_isFree (kind : ConstructKind) (name : String)
    (sources : List SourceId) :
    IsFree (scene.searchFrom kind name false sources) := by
  induction sources with
  | nil => simp [searchFrom]
  | cons source rest ih =>
      unfold searchFrom
      split
      · exact ih
      next unit found =>
        rw [usable.usable unit (unit?_mem found).1]
        simp only [Bool.not_true, Bool.false_eq_true, if_false]
        split
        · simp
        · exact ih

theorem topLevel_isFree (source : SourceId) (name : QualifiedName)
    (kind : ConstructKind) : IsFree (scene.topLevel source name kind) := by
  simp [topLevel, scopes_isFree usable, searchFrom_isFree usable]

theorem lexical_isFree (place : NodeRef) (name : QualifiedName)
    (kind : ConstructKind) : IsFree (scene.lexical place name kind) := by
  unfold lexical
  refine raises_bind_iff.mpr ⟨scopes_isFree usable _ _, fun sources _ => ?_⟩
  dsimp only
  split
  · simp
  · exact searchFrom_isFree usable _ _ _

theorem grouping_isFree (place : NodeRef) (name : QualifiedName) :
    IsFree (scene.grouping place name) := by
  simp [grouping, lexical_isFree usable]

omit usable in
theorem narrow_isFree (keyword : String) (builtin : BuiltinType)
    (restriction : Intervals) (inherited : Option Intervals) :
    IsFree (ValueSpace.narrow keyword builtin restriction inherited) := by
  cases inherited <;> simp [ValueSpace.narrow]

omit usable in
theorem restrict_isFree (builtin : BuiltinType) (space : ValueSpace)
    (layer : TypeUse) : IsFree (space.restrict builtin layer) := by
  unfold ValueSpace.restrict ValueSpace.restrictRange ValueSpace.restrictLength
    ValueSpace.restrictPatterns
  cases layer.range <;> cases layer.length <;> simp [narrow_isFree]

omit usable in
theorem foldlM_isFree {α β : Type} {step : β → α → Lookup β}
    (free : ∀ state item, IsFree (step state item)) (items : List α)
    (state : β) : IsFree (items.foldlM step state) := by
  induction items generalizing state with
  | nil => simp
  | cons item rest ih => simp [free, ih]

omit usable in
theorem ofLayers_isFree (builtin : BuiltinType) (layers : List TypeUse) :
    IsFree (EffectiveType.ofLayers builtin layers) := by
  unfold EffectiveType.ofLayers
  refine raises_bind_iff.mpr
    ⟨foldlM_isFree (restrict_isFree builtin) _ _, fun space _ => ?_⟩
  simp

theorem chainEnd_isFree (bound : Nat) (current : NodeRef)
    (chain : List NodeRef) (layers : List TypeUse) :
    IsFree (scene.chainEnd bound current chain layers) := by
  induction bound generalizing current chain layers with
  | zero => simp [chainEnd]
  | succ bound ih =>
      unfold chainEnd
      split
      · simp
      · dsimp only
        split
        · simp
        · simp [lexical_isFree usable, ih]

theorem baseIdentity_isFree (typedef : NodeRef) (use : TypeUse)
    (builtin : BuiltinType) :
    IsFree (scene.baseIdentity typedef use builtin) := by
  unfold baseIdentity
  split <;> simp [topLevel_isFree usable]

theorem derive_isFree (place : NodeRef) (use : TypeUse) :
    IsFree (scene.derive place use) := by
  simp [derive, lexical_isFree usable, chainEnd_isFree usable,
    ofLayers_isFree, baseIdentity_isFree usable]

omit usable in
theorem unionReferences_isFree (item : Reference) (slot : TypeSlot)
    (typedef : NodeRef) :
    IsFree (scene.unionReferences item slot typedef) := by
  unfold unionReferences
  dsimp only
  split
  · simp
  · split <;> simp

theorem derivedOutcome_isFree (source : SourceId) (item : Reference)
    (slot : TypeSlot) : IsFree (scene.derivedOutcome source item slot) := by
  unfold derivedOutcome
  split
  split
  · simp
  · refine raises_bind_iff.mpr ⟨derive_isFree usable _ _, fun derivation _ => ?_⟩
    split <;> simp [unionReferences_isFree]

omit usable in
theorem follow_isFree (walk : Walk) (place : NodeRef)
    (steps : List QualifiedName) : IsFree (scene.follow walk place steps) := by
  induction steps generalizing place with
  | nil => simp [follow]
  | cons step steps ih =>
      unfold follow
      split
      · exact ih _
      · simp

theorem moduleRoot_isFree (source : SourceId) (qualifier : Option String) :
    IsFree (scene.moduleRoot source qualifier) := by
  unfold moduleRoot
  refine raises_bind_iff.mpr ⟨scopes_isFree usable _ _, fun sources _ => ?_⟩
  split <;> simp

omit usable in
theorem dataParent_isFree (path : String) (place : NodeRef)
    (uses : List NodeRef) : IsFree (scene.dataParent path place uses) := by
  induction uses generalizing place with
  | nil =>
      unfold dataParent
      split <;> simp
  | cons first rest ih =>
      unfold dataParent
      split
      case h_4 => exact ih first
      all_goals simp

omit usable in
theorem climb_isFree (path : String) (count : Nat) (place : NodeRef)
    (uses : List NodeRef) : IsFree (scene.climb path count place uses) := by
  induction count generalizing place uses with
  | zero => simp [climb]
  | succ count ih => simp [climb, dataParent_isFree, ih]

theorem leafref_isFree (place : NodeRef) (text : String)
    (uses : List NodeRef) : IsFree (scene.leafref place text uses) := by
  unfold leafref
  refine raises_bind_iff.mpr ⟨raises_mapError (by simp), fun path _ => ?_⟩
  dsimp only
  split
  · refine raises_bind_iff.mpr ⟨moduleRoot_isFree usable _ _, fun _ _ => ?_⟩
    refine raises_bind_iff.mpr ⟨follow_isFree _ _ _, fun target _ => ?_⟩
    split <;> simp
  · refine raises_bind_iff.mpr ⟨climb_isFree _ _ _ _, fun start _ => ?_⟩
    refine raises_bind_iff.mpr ⟨follow_isFree _ _ _, fun target _ => ?_⟩
    split <;> simp

theorem augmentStart_isFree (augment : NodeRef) (text : String)
    (path : SchemaNodeId) : IsFree (scene.augmentStart augment text path) := by
  unfold augmentStart
  split
  · exact moduleRoot_isFree usable _ _
  · split
    · split <;> simp
    · simp

theorem augmentTarget_isFree (augment : NodeRef) (text : String) :
    IsFree (scene.augmentTarget augment text) := by
  unfold augmentTarget
  refine raises_bind_iff.mpr ⟨raises_mapError (by simp), fun path _ => ?_⟩
  refine raises_bind_iff.mpr ⟨augmentStart_isFree usable _ _ _, fun _ _ => ?_⟩
  refine raises_bind_iff.mpr ⟨follow_isFree _ _ _, fun target _ => ?_⟩
  split <;> simp

omit usable in
theorem referenceName_isFree (item : Reference) :
    IsFree (referenceName item) := by
  unfold referenceName
  split <;> simp

theorem lookupReference_isFree (source : SourceId) (item : Reference) :
    IsFree (scene.lookupReference source item) := by
  unfold lookupReference
  dsimp only
  split
  · simp [referenceName_isFree, grouping_isFree usable]
  · exact derivedOutcome_isFree usable _ _ _
  · simp [referenceName_isFree, topLevel_isFree usable]
  · simp [referenceName_isFree, topLevel_isFree usable]
  · simp [referenceName_isFree, topLevel_isFree usable]
  · split <;> simp [leafref_isFree usable]
  · simp [augmentTarget_isFree usable]

/-- What has been found for a reference, and how. -/
inductive Found (scene : Scene) (source : SourceId) (item : Reference) :
    Outcome → Prop
  | uses {name : QualifiedName} {target : NodeRef} (kind : item.kind = .uses)
      (found : scene.grouping (referencePlace source item) name = .ok target) :
      Found scene source item (.target target)
  | derived {slot : TypeSlot} {place : NodeRef} {use : TypeUse}
      {derivation : Derivation} {members : List Reference}
      (kind : item.kind = .derivedType slot)
      (written : scene.derivedUse source item slot = (place, some use))
      (derived : scene.derive place use = .ok derivation)
      (made : members = [] ∨ ∃ typedef,
        derivation.effective.membersFrom = some typedef ∧
          scene.unionReferences item slot typedef = .ok members) :
      Found scene source item (.derived derivation members)
  | base {name : QualifiedName} {target : NodeRef} (kind : item.kind = .base)
      (found : scene.topLevel (referencePlace source item).source name
        .identity = .ok target)
      (other : target ≠ referencePlace source item) :
      Found scene source item (.target target)
  | identityref {slot : TypeSlot} {name : QualifiedName} {target : NodeRef}
      (kind : item.kind = .identityref slot)
      (found : scene.topLevel (referencePlace source item).source name
        .identity = .ok target) : Found scene source item (.target target)
  | ifFeature {index : Nat} {name : QualifiedName} {target : NodeRef}
      (kind : item.kind = .ifFeature index)
      (found : scene.topLevel (referencePlace source item).source name
        .feature = .ok target) : Found scene source item (.target target)
  | instantiated {slot : TypeSlot} {leaf target : NodeRef}
      {uses : List NodeRef} (kind : item.kind = .leafref slot)
      (origin : item.origin = some (.grouping leaf uses))
      (found : scene.leafref leaf item.text uses = .ok target) :
      Found scene source item (.target target)
  | leafref {slot : TypeSlot} {target : NodeRef}
      (kind : item.kind = .leafref slot)
      (found : scene.leafref ⟨source, slot.node⟩ item.text [] = .ok target) :
      Found scene source item (.target target)
  | augment {target : NodeRef} (kind : item.kind = .augment)
      (found : scene.augmentTarget (referencePlace source item) item.text =
        .ok target) : Found scene source item (.target target)

omit usable in
/-- A reference for a member of a union. -/
theorem memberReference?_eq_some {item reference : Reference} {slot : TypeSlot}
    {typedefs : List NodeRef} {union : NodeRef} {member : Nat} {use : TypeUse}
    (made : memberReference? item slot union typedefs member use =
      some reference) :
    reference.consumer = item.consumer ∧ reference.place = slot.node ∧
      reference.state = .unresolved ∧
      reference.origin = some (.unionMember union member typedefs) := by
  unfold memberReference? at made
  split at made
  · obtain rfl := Option.some.inj made
    exact ⟨rfl, rfl, rfl, rfl⟩
  · obtain ⟨path, -, rfl⟩ := Option.map_eq_some_iff.mp made
    exact ⟨rfl, rfl, rfl, rfl⟩
  · obtain ⟨base, -, rfl⟩ := Option.map_eq_some_iff.mp made
    exact ⟨rfl, rfl, rfl, rfl⟩
  · simp at made

omit usable in
theorem memberReferences_made {item reference : Reference} {slot : TypeSlot}
    {typedefs : List NodeRef} {bound : Nat} {union : NodeRef}
    (made : reference ∈ scene.memberReferences item slot typedefs bound union) :
    ∃ union member use,
      memberReference? item slot union typedefs member use = some reference := by
  induction bound generalizing union with
  | zero => simp [memberReferences] at made
  | succ bound ih =>
      unfold memberReferences at made
      split at made
      · obtain ⟨⟨use, member⟩, _, made⟩ := List.mem_flatMap.mp made
        dsimp only at made
        split at made
        · exact ih made
        · simp at made
        · exact ⟨union, member, use, by simpa using made⟩
      · simp at made

omit usable in
/-- The references for the members of a union have yet to be resolved, and they
are made on behalf of the consumer. -/
theorem unionReferences_made {item : Reference} {slot : TypeSlot}
    {typedef : NodeRef} {members : List Reference}
    (made : scene.unionReferences item slot typedef = .ok members) :
    ∀ member ∈ members, member.state = .unresolved ∧ member.origin.isSome := by
  unfold unionReferences at made
  dsimp only at made
  split at made
  · simp at made
  · split at made
    · obtain rfl : [] = members := by simpa using made
      simp
    · obtain rfl := Except.ok.inj made
      intro reference listed
      obtain ⟨union, member, use, made⟩ := memberReferences_made listed
      obtain ⟨-, -, state, origin⟩ := memberReference?_eq_some made
      exact ⟨state, by simp [origin]⟩

omit usable in
theorem lookupReference_found {source : SourceId} {item : Reference}
    {outcome : Outcome}
    (ok : scene.lookupReference source item = .ok outcome) :
    scene.Found source item outcome := by
  unfold lookupReference at ok
  dsimp only at ok
  split at ok
  case h_1 kind =>
    simp only [bind_eq_ok_iff, pure_eq_ok_iff] at ok
    obtain ⟨name, _, target, found, rfl⟩ := ok
    exact .uses kind found
  case h_2 slot kind =>
    unfold derivedOutcome at ok
    split at ok
    next place use? written =>
      split at ok
      · simp at ok
      next use =>
        obtain ⟨derivation, derived, ok⟩ := bind_eq_ok_iff.mp ok
        split at ok
        next _ _ typedef from' _ =>
          obtain ⟨members, made, ok⟩ := bind_eq_ok_iff.mp ok
          obtain rfl := pure_eq_ok_iff.mp ok
          exact .derived kind written derived (.inr ⟨typedef, from', made⟩)
        · obtain rfl := pure_eq_ok_iff.mp ok
          exact .derived kind written derived (.inl rfl)
  case h_3 kind =>
    simp only [bind_eq_ok_iff] at ok
    obtain ⟨name, _, target, found, ok⟩ := ok
    split at ok
    · simp at ok
    next other =>
      obtain rfl := pure_eq_ok_iff.mp ok
      exact .base kind found other
  case h_4 slot kind =>
    simp only [bind_eq_ok_iff, pure_eq_ok_iff] at ok
    obtain ⟨name, _, target, found, rfl⟩ := ok
    exact .identityref kind found
  case h_5 index kind =>
    simp only [bind_eq_ok_iff, pure_eq_ok_iff] at ok
    obtain ⟨name, _, target, found, rfl⟩ := ok
    exact .ifFeature kind found
  case h_6 slot kind =>
    split at ok
    all_goals
      simp only [bind_eq_ok_iff, pure_eq_ok_iff] at ok
      obtain ⟨target, found, rfl⟩ := ok
    next leaf uses origin => exact .instantiated kind origin found
    · exact .leafref kind found
  case h_7 kind =>
    simp only [bind_eq_ok_iff, pure_eq_ok_iff] at ok
    obtain ⟨target, found, rfl⟩ := ok
    exact .augment kind found

/-- Among units that can all be used, no reference is blocked. -/
theorem outcome_ne_blocked (source : SourceId) (item : Reference) :
    scene.outcome source item ≠ .blocked := by
  have free := lookupReference_isFree usable source item
  unfold outcome
  split
  next outcome found =>
    cases lookupReference_found found <;> simp
  next miss found =>
    have := free miss found
    cases miss <;> simp_all [Outcome.ofMiss]

end Scene

end YangSchema
