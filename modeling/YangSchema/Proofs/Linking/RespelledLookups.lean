import YangSchema.Proofs.Except
import YangSchema.Proofs.Linking.Anticipating
import YangSchema.Proofs.Linking.Respelling

/-!
# Types under another prefix

A type leads to the types of the members of its union and to that of the typedef
that it names.  If a prefix is written differently, it leads to the same types,
and amounts to the same but for the text of a leafref path.
-/

namespace YangSchema

namespace Scene

/-- The types that a type consists of or stands for. -/
inductive Involves (scene : Scene) : TypePlace → TypePlace → Prop
  | refl (place : TypePlace) : Involves scene place place
  | member {place last : TypePlace} {use : TypeUse} {nested : NodeId}
      (index : Nat) (declared : scene.typeAt? place = some use)
      (builtin : use.builtin = some .union) (inNode : use.members = some nested)
      (further :
        Involves scene ⟨⟨place.node.source, nested⟩, some index⟩ last) :
      Involves scene place last
  | typedef {place last : TypePlace} {use : TypeUse} {typedef : NodeRef}
      (declared : scene.typeAt? place = some use)
      (named : scene.lexical place.node use.name .typedef = .ok typedef)
      (further : Involves scene ⟨typedef, none⟩ last) :
      Involves scene place last

/-- A type is declared again, up to its links. -/
theorem typeAt?_later {before after : Scene} {place : TypePlace} {use : TypeUse}
    (agree : before.AgreeAt after place.node.source)
    (declared : before.typeAt? place = some use) :
    ∃ use', after.typeAt? place = some use' ∧ use'.unlinked = use.unlinked := by
  have same := agree.typeAt? place.member
  rw [show (before.construct? place.node).bind (·.typeAt? place.member) =
    some use from declared] at same
  exact Option.map_eq_some_iff.mp same

/-- Types lead to each other in a later scene, too, if what they name there is
what they have named. -/
theorem Involves.later {before after : Scene} {first last : TypePlace}
    (leads : before.Involves first last)
    (keeps : ∀ {place use}, before.typeAt? place = some use →
      before.AgreeAt after place.node.source ∧ ∀ {name target},
        before.lexical place.node name .typedef = .ok target →
          after.lexical place.node name .typedef = .ok target) :
    after.Involves first last := by
  induction leads with
  | refl place => exact .refl place
  | member index declared builtin inNode _ ih =>
      obtain ⟨use', declared', same⟩ :=
        typeAt?_later (keeps declared).1 declared
      have builtin' : use'.builtin = _ := congrArg (·.builtin) same
      have members' : use'.members = _ := congrArg (·.members) same
      exact .member index declared' (builtin'.trans builtin)
        (members'.trans inNode) ih
  | @typedef place _ use typedef declared named _ ih =>
      obtain ⟨use', declared', same⟩ :=
        typeAt?_later (keeps declared).1 declared
      have name : use'.name = use.name := congrArg (·.name) same
      exact .typedef declared' (name ▸ (keeps declared).2 named) ih

/-- Types keep leading to each other while linking goes on. -/
theorem Involves.anticipated {before after : Scene} {first last : TypePlace}
    (leads : before.Involves first last)
    (anticipates : before.Anticipates after fun _ => True) :
    after.Involves first last := by
  refine leads.later fun _ => ⟨anticipates.agree trivial, fun named => ?_⟩
  rw [anticipates.lexical trivial _ _ (by simp [named]), named]

theorem Involves.trans {scene : Scene} {first middle last : TypePlace}
    (leads : scene.Involves first middle)
    (further : scene.Involves middle last) :
    scene.Involves first last := by
  induction leads with
  | refl => exact further
  | member index declared builtin inNode _ ih =>
      exact .member index declared builtin inNode (ih further)
  | typedef declared named _ ih => exact .typedef declared named (ih further)

end Scene

/-- The leaf at the end of the named steps of a leafref path. -/
def Scene.leafAt (scene : Scene) (text : String) (root : NodeRef)
    (steps : List QualifiedName) : Lookup NodeRef := do
  let target ← scene.follow .data root steps
  match scene.kind? target with
  | some .leaf | some .leafList => return target
  | some kind => throw (.failed (.notALeaf text kind))
  | none => throw .notFound

namespace Respelling

variable {ρ : Respelling} {scene scene' : Scene}

/-- Lookups that find related things, or nothing for reasons that are spelled
alike. -/
inductive Finds (ρ : Respelling) {α : Type} (related : α → α → Prop) :
    Lookup α → Lookup α → Prop
  | found {item item' : α} (relates : related item item') :
      Finds ρ related (.ok item) (.ok item')
  | missed (miss : Miss) : Finds ρ related (.error miss) (.error miss)
  | failed {failure failure' : LinkFailure}
      (spells : ρ.Spells failure.message failure'.message) :
      Finds ρ related (.error (.failed failure)) (.error (.failed failure'))

theorem Finds.refl {α : Type} (lookup : Lookup α) :
    ρ.Finds Eq lookup lookup := by
  cases lookup with
  | ok item => exact .found rfl
  | error miss => exact .missed miss

theorem Finds.bind {α β : Type} {related : α → α → Prop}
    {related' : β → β → Prop} {first second : Lookup α}
    {next next' : α → Lookup β} (finds : ρ.Finds related first second)
    (further : ∀ {item item'}, first = .ok item → related item item' →
      ρ.Finds related' (next item) (next' item')) :
    ρ.Finds related' (first >>= next) (second >>= next') := by
  cases finds with
  | found relates => exact further rfl relates
  | missed miss => exact .missed miss
  | failed spells => exact .failed spells

theorem Finds.imp {α : Type} {related related' : α → α → Prop}
    {first second : Lookup α} (finds : ρ.Finds related first second)
    (imp : ∀ {item item'}, first = .ok item → related item item' →
      related' item item') : ρ.Finds related' first second := by
  cases finds with
  | found relates => exact .found (imp rfl relates)
  | missed miss => exact .missed miss
  | failed spells => exact .failed spells

theorem Types.builtin {source : SourceId} {use use' : TypeUse}
    (types : ρ.Types source use use') : use'.builtin = use.builtin := by
  rw [types.rest]

theorem Types.members {source : SourceId} {use use' : TypeUse}
    (types : ρ.Types source use use') : use'.members = use.members := by
  rw [types.rest]

/-- An absolute leafref path begins with the prefix, in either way of writing.
-/
def Begins (ρ : Respelling) (text : String) : Prop :=
  ∃ path, LeafrefPath.parse text = .ok path ∧ path.absolute = true ∧
    (Scene.firstQualifier path.steps = some ρ.former ∨
      Scene.firstQualifier path.steps = some ρ.latter)

/-- No type takes over an absolute path that begins with the prefix from another
unit, be it from the respelled unit or in it. -/
def KeptApart (ρ : Respelling) (scene : Scene) : Prop :=
  ∀ {place last : TypePlace} {use : TypeUse} {path : String},
    scene.Involves place last → scene.typeAt? last = some use →
    use.builtin = some .leafref → use.path = some path → ρ.Begins path →
    (last.node.source = ρ.source ↔ place.node.source = ρ.source)

/-- Types in some sources each. -/
abbrev Layers (ρ : Respelling) : List TypeUse → List TypeUse → Prop :=
  List.Forall₂ fun use use' => ∃ source, ρ.Types source use use'

theorem restrict_congr {source : SourceId} {use use' : TypeUse}
    (types : ρ.Types source use use') (builtin : BuiltinType)
    (space : ValueSpace) :
    space.restrict builtin use' = space.restrict builtin use := by
  rw [types.rest]
  rfl

theorem ofLayers_congr {layers layers' : List TypeUse}
    (same : ρ.Layers layers layers') (builtin : BuiltinType) :
    EffectiveType.ofLayers builtin layers' =
      EffectiveType.ofLayers builtin layers := by
  have digits : layers'.getLast?.bind (·.fractionDigits) =
      layers.getLast?.bind (·.fractionDigits) := by
    rw [List.getLast?_eq_getElem?, List.getLast?_eq_getElem?, same.length_eq]
    refine bind_eq_of_rel (rel_getElem? same _) fun ⟨_, types⟩ => ?_
    rw [types.rest]
  have fold (space : ValueSpace) :
      layers'.reverse.foldlM (ValueSpace.restrict builtin) space =
        layers.reverse.foldlM (ValueSpace.restrict builtin) space := by
    have reversed := List.rel_reverse same
    generalize layers.reverse = first at reversed ⊢
    generalize layers'.reverse = second at reversed ⊢
    induction reversed generalizing space with
    | nil => rfl
    | cons relates _ ih =>
        obtain ⟨_, types⟩ := relates
        simp only [List.foldlM_cons, restrict_congr types, ih]
  unfold EffectiveType.ofLayers
  simp only [digits, fold]

/-- The ends of two typedef chains, with the type at the end. -/
structure Ends (ρ : Respelling) (ending ending' : ChainEnd) : Prop where
  typedef : ending'.typedef = ending.typedef
  builtin : ending'.builtin = ending.builtin
  layers : ρ.Layers ending.layers ending'.layers
  last : ∃ use use', ending.layers.getLast? = some use ∧
    ending'.layers.getLast? = some use' ∧
    ρ.Types ending.typedef.source use use'

/-- A chain ends at a type that it leads to. -/
structure Reaches (scene : Scene) (first : NodeRef) (ending : ChainEnd) :
    Prop where
  leads : scene.Involves ⟨first, none⟩ ⟨ending.typedef, none⟩
  declared : ∃ use, scene.typeAt? ⟨ending.typedef, none⟩ = some use ∧
    use.builtin = some ending.builtin ∧ ending.layers.getLast? = some use

section

variable (scenes : ρ.Scenes scene scene')
include scenes

theorem chainEnd {bound : Nat} {current : NodeRef} {chain : List NodeRef}
    {layers layers' : List TypeUse} (same : ρ.Layers layers layers') :
    ρ.Finds (fun ending ending' => ρ.Ends ending ending' ∧
        Reaches scene current ending)
      (scene.chainEnd bound current chain layers)
      (scene'.chainEnd bound current chain layers') := by
  induction bound generalizing current chain layers layers' with
  | zero => exact .missed _
  | succ bound ih =>
      unfold Scene.chainEnd
      rcases rel_cases (scenes.type? current) with
        ⟨before, after⟩ | ⟨use, use', before, after, types⟩
      · simp only [before, after]
        exact .missed _
      · have further : ρ.Layers (layers ++ [use]) (layers' ++ [use']) :=
          List.rel_append same (.cons ⟨_, types⟩ .nil)
        simp only [before, after, types.builtin]
        cases builtin : use.builtin with
        | some builtin' =>
            refine .found ⟨⟨rfl, rfl, further, use, use', ?_, ?_, types⟩,
              .refl _, use, before, builtin, ?_⟩ <;> simp
        | none =>
            simp only [scenes.lexical types.name]
            refine (Finds.refl _).bind fun {next _} named same => ?_
            subst same
            by_cases again : chain.contains next
            · simp only [again, if_true, funext scenes.nameOf]
              exact .missed _
            · simp only [again, Bool.false_eq_true, if_false]
              refine (ih further).imp fun _ ⟨ends, reaches⟩ => ⟨ends, ?_⟩
              exact ⟨.typedef before named reaches.leads, reaches.declared⟩

theorem baseIdentity {typedef : NodeRef} {use use' : TypeUse}
    (types : ρ.Types typedef.source use use') (builtin : BuiltinType) :
    scene'.baseIdentity typedef use' builtin =
      scene.baseIdentity typedef use builtin := by
  unfold Scene.baseIdentity
  rcases rel_cases types.base with
    ⟨before, after⟩ | ⟨base, base', before, after, names, -⟩
  · rw [before, after]
  · rw [before, after]
    cases builtin <;> simp only [scenes.topLevel names]

/-- A path that a type carries is written in some unit.  If it begins with the
prefix, the types that lead to that type are on the same side. -/
def CarriesPath (ρ : Respelling) (leads : TypePlace → TypePlace → Prop)
    (place : TypePlace) (path path' : String) : Prop :=
  ∃ home, ρ.PathText home path path' ∧
    ∀ root, leads root place → ρ.Begins path →
      (home = ρ.source ↔ root.node.source = ρ.source)

/-- Derivations are the same but for the text of a leafref path. -/
structure Derivations (ρ : Respelling) (leads : TypePlace → TypePlace → Prop)
    (place : TypePlace) (derivation derivation' : Derivation) : Prop where
  rest : derivation' = { derivation with leafref := derivation'.leafref }
  leafref : Option.Rel (ρ.CarriesPath leads place) derivation.leafref
    derivation'.leafref
  members : ∀ typedef ∈ derivation.effective.membersFrom,
    leads place ⟨typedef, none⟩

omit scenes in
theorem Derivations.effective {leads : TypePlace → TypePlace → Prop}
    {place : TypePlace} {derivation derivation' : Derivation}
    (same : ρ.Derivations leads place derivation derivation') :
    derivation'.effective = derivation.effective := by
  rw [same.rest]

theorem derive {place : TypePlace} {use use' : TypeUse}
    (apart : ρ.KeptApart scene) (declared : scene.typeAt? place = some use)
    (types : ρ.Types place.node.source use use') :
    ρ.Finds (ρ.Derivations scene.Involves place) (scene.derive place.node use)
      (scene'.derive place.node use') := by
  unfold Scene.derive
  simp only [scenes.lexical types.name, scenes.nodeCount]
  refine (Finds.refl _).bind fun {first _} named same => ?_
  subst same
  refine (chainEnd scenes (.cons ⟨_, types⟩ .nil)).bind
    fun {ending ending'} _ ⟨ends, reaches⟩ => ?_
  rw [ends.typedef, ends.builtin, ofLayers_congr ends.layers]
  refine (Finds.refl _).bind fun {effective _} restricts same => ?_
  subst same
  obtain ⟨last, last', isLast, isLast', types'⟩ := ends.last
  have leads : scene.Involves place ⟨ending.typedef, none⟩ :=
    .typedef declared named reaches.leads
  obtain ⟨written, isWritten, ofBuiltin, isEnd⟩ := reaches.declared
  obtain rfl : last = written := Option.some.inj (isLast.symm.trans isEnd)
  have getLast (layers : List TypeUse) (other : TypeUse) {use : TypeUse}
      (isLast : layers.getLast? = some use) :
      layers.getLastD other = use := by
    rw [List.getLastD_eq_getLast?, isLast, Option.getD_some]
  rw [getLast _ _ isLast, getLast _ _ isLast', baseIdentity scenes types']
  refine (Finds.refl _).bind fun {identity _} _ same => ?_
  subst same
  refine .found ⟨rfl, ?_, ?_⟩
  · by_cases isLeafref : ending.builtin = .leafref
    · simp only [isLeafref, if_true]
      rcases rel_cases types'.path with
        ⟨before, after⟩ | ⟨path, path', before, after, paths⟩
      · rw [before, after]
        exact .none
      · rw [before, after]
        refine .some ⟨_, paths, fun root further begins => ?_⟩
        exact apart (further.trans leads) isWritten
          (ofBuiltin.trans (congrArg some isLeafref)) before begins
    · simp only [isLeafref, if_false]
      exact .none
  · intro typedef holds
    split at holds
    · cases holds
      exact leads
    · simp [(Scene.ofLayers_eq_ok restricts).2] at holds

end

/-! Walks read names without their prefixes.  Only the first step of an absolute
path means the import of its prefix, and it does so in the unit for which the
path is evaluated.  If that is not the unit in which the path is written, the
prefix may mean something else there. -/

/-- A name without the prefix stays as it is. -/
theorem Names.refl {source : SourceId} {name : QualifiedName}
    (former : name.qualifier ≠ some ρ.former)
    (latter : name.qualifier ≠ some ρ.latter) : ρ.Names source name name :=
  ⟨fun _ => ⟨latter, by rw [Respelling.name, if_neg former]⟩, fun _ => rfl⟩

theorem Reads.finds {α : Type} {related : α → α → Prop}
    {first second : Except PathError α} (reads : ρ.Reads related first second) :
    ρ.Finds related (first.mapError fun error => Miss.failed (.badPath error))
      (second.mapError fun error => Miss.failed (.badPath error)) := by
  cases reads with
  | path same => exact .found same
  | error spells => exact .failed spells

namespace Scenes

variable (scenes : ρ.Scenes scene scene')
include scenes

theorem usesAugments (uses : NodeRef) :
    scene'.usesAugments uses = scene.usesAugments uses := by
  unfold Scene.usesAugments
  rw [scenes.children]
  congr 1
  funext child
  rcases rel_cases (scenes.construct? child) with
    ⟨before, after⟩ | ⟨_, _, before, after, constructs⟩
  · rw [before, after]
  · rw [before, after]
    cases constructs <;> rfl

theorem collect (walk : Walk) (bound : Nat) (place : NodeRef)
    (overlay : List (NodeRef × NodeRef)) (expanding : List NodeRef) :
    scene'.collect walk bound place overlay expanding =
      scene.collect walk bound place overlay expanding := by
  induction bound generalizing place overlay expanding with
  | zero => rfl
  | succ bound ih =>
      unfold Scene.collect
      simp only [scenes.children, scenes.augments, scenes.usesAugments, ih]
      congr 2
      funext child
      rcases rel_cases (scenes.construct? child) with
        ⟨before, after⟩ | ⟨construct, _, before, after, constructs⟩
      · rw [before, after]
      · rw [before, after]
        cases constructs <;> rfl

theorem sharedRoots (place : NodeRef) :
    scene'.sharedRoots place = scene.sharedRoots place := by
  have headers : Option.Rel (ρ.Headers place.source)
      ((scene.tree? place.source).bind (·.header?))
      ((scene'.tree? place.source).bind (·.header?)) :=
    scenes.header? place.source
  unfold Scene.sharedRoots
  rcases rel_cases headers with
    ⟨before, after⟩ | ⟨header, header', before, after, headers⟩
  · rw [before, after]
  · rw [before, after]
    simp only [headers.includes, funext scenes.isUsable]

theorem stepChildren (walk : Walk) (place : NodeRef) :
    scene'.stepChildren walk place = scene.stepChildren walk place := by
  unfold Scene.stepChildren
  simp only [scenes.sharedRoots, scenes.walkBound, scenes.collect]

theorem childNamed? (walk : Walk) (place : NodeRef) (name : String) :
    scene'.childNamed? walk place name = scene.childNamed? walk place name := by
  unfold Scene.childNamed?
  rw [scenes.stepChildren]
  congr 1
  funext child
  rcases rel_cases (scenes.node? child) with
    ⟨before, after⟩ | ⟨_, _, before, after, nodes⟩
  · rw [before, after]
  · rw [before, after]
    simp only [nodes.name]

/-- Steps with the same names lead to the same node. -/
theorem follow {source : SourceId} {steps steps' : List QualifiedName}
    (names : List.Forall₂ (ρ.Names source) steps steps') (walk : Walk)
    (place : NodeRef) :
    scene'.follow walk place steps' = scene.follow walk place steps := by
  induction names generalizing place with
  | nil => rfl
  | cons first _ ih =>
      unfold Scene.follow
      simp only [first.name, scenes.childNamed?, ih]

theorem moduleRoot {source : SourceId} {name name' : QualifiedName}
    (names : ρ.Names source name name') :
    scene'.moduleRoot source name'.qualifier =
      scene.moduleRoot source name.qualifier := by
  unfold Scene.moduleRoot
  rw [scenes.scopes names]

/-- Where an absolute path starts that is written in one unit and evaluated for
another one. -/
theorem rootOfPath {home source : SourceId} {steps steps' : List QualifiedName}
    (names : List.Forall₂ (ρ.Names home) steps steps')
    (apart : Scene.firstQualifier steps = some ρ.former ∨
        Scene.firstQualifier steps = some ρ.latter →
      (home = ρ.source ↔ source = ρ.source)) :
    scene'.moduleRoot source (Scene.firstQualifier steps') =
      scene.moduleRoot source (Scene.firstQualifier steps) := by
  cases names with
  | nil => exact scenes.moduleRoot (@Names.refl ρ source ⟨none, ""⟩ nofun nofun)
  | @cons name name' _ _ names =>
      by_cases begins : name.qualifier = some ρ.former ∨
        name.qualifier = some ρ.latter
      · have same := apart begins
        exact scenes.moduleRoot ⟨fun here => names.inside (same.mpr here),
          fun other => names.outside (mt same.mp other)⟩
      · obtain ⟨former, latter⟩ := not_or.mp begins
        have kept : name' = name := by
          by_cases here : home = ρ.source
          · rw [(names.inside here).name, Respelling.name, if_neg former]
          · exact names.outside here
        subst kept
        exact scenes.moduleRoot (.refl former latter)

theorem contextLeaf (place : NodeRef) :
    scene'.contextLeaf place = scene.contextLeaf place := by
  unfold Scene.contextLeaf
  simp only [scenes.kind?, scenes.ancestors]

theorem stepOut (place : NodeRef) :
    scene'.stepOut place = scene.stepOut place := by
  have transparent : scene'.isTransparent = scene.isTransparent := by
    funext ref
    unfold Scene.isTransparent
    rw [scenes.kind?]
  unfold Scene.stepOut
  rw [scenes.ancestors, transparent]
  split
  · rfl
  next parent _ _ =>
    rcases rel_cases (scenes.construct? parent) with
      ⟨before, after⟩ | ⟨construct, _, before, after, constructs⟩
    · rw [before, after]
    · rw [before, after]
      cases constructs <;> rfl

variable {path path' : String} (spells : ρ.Spells path path')
include spells

theorem dataParent (place : NodeRef) (uses : List NodeRef) :
    ρ.Finds Eq (scene.dataParent path place uses)
      (scene'.dataParent path' place uses) := by
  have above : ρ.Spells (LinkFailure.aboveModule path).message
      (LinkFailure.aboveModule path').message :=
    spells.around "`" "` climbs above the module"
  have leaves : ρ.Spells (LinkFailure.leavesGrouping path).message
      (LinkFailure.leavesGrouping path').message :=
    spells.around "`" "` leaves the grouping it is defined in"
  induction uses generalizing place with
  | nil =>
      unfold Scene.dataParent
      rw [scenes.stepOut]
      cases scene.stepOut place with
      | aboveModule => exact .failed above
      | unbound => exact .missed _
      | into parent => exact .found rfl
      | grouping => exact .failed leaves
  | cons first rest ih =>
      unfold Scene.dataParent
      rw [scenes.stepOut]
      cases scene.stepOut place with
      | aboveModule => exact .failed above
      | unbound => exact .missed _
      | into parent => exact .found rfl
      | grouping => exact ih first

theorem climb (count : Nat) (place : NodeRef) (uses : List NodeRef) :
    ρ.Finds Eq (scene.climb path count place uses)
      (scene'.climb path' count place uses) := by
  induction count generalizing place uses with
  | zero => exact .found rfl
  | succ count ih =>
      refine (scenes.dataParent spells place uses).bind fun _ same => ?_
      subst same
      exact ih _ _

end Scenes

variable (scenes : ρ.Scenes scene scene')
include scenes

/-- The steps of a leafref path lead to the same leaf. -/
theorem leafAt {home : SourceId} {text text' : String}
    {steps steps' : List QualifiedName} (spells : ρ.Spells text text')
    (names : List.Forall₂ (ρ.Names home) steps steps') (root : NodeRef) :
    ρ.Finds Eq (scene.leafAt text root steps)
      (scene'.leafAt text' root steps') := by
  unfold Scene.leafAt
  rw [scenes.follow names]
  refine (Finds.refl _).bind fun {target _} _ same => ?_
  subst same
  rw [scenes.kind?]
  have notALeaf (kind : ConstructKind) :
      ρ.Spells (LinkFailure.notALeaf text kind).message
        (LinkFailure.notALeaf text' kind).message :=
    .append (.append (spells.around "`" "` points to a ")
      (.same kind.keyword)) (.same ", not a leaf or leaf-list")
  split
  · exact .found rfl
  · exact .found rfl
  · exact .failed (notALeaf _)
  · exact .missed _

/-- A leafref path means the same leaf as before, if its prefix stands for the
same import where it is evaluated. -/
theorem leafref {home : SourceId} {place : NodeRef} {text text' : String}
    (paths : ρ.PathText home text text') (uses : List NodeRef)
    (apart : ρ.Begins text →
      (home = ρ.source ↔ place.source = ρ.source)) :
    ρ.Finds Eq (scene.leafref place text uses)
      (scene'.leafref place text' uses) := by
  unfold Scene.leafref
  refine paths.parsed.finds.bind fun {path path'} read same => ?_
  obtain ⟨absolute, up, names⟩ := same
  have begins (isAbsolute : path.absolute = true)
      (first : Scene.firstQualifier path.steps = some ρ.former ∨
        Scene.firstQualifier path.steps = some ρ.latter) :=
    apart ⟨path, eq_ok_of_mapError read, isAbsolute, first⟩
  dsimp only
  rw [absolute, up, scenes.contextLeaf]
  split
  next isAbsolute =>
    rw [scenes.rootOfPath names (begins isAbsolute)]
    refine (Finds.refl _).bind fun {root _} _ same => ?_
    exact same ▸ leafAt scenes paths.spells names root
  · refine (scenes.climb paths.spells _ _ _).bind fun {root _} _ same => ?_
    exact same ▸ leafAt scenes paths.spells names root

theorem augmentStart {augment : NodeRef} {text text' : String}
    {path path' : SchemaNodeId} (spells : ρ.Spells text text')
    (absolute : path'.absolute = path.absolute)
    (names : List.Forall₂ (ρ.Names augment.source) path.steps path'.steps) :
    ρ.Finds Eq (scene.augmentStart augment text path)
      (scene'.augmentStart augment text' path') := by
  unfold Scene.augmentStart
  rw [absolute, scenes.ancestors]
  have outside : ρ.Spells (LinkFailure.descendantOutsideUses text).message
      (LinkFailure.descendantOutsideUses text').message :=
    spells.around "`" "` must be an absolute path outside `uses`"
  split
  · rw [scenes.rootOfPath names fun _ => Iff.rfl]
    exact .refl _
  · cases (scene.ancestors augment).head? with
    | none => exact .failed outside
    | some parent =>
        rw [Option.bind_some, Option.bind_some]
        rcases rel_cases (scenes.construct? parent) with
          ⟨before, after⟩ | ⟨construct, _, before, after, constructs⟩
        · rw [before, after]
          exact .failed outside
        · rw [before, after]
          cases constructs with
          | uses => exact .refl _
          | plain plain =>
              cases construct <;> first
                | exact .failed outside
                | simp [Construct.kind] at plain
          | _ => exact .failed outside

/-- The target path of an augment means the same node as before. -/
theorem augmentTarget {augment : NodeRef} {text text' : String}
    (paths : ρ.NodeIdText augment.source text text') :
    ρ.Finds Eq (scene.augmentTarget augment text)
      (scene'.augmentTarget augment text') := by
  unfold Scene.augmentTarget
  refine paths.parsed.finds.bind fun {path path'} _ same => ?_
  obtain ⟨absolute, names⟩ := same
  refine (augmentStart scenes paths.spells absolute names).bind
    fun {root _} _ same => ?_
  subst same
  rw [scenes.follow names]
  refine (Finds.refl _).bind fun {target _} _ same => ?_
  subst same
  rw [scenes.kind?]
  have cannot (kind : ConstructKind) :
      ρ.Spells (LinkFailure.cannotAugment text kind).message
        (LinkFailure.cannotAugment text' kind).message :=
    .append (.append (paths.spells.around "`" "` names a ")
      (.same kind.keyword)) (.same ", which cannot be augmented")
  split <;> first
    | exact .found rfl
    | exact .failed (cannot _)
    | exact .missed _

end Respelling

end YangSchema
