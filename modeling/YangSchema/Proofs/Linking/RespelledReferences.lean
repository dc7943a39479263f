import YangSchema.Proofs.Linking.RespelledLookups

/-!
# References under another prefix

A reference is evaluated for a unit in which its text need not be written: what
a typedef brings in is written where the typedef is.  If no absolute path comes
that way with the prefix into another unit, or into the respelled one,
references have the same outcomes as before.
-/

namespace YangSchema

/-- The unit for which a leafref path is evaluated. -/
def Reference.leafrefSource (item : Reference) (source : SourceId) : SourceId :=
  match item.origin with
  | some (.grouping leaf _) => leaf.source
  | _ => source

namespace Respelling

variable (ρ : Respelling)

inductive States : ReferenceState → ReferenceState → Prop
  | same (state : ReferenceState) : States state state
  | failed {failure failure' : LinkFailure}
      (spells : ρ.Spells failure.message failure'.message) :
      States (.failed failure) (.failed failure')

/-- The text of a reference in a unit, with another text in its place.  What a
typedef brings in is written in the unit of the typedef. -/
inductive ItemText (leads : TypePlace → TypePlace → Prop) (source : SourceId)
    (item : Reference) (text : String) : Prop
  | leafref {slot : TypeSlot} (home : SourceId)
      (kind : item.kind = .leafref slot)
      (path : ρ.PathText home item.text text)
      (apart : ρ.Begins item.text →
        (home = ρ.source ↔ item.leafrefSource source = ρ.source))
  | augment (kind : item.kind = .augment)
      (path : ρ.NodeIdText (Scene.referencePlace source item).source item.text
        text)
  | derived {slot : TypeSlot} {root : TypePlace}
      (kind : item.kind = .derivedType slot) (spells : ρ.Spells item.text text)
      (plain : item.origin = none →
        Text.afterLast ':' text.toList = Text.afterLast ':' item.text.toList)
      (own : root.node.source = source)
      (here : item.leafrefSource source = source)
      (leads : leads root (item.derivedPlace source slot))
  | name (kind : item.kind.isName = true)
      (direct : ∀ slot, item.kind ≠ .derivedType slot)
      (name : ρ.NameText (Scene.referencePlace source item).source item.text
        text)

/-- References are the same but for their texts, and for those of failures. -/
structure Items (leads : TypePlace → TypePlace → Prop) (source : SourceId)
    (item item' : Reference) : Prop where
  kind : item'.kind = item.kind
  consumer : item'.consumer = item.consumer
  position : item'.position = item.position
  span : item'.span = item.span
  origin : item'.origin = item.origin
  states : ρ.States item.state item'.state
  text : ρ.ItemText leads source item item'.text

variable {ρ} {scene scene' : Scene} (scenes : ρ.Scenes scene scene')
  (apart : ρ.KeptApart scene)

/-- The references that one member of a union makes. -/
theorem memberReference? {item item' : Reference} {source : SourceId}
    (slot : TypeSlot) {union : NodeRef} (typedefs : List NodeRef) {member : Nat}
    {use use' : TypeUse} {root : TypePlace} (apart : ρ.KeptApart scene)
    (consumer : item'.consumer = item.consumer)
    (position : item'.position = item.position)
    (span : item'.span = item.span)
    (declared : scene.typeAt? ⟨union, some member⟩ = some use)
    (types : ρ.Types union.source use use') (own : root.node.source = source)
    (leads : scene.Involves root ⟨union, some member⟩) :
    Option.Rel (ρ.Items scene.Involves source)
      (Scene.memberReference? item slot union typedefs member use)
      (Scene.memberReference? item' slot union typedefs member use') := by
  unfold Scene.memberReference?
  rw [types.builtin, consumer, position, span]
  cases builtin : use.builtin with
  | none =>
      refine .some ⟨rfl, rfl, rfl, rfl, rfl, .same _, ?_⟩
      exact .derived rfl types.name.spells (fun none => by cases none) own rfl
        leads
  | some builtin' =>
      cases builtin' with
      | leafref =>
          rcases rel_cases types.path with
            ⟨before, after⟩ | ⟨path, path', before, after, paths⟩
          · rw [before, after]
            exact .none
          · rw [before, after]
            refine .some ⟨rfl, rfl, rfl, rfl, rfl, .same _, ?_⟩
            refine .leafref union.source rfl paths fun begins => ?_
            rw [Reference.leafrefSource, ← own]
            exact apart leads declared builtin before begins
      | identityref =>
          refine rel_map types.base fun {base base'} ⟨_, names⟩ => ?_
          refine ⟨rfl, rfl, rfl, rfl, rfl, .same _, ?_⟩
          exact .name rfl (fun slot is => by cases is) names
      | _ => exact .none

include scenes in
/-- The references that the members of a union make. -/
theorem memberReferences {item item' : Reference} {source : SourceId}
    {slot : TypeSlot} {typedefs : List NodeRef} {root : TypePlace}
    (apart : ρ.KeptApart scene) (consumer : item'.consumer = item.consumer)
    (position : item'.position = item.position)
    (span : item'.span = item.span) (own : root.node.source = source)
    {bound : Nat} {union : NodeRef}
    (leads : ∀ index, scene.Involves root ⟨union, some index⟩) :
    List.Forall₂ (ρ.Items scene.Involves source)
      (scene.memberReferences item slot typedefs bound union)
      (scene'.memberReferences item' slot typedefs bound union) := by
  induction bound generalizing union with
  | zero => exact .nil
  | succ bound ih =>
      unfold Scene.memberReferences
      rcases rel_cases (scenes.construct? union) with
        ⟨before, after⟩ | ⟨construct, construct', before, after, constructs⟩
      · rw [before, after]
        exact .nil
      · rw [before, after]
        cases constructs with
        | union types =>
            refine List.rel_flatMap (rel_zipIdx types) ?_
            rintro ⟨use, member⟩ ⟨use', member'⟩ ⟨same, listed, types⟩
            obtain rfl : member' = member := same
            replace types : ρ.Types union.source use use' := types
            have declared : scene.typeAt? ⟨union, some member'⟩ = some use := by
              simpa [Scene.typeAt?, before, Construct.typeAt?] using listed
            have made := rel_toList (memberReference? slot typedefs apart
              consumer position span declared types own (leads member'))
            simp only [types.builtin, types.members]
            split
            next nested isUnion inNode =>
              exact ih fun index => (leads member').trans
                (.member index declared isUnion inNode (.refl _))
            · exact .nil
            · exact made
        | plain plain =>
            cases construct <;> first
              | exact .nil
              | simp [Construct.kind] at plain
        | _ => exact .nil

section

variable {item item' : Reference} {source : SourceId}

include scenes in
theorem Scenes.typeAt? (place : TypePlace) :
    Option.Rel (ρ.Types place.node.source) (scene.typeAt? place)
      (scene'.typeAt? place) :=
  rel_bind (scenes.construct? place.node) (·.typeAt? place.member)

theorem expandedTypedefs_congr (origin : item'.origin = item.origin) :
    Scene.expandedTypedefs item' = Scene.expandedTypedefs item := by
  unfold Scene.expandedTypedefs
  rw [origin]

theorem referencePlace_congr (source : SourceId)
    (consumer : item'.consumer = item.consumer)
    (origin : item'.origin = item.origin) :
    Scene.referencePlace source item' = Scene.referencePlace source item := by
  unfold Scene.referencePlace
  rw [origin, consumer]

/-- Outcomes are the same but for the texts of new references and of failures.
-/
inductive Outcomes (ρ : Respelling) (leads : TypePlace → TypePlace → Prop)
    (source : SourceId) (item : Reference) : Outcome → Outcome → Prop
  | same {outcome : Outcome} (plain : ∀ derivation members,
      outcome ≠ .derived derivation members) :
      Outcomes ρ leads source item outcome outcome
  | failed {failure failure' : LinkFailure}
      (spells : ρ.Spells failure.message failure'.message) :
      Outcomes ρ leads source item (.failed failure) (.failed failure')
  | derived {slot : TypeSlot} {derivation derivation' : Derivation}
      {members members' : List Reference} (kind : item.kind = .derivedType slot)
      (derivations : ρ.Derivations leads (item.derivedPlace source slot)
        derivation derivation')
      (items : List.Forall₂ (ρ.Items leads source) members members') :
      Outcomes ρ leads source item (.derived derivation members)
        (.derived derivation' members')

include scenes in
theorem unionReferences {slot : TypeSlot} {root : TypePlace}
    {typedef : NodeRef} (apart : ρ.KeptApart scene)
    (consumer : item'.consumer = item.consumer)
    (position : item'.position = item.position)
    (span : item'.span = item.span) (origin : item'.origin = item.origin)
    (own : root.node.source = source)
    (leads : scene.Involves root ⟨typedef, none⟩)
    (isUnion : ∀ use, scene.type? typedef = some use →
      use.builtin = some .union) :
    ρ.Finds (List.Forall₂ (ρ.Items scene.Involves source))
      (scene.unionReferences item slot typedef)
      (scene'.unionReferences item' slot typedef) := by
  unfold Scene.unionReferences
  simp only [expandedTypedefs_congr origin, scenes.nameOf, scenes.nodeCount]
  split
  · exact .missed _
  · rcases rel_cases (scenes.type? typedef) with
      ⟨before, after⟩ | ⟨use, use', before, after, types⟩
    · rw [before, after]
      exact .found .nil
    · rw [before, after]
      simp only [Option.bind_some, types.members]
      cases inNode : use.members with
      | none => exact .found .nil
      | some nested =>
          refine .found (memberReferences scenes apart consumer position span
            own fun index => ?_)
          exact leads.trans (.member index before (isUnion use before) inNode
            (.refl _))

theorem ItemText.root {leads : TypePlace → TypePlace → Prop} {text : String}
    {slot : TypeSlot}
    (texts : ρ.ItemText leads source item text)
    (kind : item.kind = .derivedType slot) : ∃ root : TypePlace,
      root.node.source = source ∧ item.leafrefSource source = source ∧
        leads root (item.derivedPlace source slot) := by
  cases texts with
  | leafref _ kind' => rw [kind] at kind'; cases kind'
  | augment kind' => rw [kind] at kind'; cases kind'
  | derived kind' _ _ own here leads =>
      rw [kind] at kind'
      cases kind'
      exact ⟨_, own, here, leads⟩
  | name _ direct => exact absurd kind (direct slot)

include scenes in
theorem derivedOutcome {slot : TypeSlot} (apart : ρ.KeptApart scene)
    (items : ρ.Items scene.Involves source item item')
    (kind : item.kind = .derivedType slot) :
    ρ.Finds (ρ.Outcomes scene.Involves source item)
      (scene.derivedOutcome source item slot)
      (scene'.derivedOutcome source item' slot) := by
  have place :
      item'.derivedPlace source slot = item.derivedPlace source slot := by
    unfold Reference.derivedPlace
    rw [items.origin]
  unfold Scene.derivedOutcome
  rw [Scene.derivedUse_eq, Scene.derivedUse_eq, place]
  dsimp only
  rcases rel_cases (scenes.typeAt? (item.derivedPlace source slot)) with
    ⟨before, after⟩ | ⟨use, use', before, after, types⟩
  · rw [before, after]
    exact .missed _
  · rw [before, after]
    refine (derive scenes apart before types).bind
      fun {derivation derivation'} derives derivations => ?_
    simp only [derivations.effective]
    split
    next typedef holds isUnion =>
      obtain ⟨root, own, -, leads⟩ := items.text.root kind
      obtain ⟨ending, along⟩ := Scene.derive_eq_ok derives
      obtain ⟨last, -, declared, builtin⟩ :=
        Scene.chainEnd_last along.reached
      have isEnd : ending.typedef = typedef := by
        refine Option.some.inj (Eq.trans ?_ holds)
        rw [along.membersFrom, ← along.builtin, isUnion]
        rfl
      subst isEnd
      refine (unionReferences scenes apart items.consumer items.position
        items.span items.origin own
        (leads.trans (derivations.members _ holds)) ?_).bind
          fun _ members => .found (.derived kind derivations members)
      intro other isType
      obtain rfl := Option.some.inj (declared.symm.trans isType)
      rw [builtin, ← along.builtin, isUnion]
    next other =>
      exact .found (.derived kind derivations .nil)

theorem ItemText.pathText {leads : TypePlace → TypePlace → Prop}
    {text : String} {slot : TypeSlot}
    (texts : ρ.ItemText leads source item text)
    (kind : item.kind = .leafref slot) : ∃ home,
      ρ.PathText home item.text text ∧ (ρ.Begins item.text →
        (home = ρ.source ↔ item.leafrefSource source = ρ.source)) := by
  cases texts with
  | leafref home _ paths apart => exact ⟨home, paths, apart⟩
  | augment kind' => rw [kind] at kind'; cases kind'
  | derived kind' => rw [kind] at kind'; cases kind'
  | name isName => rw [kind] at isName; cases isName

theorem ItemText.nodeIdText {leads : TypePlace → TypePlace → Prop}
    {text : String}
    (texts : ρ.ItemText leads source item text) (kind : item.kind = .augment) :
    ρ.NodeIdText (Scene.referencePlace source item).source item.text text := by
  cases texts with
  | leafref _ kind' => rw [kind] at kind'; cases kind'
  | augment _ paths => exact paths
  | derived kind' => rw [kind] at kind'; cases kind'
  | name isName => rw [kind] at isName; cases isName

theorem ItemText.spells {leads : TypePlace → TypePlace → Prop} {text : String}
    (texts : ρ.ItemText leads source item text) : ρ.Spells item.text text := by
  cases texts with
  | leafref _ _ paths => exact paths.spells
  | augment _ paths => exact paths.spells
  | derived _ spells => exact spells
  | name _ _ names => exact names.spells

/-- A name is read in the unit in which it is written. -/
theorem ItemText.nameText {leads : TypePlace → TypePlace → Prop}
    {text : String}
    (texts : ρ.ItemText leads source item text)
    (kind : item.kind.isName = true)
    (direct : ∀ slot, item.kind ≠ .derivedType slot) :
    ρ.NameText (Scene.referencePlace source item).source item.text text := by
  cases texts with
  | leafref _ kind' => rw [kind'] at kind; cases kind
  | augment kind' => rw [kind'] at kind; cases kind
  | derived kind' => exact absurd kind' (direct _)
  | name _ _ names => exact names

theorem NameText.finds {home : SourceId}
    (names : ρ.NameText home item.text item'.text) :
    ρ.Finds (ρ.Names home) (Scene.referenceName item)
      (Scene.referenceName item') := by
  unfold Scene.referenceName
  rcases rel_cases names.parsed with
    ⟨before, after⟩ | ⟨name, name', before, after, same⟩
  · rw [before, after]
    exact .failed (names.spells.around "`" "` is not a valid name")
  · rw [before, after]
    exact .found same

/-- A target that is found in the same way is the same outcome. -/
theorem Finds.target {first second : Lookup NodeRef}
    (finds : ρ.Finds Eq first second) :
    ρ.Finds (ρ.Outcomes scene.Involves source item)
      (do return .target (← first)) (do return .target (← second)) := by
  refine finds.bind fun {target _} _ same => ?_
  subst same
  exact .found (.same fun _ _ is => by cases is)

include scenes in
/-- A reference has the same outcome as before. -/
theorem lookupReference (apart : ρ.KeptApart scene)
    (items : ρ.Items scene.Involves source item item') :
    ρ.Finds (ρ.Outcomes scene.Involves source item)
      (scene.lookupReference source item)
      (scene'.lookupReference source item') := by
  have place := referencePlace_congr source items.consumer items.origin
  unfold Scene.lookupReference
  rw [items.kind, items.origin, place]
  cases kind : item.kind with
  | uses =>
      have names := items.text.nameText (by rw [kind]; rfl) (by simp [kind])
      refine names.finds.bind fun {name name'} _ same => ?_
      refine Finds.target ?_
      rw [scenes.grouping same]
      exact .refl _
  | derivedType slot => exact derivedOutcome scenes apart items kind
  | base =>
      have names := items.text.nameText (by rw [kind]; rfl) (by simp [kind])
      refine names.finds.bind fun {name name'} _ same => ?_
      rw [scenes.topLevel same]
      refine (Finds.refl _).bind fun {target _} _ same => ?_
      subst same
      dsimp only
      split
      · exact .failed (names.spells.around "identity `"
          "` is derived from itself")
      · exact .found (.same fun _ _ is => by cases is)
  | identityref slot =>
      have names := items.text.nameText (by rw [kind]; rfl) (by simp [kind])
      refine names.finds.bind fun {name name'} _ same => ?_
      refine Finds.target ?_
      rw [scenes.topLevel same]
      exact .refl _
  | ifFeature index =>
      have names := items.text.nameText (by rw [kind]; rfl) (by simp [kind])
      refine names.finds.bind fun {name name'} _ same => ?_
      refine Finds.target ?_
      rw [scenes.topLevel same]
      exact .refl _
  | leafref slot =>
      obtain ⟨home, paths, apart⟩ := items.text.pathText kind
      dsimp only
      split
      next leaf uses origin =>
        rw [Reference.leafrefSource, origin] at apart
        exact (leafref scenes paths uses apart).target
      next other =>
        have here : item.leafrefSource source = source := by
          unfold Reference.leafrefSource
          split
          next leaf uses origin => exact absurd origin (other leaf uses)
          · rfl
        rw [here] at apart
        exact (@leafref _ _ _ scenes _ ⟨source, slot.node⟩ _ _ paths []
          apart).target
  | augment =>
      exact (augmentTarget scenes (items.text.nodeIdText kind)).target

include scenes in
theorem outcome (apart : ρ.KeptApart scene)
    (items : ρ.Items scene.Involves source item item') :
    ρ.Outcomes scene.Involves source item (scene.outcome source item)
      (scene'.outcome source item') := by
  have finds := lookupReference scenes apart items
  unfold Scene.outcome
  generalize scene.lookupReference source item = first at finds ⊢
  generalize scene'.lookupReference source item' = second at finds ⊢
  cases finds with
  | found outcomes => exact outcomes
  | missed miss =>
      refine .same fun _ _ is => ?_
      cases miss <;> cases is
  | failed spells => exact .failed spells

end

theorem Trees.toList {tree tree' : SchemaTree} (trees : ρ.Trees tree tree') :
    List.Forall₂ (ρ.Nodes tree.source) tree.nodes.toList
      tree'.nodes.toList := by
  refine forall₂_of_getElem? fun id => ?_
  simpa [SchemaTree.node?] using trees.nodes id

theorem Nodes.typeCount {source : SourceId} {node node' : SchemaNode}
    (nodes : ρ.Nodes source node node') :
    Linking.typeCount node' = Linking.typeCount node := by
  have constructs := nodes.construct
  unfold Linking.typeCount
  generalize node.construct = construct at constructs ⊢
  generalize node'.construct = construct' at constructs ⊢
  cases constructs with
  | union types => exact congrArg (· + 1) types.length_eq.symm
  | _ => rfl

theorem typeTotal_congr {units units' : List LinkUnit}
    (same : List.Forall₂ ρ.Units units units') :
    Linking.typeTotal units' = Linking.typeTotal units := by
  have counts (units : List LinkUnit) : Linking.typeTotal units =
      (units.map fun unit =>
        (unit.tree.nodes.toList.map Linking.typeCount).sum).sum := by
    unfold Linking.typeTotal
    rw [foldl_add_eq]
    induction units with
    | nil => rfl
    | cons unit rest ih => simp_all
  rw [counts, counts]
  exact congrArg List.sum (map_eq_of_forall₂ same fun units =>
    congrArg List.sum (map_eq_of_forall₂ units.trees.toList Nodes.typeCount))

/-! The relative leafrefs of a grouping are evaluated again where the grouping
is used. -/

/-- The text of a path that is evaluated for a unit. -/
def FitsPath (ρ : Respelling) (source : SourceId) (path path' : String) :
    Prop :=
  ∃ home, ρ.PathText home path path' ∧
    (ρ.Begins path → (home = ρ.source ↔ source = ρ.source))

/-- A type with the place where it is written, to which another type leads. -/
structure Entries (ρ : Respelling) (scene : Scene) (root : TypePlace)
    (entry entry' : NodeRef × TypeUse) : Prop where
  place : entry'.1 = entry.1
  types : ρ.Types entry.1.source entry.2 entry'.2
  written : ∃ member, scene.typeAt? ⟨entry.1, member⟩ = some entry.2 ∧
    scene.Involves root ⟨entry.1, member⟩

/-- The members of a union, as entries of a list of types to be looked at. -/
theorem memberEntries {root : TypePlace} {union : NodeRef}
    {members members' : List TypeUse}
    (isUnion : scene.construct? union = some (.union members))
    (types : List.Forall₂ (ρ.Types union.source) members members')
    (leads : ∀ index, scene.Involves root ⟨union, some index⟩) :
    List.Forall₂ (ρ.Entries scene root)
      (members.map fun member => (union, member))
      (members'.map fun member => (union, member)) := by
  refine forall₂_of_getElem? fun index => ?_
  rw [List.getElem?_map, List.getElem?_map]
  have listed : scene.typeAt? ⟨union, some index⟩ = members[index]? := by
    simp [Scene.typeAt?, isUnion, Construct.typeAt?]
  rcases rel_cases (rel_getElem? types index) with
    ⟨before, after⟩ | ⟨use, use', before, after, same⟩
  · rw [before, after]
    exact .none
  · rw [before, after]
    exact .some ⟨rfl, same, some index, listed.trans before, leads index⟩

variable (scenes : ρ.Scenes scene scene') (apart : ρ.KeptApart scene)
include scenes apart

/-- A type carries paths that fit the unit of a type that leads to it. -/
theorem leafrefPaths {root : TypePlace} (bound : Nat)
    {entries entries' : List (NodeRef × TypeUse)} (typedefs : List NodeRef)
    (same : List.Forall₂ (ρ.Entries scene root) entries entries') :
    List.Forall₂ (ρ.FitsPath root.node.source)
      (Linking.leafrefPaths scene bound entries typedefs)
      (Linking.leafrefPaths scene' bound entries' typedefs) := by
  induction bound generalizing entries entries' typedefs with
  | zero => exact .nil
  | succ bound ih =>
      cases same with
      | nil => exact .nil
      | @cons entry entry' rest rest' first others =>
          obtain ⟨place, use⟩ := entry
          obtain ⟨place', use'⟩ := entry'
          obtain ⟨rfl, types, member, declared, leads⟩ := first
          dsimp only at types declared leads
          unfold Linking.leafrefPaths
          simp only [types.builtin, types.members]
          split
          next isLeafref =>
            refine List.rel_append ?_ (ih typedefs others)
            rcases rel_cases types.path with
              ⟨before, after⟩ | ⟨path, path', before, after, paths⟩
            · rw [before, after]
              exact .nil
            · rw [before, after]
              exact .cons ⟨_, paths, apart leads declared isLeafref before⟩ .nil
          next isUnion =>
            cases inNode : use.members with
            | none => exact ih typedefs others
            | some nested =>
                simp only [Option.map_some, Option.bind_some]
                rcases rel_cases (scenes.construct? ⟨place'.source, nested⟩)
                  with ⟨before, after⟩ | ⟨construct, _, before, after, same⟩
                · rw [before, after]
                  exact ih typedefs others
                · rw [before, after]
                  cases same with
                  | union types =>
                      refine ih typedefs (List.rel_append ?_ others)
                      exact memberEntries before types fun index => leads.trans
                        (.member index declared isUnion inNode (.refl _))
                  | plain plain =>
                      cases construct <;> first
                        | exact ih typedefs others
                        | simp [Construct.kind] at plain
                  | _ => exact ih typedefs others
          next => exact ih typedefs others
          next isDerived =>
            have finds := derive scenes apart declared types
            generalize derived : scene.derive place' use = first at finds ⊢
            generalize scene'.derive place' use' = second at finds ⊢
            cases finds with
            | missed miss => exact ih typedefs others
            | failed spells => exact ih typedefs others
            | @found derivation derivation' same =>
                have members := same.members
                simp only [same.effective]
                refine List.rel_append ?_ ?_
                · rcases rel_cases same.leafref with
                    ⟨before, after⟩ |
                      ⟨path, path', before, after, home, paths, fits⟩
                  · rw [before, after]
                    exact .nil
                  · rw [before, after]
                    exact .cons ⟨home, paths, fits root leads⟩ .nil
                · cases membersFrom : derivation.effective.membersFrom with
                  | none => exact ih typedefs others
                  | some typedef =>
                      rw [membersFrom] at members
                      dsimp only
                      by_cases again : typedefs.contains typedef = true
                      · simp only [again, if_true]
                        exact ih typedefs others
                      · simp only [again]
                        rcases rel_cases (scenes.type? typedef) with
                          ⟨before, after⟩ | ⟨_, _, before, after, types⟩
                        · rw [before, after]
                          exact ih typedefs others
                        · rw [before, after]
                          refine ih _ (.cons ⟨rfl, types, none, before, ?_⟩
                            others)
                          exact leads.trans (members typedef rfl)

/-- The relative paths that the type of a leaf can carry. -/
theorem relativePaths (leaf : NodeRef) :
    List.Forall₂ (ρ.FitsPath leaf.source) (Linking.relativePaths scene leaf)
      (Linking.relativePaths scene' leaf) := by
  unfold Linking.relativePaths
  rcases rel_cases (scenes.type? leaf) with
    ⟨before, after⟩ | ⟨use, use', before, after, types⟩
  · rw [before, after]
    exact .nil
  · rw [before, after]
    have bound : Linking.pathBound scene' = Linking.pathBound scene := by
      unfold Linking.pathBound
      rw [typeTotal_congr scenes.units]
    dsimp only
    rw [bound]
    refine List.rel_filter (fun {path path'} same => ?_)
      (@leafrefPaths _ _ _ scenes apart ⟨leaf, none⟩ _ _ _ []
        (.cons ⟨rfl, types, none, before, .refl _⟩ .nil))
    obtain ⟨_, paths, -⟩ := same
    dsimp only
    rw [paths.absolute]

/-- The leafrefs of a grouping with their paths. -/
structure LeafrefsOfGrouping (ρ : Respelling)
    (leafref leafref' : Linking.GroupingLeafref) : Prop where
  leaf : leafref'.leaf = leafref.leaf
  uses : leafref'.uses = leafref.uses
  path : ρ.FitsPath leafref.leaf.source leafref.path leafref'.path

theorem leafrefsBelow (bound : Nat) (place : NodeRef)
    (chain expanding : List NodeRef) :
    List.Forall₂ ρ.LeafrefsOfGrouping
      (Linking.leafrefsBelow scene bound place chain expanding)
      (Linking.leafrefsBelow scene' bound place chain expanding) := by
  induction bound generalizing place chain expanding with
  | zero => exact .nil
  | succ bound ih =>
      unfold Linking.leafrefsBelow
      rw [scenes.children]
      refine rel_flatMap_same _ fun child => ?_
      have leaf : List.Forall₂ ρ.LeafrefsOfGrouping
          ((Linking.relativePaths scene child).map fun path =>
            { leaf := child, path, uses := chain })
          ((Linking.relativePaths scene' child).map fun path =>
            { leaf := child, path, uses := chain }) :=
        List.rel_map (fun _ _ fits => ⟨rfl, rfl, fits⟩)
          (relativePaths scenes apart child)
      rcases rel_cases (scenes.construct? child) with
        ⟨before, after⟩ | ⟨construct, _, before, after, same⟩
      · rw [before, after]
        exact .nil
      · rw [before, after]
        cases same with
        | leaf => exact leaf
        | leafList => exact leaf
        | uses =>
            dsimp only
            split
            · exact .nil
            · split
              · exact .nil
              · exact ih _ _ _
        | typedef => exact .nil
        | augment => exact .nil
        | plain plain =>
            cases construct <;> first
              | exact .nil
              | exact ih _ _ _
              | simp [Construct.kind] at plain
        | _ => exact ih _ _ _

/-- What a `uses` instantiates. -/
theorem instances {unit unit' : LinkUnit} (units : ρ.Units unit unit')
    {item item' : Reference}
    (items : ρ.Items scene.Involves unit.source item item') :
    List.Forall₂ (ρ.Items scene.Involves unit.source)
      (Linking.instances scene unit item)
      (Linking.instances scene' unit' item') := by
  have source : unit'.source = unit.source := units.trees.source
  have states := items.states
  unfold Linking.instances
  rw [items.kind, items.consumer, items.position, items.span,
    units.trees.isWithin, source, scenes.walkBound]
  generalize item.state = state at states ⊢
  generalize item'.state = state' at states ⊢
  cases states with
  | failed =>
      cases item.kind <;> exact .nil
  | same state =>
      split
      · split
        · exact .nil
        · refine List.rel_map ?_ (leafrefsBelow scenes apart _ _ _ _)
          intro leafref leafref' same
          obtain ⟨leaf, uses, home, paths, fits⟩ := same
          refine ⟨rfl, rfl, rfl, rfl, ?_, .same _,
            .leafref home rfl paths fits⟩
          exact congrArg₂ (some <| Origin.grouping · ·) leaf uses
      · exact .nil

end Respelling

end YangSchema
