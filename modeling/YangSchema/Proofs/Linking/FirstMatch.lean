import YangSchema.Proofs.Linking.Failing
import YangSchema.Proofs.Linking.Standing

/-!
# The first match of a name

A name without a qualifier, or with that of its own unit, means the first node of
the right kind and name in a row of places:  for groupings and typedefs the
enclosing nodes from the innermost outwards come first, then the top level of the
unit and the top levels of the submodules that it includes and that can be used.
-/

namespace YangSchema

/-- Whether a name is looked up in the enclosing nodes as well. -/
def ReferenceKind.isLexical : ReferenceKind → Bool
  | .uses | .derivedType _ => true
  | _ => false

/-- The name that a reference is made by:  a derived type is called what its type
says. -/
def SchemaTree.nameFor? (tree : SchemaTree) (item : Reference) :
    Option QualifiedName :=
  match item.kind with
  | .derivedType slot => (tree.typeAt? slot).map (·.name)
  | _ => QualifiedName.parse? item.text

/-- Whether a name is one of the unit itself. -/
def SchemaTree.Owns (tree : SchemaTree) (name : QualifiedName) : Prop :=
  name.qualifier = none ∨ name.qualifier = tree.ownQualifier?

namespace Scene

/-- The places where an own name is looked for, in their order. -/
def ownPlaces (scene : Scene) (kind : ReferenceKind) (place : NodeRef) :
    List NodeRef :=
  (if kind.isLexical then scene.ancestors place else []) ++
    ⟨place.source, rootId⟩ :: scene.sharedRoots ⟨place.source, rootId⟩

/-- The first node of a kind and a name that is directly in one of the places. -/
def firstNamed? (scene : Scene) (kinds : List ConstructKind) (name : String)
    (places : List NodeRef) : Option NodeRef :=
  (places.flatMap scene.children).find? fun child =>
    (scene.kind? child).any kinds.contains && scene.nameOf child == name

variable {scene : Scene} {place target : NodeRef} {kind : ConstructKind}
  {name : String}

theorem firstNamed?_append (kinds : List ConstructKind) (name : String)
    (places more : List NodeRef) :
    scene.firstNamed? kinds name (places ++ more) =
      (scene.firstNamed? kinds name places).or
        (scene.firstNamed? kinds name more) := by
  rw [firstNamed?, List.flatMap_append, List.find?_append]
  rfl

theorem firstNamed?_cons (kinds : List ConstructKind) (name : String)
    (place : NodeRef) (places : List NodeRef) :
    scene.firstNamed? kinds name (place :: places) =
      (scene.firstNamed? kinds name [place]).or
        (scene.firstNamed? kinds name places) :=
  firstNamed?_append kinds name [place] places

/-- In one place this is the child that the tree finds. -/
theorem firstNamed?_singleton {tree : SchemaTree} {source : SourceId}
    (isTree : scene.tree? source = some tree) (kind : ConstructKind)
    (name : String) (id : NodeId) :
    scene.firstNamed? [kind] name [⟨source, id⟩] =
      (tree.findChild? id kind name).map (⟨source, ·⟩) := by
  simp only [firstNamed?, List.flatMap_cons, List.flatMap_nil, List.append_nil,
    children, isTree, List.find?_map, SchemaTree.findChild?]
  congr 2
  funext child
  simp only [Function.comp_apply, kind?, nameOf, node?, isTree,
    Option.bind_some]
  cases tree.node? child with
  | none => rfl
  | some node => simp [Bool.beq_eq_decide_eq, eq_comm]

/-- In the enclosing nodes it is what is found from the innermost outwards. -/
theorem firstNamed?_ancestors (scene : Scene) (place : NodeRef)
    (kind : ConstructKind) (name : String) :
    scene.firstNamed? [kind] name (scene.ancestors place) =
      scene.enclosing? place kind name := by
  unfold ancestors enclosing?
  cases isTree : scene.tree? place.source with
  | none => rfl
  | some tree =>
      dsimp only
      induction tree.ancestors place.node with
      | nil => rfl
      | cons ancestor rest ih =>
          rw [List.map_cons, firstNamed?_cons, firstNamed?_singleton isTree,
            ih, List.findSome?_cons]
          cases tree.findChild? ancestor kind name <;> rfl

/-- The top levels of those sources that can be used. -/
def roots (scene : Scene) (sources : List SourceId) : List NodeRef :=
  (sources.filter scene.isUsable).map (⟨·, rootId⟩)

theorem roots_cons_of_usable {source : SourceId} {rest : List SourceId}
    (usable : scene.isUsable source = true) : scene.roots (source :: rest) =
      ⟨source, rootId⟩ :: scene.roots rest := by
  rw [roots, List.filter_cons_of_pos usable, List.map_cons, roots]

theorem roots_cons_of_unusable {source : SourceId} {rest : List SourceId}
    (unusable : ¬ scene.isUsable source = true) :
    scene.roots (source :: rest) = scene.roots rest := by
  rw [roots, List.filter_cons_of_neg unusable, roots]

/-- A search at the top levels of several sources finds the first match. -/
theorem searchFrom_eq_ok_iff {blocked : Bool} {sources : List SourceId} :
    scene.searchFrom kind name blocked sources = .ok target ↔
      scene.firstNamed? [kind] name (scene.roots sources) = some target := by
  induction sources generalizing blocked with
  | nil => simp [searchFrom, firstNamed?, roots]
  | cons source rest ih =>
      unfold searchFrom
      cases isUnit : scene.unit? source with
      | none =>
          rw [roots_cons_of_unusable (by simp [isUsable, isUnit])]
          exact ih
      | some unit =>
          cases usable : unit.usable with
          | false =>
              rw [roots_cons_of_unusable (by simp [isUsable, isUnit, usable])]
              simpa only [usable, Bool.not_false, if_true] using ih
          | true =>
              have isTree : scene.tree? source = some unit.tree := by
                simp [tree?, isUnit]
              rw [roots_cons_of_usable (by simp [isUsable, isUnit, usable]),
                firstNamed?_cons, firstNamed?_singleton isTree]
              simp only [usable, Bool.not_true, Bool.false_eq_true, if_false]
              cases unit.tree.findChild? rootId kind name with
              | some id => simp
              | none => simpa using ih

theorem mem_topNames {source : SourceId}
    (found : scene.firstNamed? [kind] name [⟨source, rootId⟩] = some target) :
    (kind, name) ∈ scene.topNames source := by
  unfold topNames
  cases isTree : scene.tree? source with
  | none => simp [firstNamed?, children, isTree] at found
  | some tree =>
      rw [firstNamed?_singleton isTree] at found
      obtain ⟨id, inTree, -⟩ := Option.map_eq_some_iff.mp found
      exact SchemaTree.mem_topNames_iff.mpr (by rw [inTree]; rfl)

/-- A name at a top level is found in whatever order the top levels are searched,
unless two of them declare it. -/
theorem firstNamed?_roots {sources : List SourceId} {source : SourceId}
    (disjoint : scene.AreDisjoint sources) (among : source ∈ sources)
    (usable : scene.isUsable source = true)
    (found : scene.firstNamed? [kind] name [⟨source, rootId⟩] = some target) :
    scene.firstNamed? [kind] name (scene.roots sources) = some target := by
  induction sources with
  | nil => cases among
  | cons first rest ih =>
      obtain ⟨apart, disjoint⟩ := List.pairwise_cons.mp disjoint
      obtain rfl | among := List.mem_cons.mp among
      · rw [roots_cons_of_usable usable, firstNamed?_cons, found]
        rfl
      by_cases isUsable : scene.isUsable first = true
      · have nothing : scene.firstNamed? [kind] name [⟨first, rootId⟩] = none := by
          refine Option.eq_none_iff_forall_ne_some.mpr fun other found' => ?_
          exact apart source among (kind, name) (mem_topNames found')
            (mem_topNames found)
        rw [roots_cons_of_usable isUsable, firstNamed?_cons, nothing,
          Option.none_or, ih disjoint among]
      · rw [roots_cons_of_unusable isUsable, ih disjoint among]

/-- What is found at the top levels is found at one of them. -/
theorem exists_root {sources : List SourceId}
    (found : scene.firstNamed? [kind] name (scene.roots sources) = some target) :
    ∃ source ∈ sources, scene.isUsable source = true ∧
      scene.firstNamed? [kind] name [⟨source, rootId⟩] = some target := by
  induction sources with
  | nil => simp [roots, firstNamed?] at found
  | cons source rest ih =>
      by_cases usable : scene.isUsable source = true
      · rw [roots_cons_of_usable usable, firstNamed?_cons] at found
        cases here : scene.firstNamed? [kind] name [⟨source, rootId⟩] with
        | some other =>
            rw [here, Option.some_or] at found
            exact ⟨source, List.mem_cons_self, usable, here.trans found⟩
        | none =>
            rw [here, Option.none_or] at found
            obtain ⟨other, among, isFound⟩ := ih found
            exact ⟨other, List.mem_cons_of_mem _ among, isFound⟩
      · rw [roots_cons_of_unusable usable] at found
        obtain ⟨other, among, isFound⟩ := ih found
        exact ⟨other, List.mem_cons_of_mem _ among, isFound⟩

/-- The nodes around a place that are not at the top. -/
def enclosers (scene : Scene) (place : NodeRef) : List NodeRef :=
  (scene.ancestors place).filter (·.node ≠ rootId)

/-- The nodes around a place end at the top of its tree. -/
def EndsAtRoot (scene : Scene) (place : NodeRef) : Prop :=
  scene.ancestors place = scene.enclosers place ∨
    scene.ancestors place = scene.enclosers place ++ [⟨place.source, rootId⟩]

theorem endsAtRoot (nested : scene.IsNestedAt place.source) :
    scene.EndsAtRoot place := by
  unfold EndsAtRoot enclosers ancestors
  split
  next tree isTree =>
    have kept (ids : List NodeId) :
        (ids.map fun id => (⟨place.source, id⟩ : NodeRef)).filter
            (·.node ≠ rootId) =
          (ids.filter (· ≠ rootId)).map fun id => ⟨place.source, id⟩ := by
      rw [List.filter_map]
      rfl
    rw [kept]
    obtain above | above :=
      (nested tree isTree).ancestors_end place.node
    · exact .inl (congrArg _ above)
    · refine .inr ((congrArg _ above).trans ?_)
      rw [List.map_append, List.map_singleton]
  · exact .inl rfl

/-- The nodes around a place among which a name is looked up first. -/
def surroundings (scene : Scene) (place : NodeRef) (kind : ConstructKind)
    (sources : List SourceId) : List NodeRef :=
  if (kind = .grouping ∨ kind = .typedef) ∧ sources.head? = some place.source then
    scene.enclosers place
  else []

/-- What a name means that is written at a node: definitions of some kinds are also
looked up in the enclosing nodes. -/
def means (scene : Scene) (place : NodeRef) (kind : ConstructKind)
    (name : QualifiedName) : Lookup NodeRef :=
  if kind = .grouping ∨ kind = .typedef then scene.lexical place name kind
  else scene.topLevel place.source name kind

/-- What a name means that is written in a unit that can be used. -/
theorem means_eq_ok_iff {name : QualifiedName} (ends : scene.EndsAtRoot place)
    (usable : scene.isUsable place.source = true) :
    scene.means place kind name = .ok target ↔
      ∃ sources, scene.scopes place.source name.qualifier = .ok sources ∧
        scene.firstNamed? [kind] name.name (scene.surroundings place kind sources ++
          scene.roots sources) = some target := by
  unfold means surroundings
  by_cases nested : kind = .grouping ∨ kind = .typedef
  · simp only [nested, if_true, true_and, lexical, bind_eq_ok_iff]
    refine exists_congr fun sources => and_congr_right fun _ => ?_
    by_cases first : sources.head? = some place.source
    · have top : scene.roots sources =
          ⟨place.source, rootId⟩ :: scene.roots sources.tail := by
        obtain ⟨rest, rfl⟩ := List.head?_eq_some_iff.mp first
        exact roots_cons_of_usable usable
      have around : (scene.firstNamed? [kind] name.name
            (scene.ancestors place)).or
              (scene.firstNamed? [kind] name.name (scene.roots sources)) =
          scene.firstNamed? [kind] name.name
            (scene.enclosers place ++ scene.roots sources) := by
        obtain above | above := ends
        · rw [above, firstNamed?_append]
        · rw [above, firstNamed?_append, firstNamed?_append, top,
            firstNamed?_cons _ _ _ (scene.roots sources.tail), Option.or_assoc]
          cases scene.firstNamed? [kind] name.name [⟨place.source, rootId⟩] <;>
            rfl
      simp only [first, if_true, ← firstNamed?_ancestors, ← around]
      cases scene.firstNamed? [kind] name.name (scene.ancestors place) with
      | none => simp [searchFrom_eq_ok_iff]
      | some found => simp [pure_eq_ok_iff]
    · simp only [first, if_false, List.nil_append, searchFrom_eq_ok_iff]
  · simp only [nested, if_false, false_and, topLevel, bind_eq_ok_iff,
      List.nil_append, searchFrom_eq_ok_iff]

section

variable {unit : LinkUnit} (across : scene.phase = .interFile)
  (known : scene.unit? place.source = some unit) (usable : unit.usable = true)
  {name : QualifiedName} (owns : unit.tree.Owns name)
include across known usable owns

/-- The sources in which an own name is looked up. -/
theorem scopes_of_owns {sources : List SourceId}
    (scopes : scene.scopes place.source name.qualifier = .ok sources) :
    sources.head? = some place.source ∧
      scene.roots sources =
        ⟨place.source, rootId⟩ :: scene.sharedRoots ⟨place.source, rootId⟩ := by
  have isTree : scene.tree? place.source = some unit.tree := by
    simp [tree?, known]
  have isUsable : scene.isUsable place.source = true := by
    simp [Scene.isUsable, known, usable]
  simp only [Scene.scopes, isTree, Option.bind_some] at scopes
  cases declared : unit.tree.header? with
  | none => simp [declared] at scopes
  | some header =>
      have mine : name.qualifier.filter (· ≠ header.qualifier) = none := by
        obtain unqualified | qualified := owns
        · rw [unqualified]
          rfl
        · rw [qualified, SchemaTree.ownQualifier?, declared]
          simp
      simp only [declared, mine, across] at scopes
      obtain rfl := Except.ok.inj scopes
      refine ⟨rfl, ?_⟩
      rw [roots_cons_of_usable isUsable]
      simp [roots, sharedRoots, isTree, declared]

theorem firstNamed?_of_topLevel {kinds : ReferenceKind}
    (nested : kinds.isLexical = false)
    (found : scene.topLevel place.source name kind = .ok target) :
    scene.firstNamed? [kind] name.name (scene.ownPlaces kinds place) =
      some target := by
  obtain ⟨sources, scopes, found⟩ := bind_eq_ok_iff.mp found
  obtain ⟨-, places⟩ := scopes_of_owns across known usable owns scopes
  rw [ownPlaces, nested, if_neg (by simp), List.nil_append, ← places]
  exact searchFrom_eq_ok_iff.mp found

theorem firstNamed?_of_lexical {kinds : ReferenceKind}
    (nested : kinds.isLexical = true)
    (found : scene.lexical place name kind = .ok target) :
    scene.firstNamed? [kind] name.name (scene.ownPlaces kinds place) =
      some target := by
  obtain ⟨sources, scopes, found⟩ := bind_eq_ok_iff.mp found
  obtain ⟨first, places⟩ := scopes_of_owns across known usable owns scopes
  rw [ownPlaces, nested, if_pos rfl, firstNamed?_append, firstNamed?_ancestors,
    ← places]
  simp only [first, if_true] at found
  split at found
  next nested inside =>
    obtain rfl := pure_eq_ok_iff.mp found
    rw [inside]
    rfl
  next outside =>
    rw [outside, Option.none_or]
    exact searchFrom_eq_ok_iff.mp found

end

/-- What a name of the unit itself is resolved to is the first match. -/
theorem firstNamed?_of_lookupReference {unit : LinkUnit} {item : Reference}
    {name : QualifiedName} {outcome : Outcome} (across : scene.phase = .interFile)
    (known : scene.unit? unit.source = some unit)
    (usable : unit.usable = true) (own : item.origin = none)
    (named : item.kind.isName = true)
    (isName : unit.tree.nameFor? item = some name)
    (owns : unit.tree.Owns name)
    (ok : scene.lookupReference unit.source item = .ok outcome)
    (pending : item.state = .unresolved)
    (state : LinkUnit.stateOf item.kind item.state outcome =
      .resolved target) :
    scene.firstNamed? item.kind.targetKinds name.name
      (scene.ownPlaces item.kind ⟨unit.source, item.place⟩) = some target := by
  have lexical {id : NodeId} {kind : ConstructKind}
      (nested : item.kind.isLexical = true)
      (found : scene.lexical ⟨unit.source, id⟩ name kind = .ok target) :
      scene.firstNamed? [kind] name.name
        (scene.ownPlaces item.kind ⟨unit.source, id⟩) = some target :=
    firstNamed?_of_lexical across known usable owns nested found
  have topLevel (id : NodeId) {kind : ConstructKind}
      (flat : item.kind.isLexical = false)
      (found : scene.topLevel unit.source name kind = .ok target) :
      scene.firstNamed? [kind] name.name
        (scene.ownPlaces item.kind ⟨unit.source, id⟩) = some target :=
    firstNamed?_of_topLevel across known usable owns flat found
  have written {name' : QualifiedName} (parsed : referenceName item = .ok name')
      (direct : ∀ slot, item.kind ≠ .derivedType slot) : name' = name := by
    unfold SchemaTree.nameFor? at isName
    split at isName
    next slot kind => exact absurd kind (direct slot)
    · simpa [referenceName, isName, eq_comm] using parsed
  have at_consumer : referencePlace unit.source item =
      ⟨unit.source, item.consumer⟩ := by
    simp [referencePlace, own]
  unfold lookupReference at ok
  simp only [at_consumer] at ok
  rw [pending] at state
  unfold Reference.place ReferenceKind.targetKinds
  cases kind : item.kind with
  | uses =>
      rw [kind] at lexical state
      simp only [kind, bind_eq_ok_iff, pure_eq_ok_iff] at ok
      obtain ⟨name', parsed, target', found, rfl⟩ := ok
      obtain rfl := written parsed (by simp [kind])
      obtain rfl := ReferenceState.resolved.inj state
      exact lexical rfl (grouping_eq_ok_iff.mp found).1
  | derivedType slot =>
      rw [kind] at lexical state
      simp only [kind] at ok
      have isTree : scene.tree? unit.source = some unit.tree := by
        simp [tree?, known]
      have use : scene.derivedUse unit.source item slot =
          (⟨unit.source, slot.node⟩, unit.tree.typeAt? slot) := by
        simp [derivedUse, own, isTree]
      simp only [SchemaTree.nameFor?, kind] at isName
      obtain ⟨type, declared, rfl⟩ := Option.map_eq_some_iff.mp isName
      simp only [derivedOutcome, use, declared] at ok
      obtain ⟨derivation, derived, ok⟩ := bind_eq_ok_iff.mp ok
      obtain ⟨ending, along⟩ := derive_eq_ok derived
      obtain ⟨members, rfl⟩ : ∃ members,
          outcome = .derived derivation members := by
        split at ok
        · obtain ⟨members, -, ok⟩ := bind_eq_ok_iff.mp ok
          exact ⟨members, (pure_eq_ok_iff.mp ok).symm⟩
        · exact ⟨[], (pure_eq_ok_iff.mp ok).symm⟩
      obtain rfl := ReferenceState.resolved.inj state
      exact lexical rfl along.found
  | base =>
      rw [kind] at topLevel state
      simp only [kind, bind_eq_ok_iff] at ok
      obtain ⟨name', parsed, target', found, ok⟩ := ok
      obtain rfl := written parsed (by simp [kind])
      split at ok
      · simp at ok
      obtain rfl := pure_eq_ok_iff.mp ok
      obtain rfl := ReferenceState.resolved.inj state
      exact topLevel item.consumer rfl found
  | identityref slot | ifFeature index =>
      rw [kind] at topLevel state
      simp only [kind, bind_eq_ok_iff, pure_eq_ok_iff] at ok
      obtain ⟨name', parsed, target', found, rfl⟩ := ok
      obtain rfl := written parsed (by simp [kind])
      obtain rfl := ReferenceState.resolved.inj state
      exact topLevel _ rfl found
  | leafref slot => simp [kind, ReferenceKind.isName] at named
  | augment => simp [kind, ReferenceKind.isName] at named

end Scene

end YangSchema
