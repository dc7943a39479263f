import YangSchema.Proofs.Instances.Search

/-!
# Deciding what is in the tree of instances

A spot is in the tree if the spots that it lies in are and what leads to it from
there is declared.  All of this can be looked up in the units, so the tree of
instances can be evaluated.
-/

namespace YangSchema

/-- A spot and all those that it lies in. -/
def Spot.enclosing : Spot → List Spot
  | root module => [root module]
  | part place submodule => part place submodule :: place.enclosing
  | child place id => child place id :: place.enclosing
  | copy place id grouping => copy place id grouping :: place.enclosing
  | addition place augment uses => addition place augment uses :: place.enclosing

def Spot.isChild : Spot → Bool
  | child _ _ => true
  | _ => false

theorem SchemaTree.isNested_iff {tree : SchemaTree} :
    tree.IsNested ↔
      ∀ id ∈ tree.ids, ∀ node ∈ tree.node? id,
        ∀ parent ∈ node.ancestors.head?,
          parent < id ∧ node.ancestors.tail = tree.ancestors parent := by
  constructor
  · intro nested id _ node known parent isParent
    exact nested id node known parent _ (List.eq_cons_of_mem_head? isParent)
  · intro nested id node known parent rest around
    have listed : id ∈ tree.ids :=
      List.mem_range.mpr (Array.getElem?_eq_some_iff.mp known).1
    simpa [around] using nested id listed node known

instance (tree : SchemaTree) : Decidable tree.IsNested :=
  decidable_of_iff _ SchemaTree.isNested_iff.symm

namespace Scene

section

variable (scene : Scene)

/-- The grouping that a `uses` is bound to. -/
def usesTarget? (ref : NodeRef) : Option NodeRef :=
  match scene.construct? ref with
  | some (.uses body) => body.target
  | _ => none

/-- The node that an augment is bound to, with the path that it declares. -/
def augmentTarget? (ref : NodeRef) : Option (NodeRef × SchemaNodeId) :=
  match scene.construct? ref with
  | some (.augment body) => do
      let target ← body.target
      let path ← (SchemaNodeId.parse body.targetPath).toOption
      return (target, path)
  | _ => none

/-- An augment adds to a target because of the top level or the copy that it
starts from. -/
def AddsFrom (target : Spot) (augment : NodeRef) (uses : List NodeRef)
    (path : SchemaNodeId) : Spot → Prop
  | .root module =>
      path.absolute = true ∧ uses = [] ∧
        augment ∈ scene.children ⟨augment.source, rootId⟩ ∧
        scene.NamesModule augment.source (firstQualifier path.steps) module ∧
        scene.namesBelow? (.root module) target =
          some (path.steps.map (·.name))
  | .copy outer id grouping =>
      path.absolute = false ∧ uses = outer.uses ∧
        augment ∈ scene.children ⟨outer.ref.source, id⟩ ∧
        scene.namesBelow? (.copy outer id grouping) target =
          some (path.steps.map (·.name))
  | _ => False

/-- The instance around an instance, with the name that this one has there. -/
def siblingKey? : Spot → Option (Spot × String)
  | .child place id =>
      let ref := (Spot.child place id).ref
      if scene.isTransparent ref then none
      else some (scene.host place, scene.nameOf ref)
  | _ => none

end

variable {scene : Scene} {spot outer : Spot}

theorem usesTarget?_eq_some_iff {ref grouping : NodeRef} :
    scene.usesTarget? ref = some grouping ↔
      ∃ body, scene.construct? ref = some (.uses body) ∧
        body.target = some grouping := by
  unfold usesTarget?
  split
  next body isUses => simp [isUses]
  next other =>
    simp only [reduceCtorEq, false_iff]
    rintro ⟨body, isUses, -⟩
    exact other body isUses

theorem augmentTarget?_eq_some_iff {ref target : NodeRef}
    {path : SchemaNodeId} :
    scene.augmentTarget? ref = some (target, path) ↔
      ∃ body, scene.construct? ref = some (.augment body) ∧
        body.target = some target ∧
        SchemaNodeId.parse body.targetPath = .ok path := by
  unfold augmentTarget?
  split
  next body isAugment =>
    cases bound : body.target <;>
      cases parsed : SchemaNodeId.parse body.targetPath <;>
        simp [isAugment, bound, parsed, Except.toOption]
  next other =>
    simp only [reduceCtorEq, false_iff]
    rintro ⟨body, isAugment, -⟩
    exact other body isAugment

theorem namesModule_iff {source module : SourceId}
    {qualifier : Option String} :
    scene.NamesModule source qualifier module ↔
      ∃ header ∈ (scene.tree? source).bind (·.header?),
        (qualifier.filter (· ≠ header.qualifier) = none ∧
          (scene.kind? ⟨source, rootId⟩ = some .module ∧ module = source ∨
            scene.kind? ⟨source, rootId⟩ = some .submodule ∧
              scene.kind? ⟨module, rootId⟩ = some .module ∧
              (∃ whole ∈ (scene.tree? module).bind (·.header?),
                source ∈ whole.includes.filterMap (·.resolved)) ∧
              scene.isUsable source = true)) ∨
        ∃ name ∈ qualifier.filter (· ≠ header.qualifier),
          (header.importFor? name).bind (·.resolved) = some module ∧
            scene.kind? ⟨module, rootId⟩ = some .module ∧
            scene.isUsable module = true := by
  constructor
  · intro names
    cases names with
    | own declared unqualified isModule same =>
        exact ⟨_, declared, .inl ⟨unqualified, .inl ⟨isModule, same⟩⟩⟩
    | including declared unqualified isSubmodule isModule includes included
        usable =>
        exact ⟨_, declared, .inl ⟨unqualified, .inr
          ⟨isSubmodule, isModule, ⟨_, includes, included⟩, usable⟩⟩⟩
    | imported declared qualified imports isModule usable =>
        exact ⟨_, declared, .inr ⟨_, qualified, imports, isModule, usable⟩⟩
  · rintro ⟨header, declared, ⟨unqualified, own | including⟩ | imported⟩
    · exact .own declared unqualified own.1 own.2
    · obtain ⟨isSubmodule, isModule, ⟨whole, includes, included⟩, usable⟩ :=
        including
      exact .including declared unqualified isSubmodule isModule includes
        included usable
    · obtain ⟨name, qualified, imports, isModule, usable⟩ := imported
      exact .imported declared qualified imports isModule usable

instance (source : SourceId) (qualifier : Option String) (module : SourceId) :
    Decidable (scene.NamesModule source qualifier module) :=
  decidable_of_iff _ namesModule_iff.symm

instance (target : Spot) (augment : NodeRef) (uses : List NodeRef)
    (path : SchemaNodeId) (spot : Spot) :
    Decidable (scene.AddsFrom target augment uses path spot) := by
  cases spot <;> unfold AddsFrom <;> infer_instance

/-- What has names below another spot lies in it. -/
theorem mem_enclosing_of_namesBelow? {names : List String}
    (below : scene.namesBelow? outer spot = some names) :
    outer ∈ spot.enclosing := by
  induction spot generalizing names with
  | root module =>
      rw [namesBelow?] at below
      split at below
      next same => exact same ▸ List.mem_cons_self
      · simp at below
  | part place _ ih | copy place _ _ ih | addition place _ _ ih =>
      rw [namesBelow?] at below
      split at below
      next same => exact same ▸ List.mem_cons_self
      next => exact List.mem_cons_of_mem _ (ih below)
  | child place id ih =>
      rw [namesBelow?] at below
      split at below
      next same => exact same ▸ List.mem_cons_self
      next =>
        obtain ⟨above, below, -⟩ := Option.map_eq_some_iff.mp below
        exact List.mem_cons_of_mem _ (ih below)

theorem Placed.of_mem_enclosing (placed : scene.Placed spot)
    (encloses : outer ∈ spot.enclosing) : scene.Placed outer := by
  have whole := placed
  induction placed with
  | root => exact List.mem_singleton.mp encloses ▸ whole
  | part placed _ _ _ _ ih | child placed _ _ _ ih | copy placed _ _ _ ih
  | addition placed _ _ _ _ _ _ _ ih =>
      rcases List.mem_cons.mp encloses with rfl | encloses
      · exact whole
      · exact ih encloses placed
  | usesAddition _ placed _ _ _ _ _ _ _ ih =>
      rcases List.mem_cons.mp encloses with rfl | encloses
      · exact whole
      · exact ih encloses placed

theorem placed_root_iff {module : SourceId} :
    scene.Placed (.root module) ↔
      scene.kind? ⟨module, rootId⟩ = some .module :=
  ⟨fun placed => by cases placed; assumption, .root⟩

theorem placed_part_iff {whole : Spot} {submodule : SourceId} :
    scene.Placed (.part whole submodule) ↔
      scene.Placed whole ∧ whole = .root whole.ref.source ∧
        (∃ header ∈ (scene.tree? whole.ref.source).bind (·.header?),
          submodule ∈ header.includes.filterMap (·.resolved)) ∧
        scene.isUsable submodule = true ∧
        scene.kind? ⟨submodule, rootId⟩ = some .submodule := by
  constructor
  · intro placed
    cases placed with
    | part whole declared included usable isSubmodule =>
        exact ⟨whole, rfl, ⟨_, declared, included⟩, usable, isSubmodule⟩
  · rintro ⟨placed, isRoot, ⟨header, declared, included⟩, usable, isSubmodule⟩
    rw [isRoot] at placed ⊢
    exact .part placed declared included usable isSubmodule

theorem placed_child_iff {place : Spot} {id : NodeId} :
    scene.Placed (.child place id) ↔
      scene.Placed place ∧
        (Spot.child place id).ref ∈ scene.children place.ref ∧
        (scene.kind? (Spot.child place id).ref).any isStep = true := by
  constructor
  · intro placed
    cases placed with
    | child placed inside isKind step =>
        exact ⟨placed, inside, by simpa [isKind] using step⟩
  · rintro ⟨placed, inside, step⟩
    obtain ⟨kind, isKind, step⟩ := (Option.any_eq_true _ _).mp step
    exact .child placed inside isKind step

theorem placed_copy_iff {place : Spot} {id : NodeId} {grouping : NodeRef} :
    scene.Placed (.copy place id grouping) ↔
      scene.Placed place ∧
        ⟨place.ref.source, id⟩ ∈ scene.children place.ref ∧
        scene.usesTarget? ⟨place.ref.source, id⟩ = some grouping := by
  rw [usesTarget?_eq_some_iff]
  constructor
  · intro placed
    cases placed with
    | copy placed inside isUses target =>
        exact ⟨placed, inside, _, isUses, target⟩
  · rintro ⟨placed, inside, body, isUses, target⟩
    exact .copy placed inside isUses target

theorem placed_addition_iff {target : Spot} {augment : NodeRef}
    {uses : List NodeRef} :
    scene.Placed (.addition target augment uses) ↔
      scene.Placed target ∧ target.isChild = true ∧
        ∃ bound ∈ scene.augmentTarget? augment, bound.1 = target.ref ∧
          ∃ start ∈ target.enclosing,
            scene.AddsFrom target augment uses bound.2 start := by
  constructor
  · intro placed
    cases placed with
    | addition placed inside isAugment target parsed absolute names selects =>
        refine ⟨placed, rfl, _, augmentTarget?_eq_some_iff.mpr
          ⟨_, isAugment, target, parsed⟩, rfl, _,
          mem_enclosing_of_namesBelow? selects, absolute, rfl, inside, names,
          selects⟩
    | usesAddition copied placed inside isAugment target parsed descends
        selects =>
        refine ⟨placed, rfl, _, augmentTarget?_eq_some_iff.mpr
          ⟨_, isAugment, target, parsed⟩, rfl, _,
          mem_enclosing_of_namesBelow? selects, descends, rfl, inside, selects⟩
  · rintro ⟨placed, isChild, ⟨_, path⟩, declared, rfl, start, around, adds⟩
    obtain ⟨body, isAugment, bound, parsed⟩ :=
      augmentTarget?_eq_some_iff.mp declared
    cases target with
    | child place id =>
        cases start with
        | root module =>
            obtain ⟨absolute, rfl, inside, names, selects⟩ := adds
            exact .addition placed inside isAugment bound parsed absolute names
              selects
        | copy outer id grouping =>
            obtain ⟨descends, rfl, inside, selects⟩ := adds
            exact .usesAddition (placed.of_mem_enclosing around) placed inside
              isAugment bound parsed descends selects
        | part => exact adds.elim
        | child => exact adds.elim
        | addition => exact adds.elim
    | root => simp [Spot.isChild] at isChild
    | part => simp [Spot.isChild] at isChild
    | copy => simp [Spot.isChild] at isChild
    | addition => simp [Spot.isChild] at isChild

/-- Whether a spot is in the tree of instances. -/
def decidePlaced : (spot : Spot) → Decidable (scene.Placed spot)
  | .root _ => decidable_of_iff _ placed_root_iff.symm
  | .part whole _ =>
      have := decidePlaced whole
      decidable_of_iff _ placed_part_iff.symm
  | .child place _ =>
      have := decidePlaced place
      decidable_of_iff _ placed_child_iff.symm
  | .copy place _ _ =>
      have := decidePlaced place
      decidable_of_iff _ placed_copy_iff.symm
  | .addition target _ _ =>
      have := decidePlaced target
      decidable_of_iff _ placed_addition_iff.symm

instance (spot : Spot) : Decidable (scene.Placed spot) :=
  decidePlaced spot

theorem Contains.placed {inner : Spot}
    (contains : scene.Contains outer inner) : scene.Placed inner := by
  obtain ⟨_, _, -, placed, -⟩ := contains
  exact placed

theorem Contains.siblingKey? {inner : Spot}
    (contains : scene.Contains outer inner) :
    scene.siblingKey? inner = some (outer, scene.nameOf inner.ref) := by
  obtain ⟨place, id, rfl, -, visible, rfl⟩ := contains
  simp [Scene.siblingKey?, visible]

/-- An instance is placed in the instance around it. -/
theorem contains_iff {inner : Spot} :
    scene.Contains outer inner ↔
      scene.Placed inner ∧ ∃ key ∈ scene.siblingKey? inner, key.1 = outer := by
  constructor
  · intro contains
    exact ⟨contains.placed, _, contains.siblingKey?, rfl⟩
  · rintro ⟨placed, key, isKey, rfl⟩
    cases inner with
    | child place id =>
        simp only [siblingKey?, Option.mem_def, Option.ite_none_left_eq_some,
          Bool.not_eq_true, Option.some.injEq] at isKey
        obtain ⟨visible, rfl⟩ := isKey
        exact ⟨place, id, rfl, placed, visible, rfl⟩
    | root => simp [siblingKey?] at isKey
    | part => simp [siblingKey?] at isKey
    | copy => simp [siblingKey?] at isKey
    | addition => simp [siblingKey?] at isKey

instance (outer inner : Spot) : Decidable (scene.Contains outer inner) :=
  decidable_of_iff _ contains_iff.symm

/-- The augments of a scene are found in its units. -/
theorem isWellFormed_ofUnits {units : List LinkUnit} {phase : LinkPhase}
    (nested : ∀ unit ∈ units, unit.tree.IsNested)
    (groupings : ∀ uses ∈ (ofUnits units phase).nodeRefs,
      ∀ grouping ∈ (ofUnits units phase).usesTarget? uses,
        (ofUnits units phase).kind? grouping = some .grouping) :
    (ofUnits units phase).IsWellFormed where
  nested := nested
  groupings isUses isTarget := by
    obtain ⟨found, known, -⟩ := Option.map_eq_some_iff.mp isUses
    exact groupings _ (mem_nodeRefs_of_node? known) _
      (usesTarget?_eq_some_iff.mpr ⟨_, isUses, isTarget⟩)
  augments pair listed := by
    obtain ⟨unit, usable, listed⟩ := List.mem_flatMap.mp listed
    obtain ⟨id, inside, added⟩ := List.mem_filterMap.mp listed
    refine List.mem_flatMap.mpr ⟨unit, List.mem_of_mem_filter usable,
      List.mem_map.mpr ⟨id, inside, ?_⟩⟩
    split at added
    · split at added
      · obtain rfl := Option.some.inj added
        rfl
      · simp at added
    · simp at added

end Scene

end YangSchema
