import YangSchema.Proofs.Compilation.Groupings
import YangSchema.Proofs.Compilation.ListKeys
import YangSchema.Proofs.Instances.Climbing

/-!
# The lists of the configuration

A list that can be configured must have a key.  This is checked at the end of the
list, but not where the definition around it decides nothing yet:  in a grouping,
in an augment, and in what is no part of the datastore.  The last is never reached
from the top level of a unit without passing an rpc or a notification, so in a valid
set a list without a key that is reached there stands in a grouping or an augment.
Nothing looks at such a list again when its grouping is used.
-/

namespace YangSchema

namespace Scene

/-- The places of the configuration data tree:  the top levels, and what is reached
from them by steps to children that can be configured, through `uses` into their
groupings, and through augments.  No step leads into an rpc or a notification. -/
inductive InDatastore (scene : Scene) : NodeRef → Prop
  | root {source : SourceId} {kind : ConstructKind}
      (isRoot : scene.kind? ⟨source, rootId⟩ = some kind)
      (isModule : kind.isModule = true) : InDatastore scene ⟨source, rootId⟩
  | child {place child : NodeRef} {construct : Construct}
      (reached : InDatastore scene place)
      (inside : child ∈ scene.children place)
      (is : scene.construct? child = some construct)
      (isData : construct.kind.bearsConfig = true ∨ construct.kind = .case)
      (configurable : ∀ config, construct.config? = some config →
        config.value = true) : InDatastore scene child
  | uses {place uses grouping : NodeRef} {body : UsesBody}
      (reached : InDatastore scene place)
      (inside : uses ∈ scene.children place)
      (isUses : scene.construct? uses = some (.uses body))
      (bound : body.target = some grouping) : InDatastore scene grouping
  | augment {target augment : NodeRef} {body : AugmentBody}
      (reached : InDatastore scene target)
      (isAugment : scene.construct? augment = some (.augment body))
      (bound : body.target = some target) : InDatastore scene augment

/-- A place stands in a definition that is instantiated elsewhere, or is one. -/
def IsDefinition (scene : Scene) (place : NodeRef) : Prop :=
  ∃ around ∈ place :: scene.ancestors place,
    scene.kind? around = some .grouping ∨ scene.kind? around = some .augment

/-- A place stands in what is no part of the datastore, or is it. -/
def IsOperation (scene : Scene) (place : NodeRef) : Prop :=
  ∃ around ∈ place :: scene.ancestors place,
    ∃ kind ∈ [ConstructKind.input, .output, .notification],
      scene.kind? around = some kind

variable {scene : Scene} {place : NodeRef}

/-- Only a definition leads into an operation. -/
theorem InDatastore.isDefinition (wellFormed : scene.IsWellFormed)
    (reached : scene.InDatastore place)
    (operation : scene.IsOperation place) : scene.IsDefinition place := by
  induction reached with
  | @root source kind isRoot isModule =>
      obtain ⟨around, listed, kind', among, isKind⟩ := operation
      rw [ancestors_root (wellFormed.nestedAt source), List.mem_singleton] at listed
      obtain rfl : kind' = kind :=
        Option.some.inj (isKind.symm.trans (listed ▸ isRoot))
      have other : ∀ kind ∈ [ConstructKind.input, .output, .notification],
          kind.isModule = false := by decide
      simp [other kind' among] at isModule
  | @child place child construct reached inside is isData _ ih =>
      have around := ancestors_of_mem_children (wellFormed.nestedAt _) inside
      obtain ⟨outer, listed, kind, among, isKind⟩ := operation
      rw [around] at listed
      obtain rfl | listed := List.mem_cons.mp listed
      · obtain rfl : construct.kind = kind := by simpa [kind?_eq, is] using isKind
        have other : ∀ kind ∈ [ConstructKind.input, .output, .notification],
            ¬ (kind.bearsConfig = true ∨ kind = .case) := by decide
        exact absurd isData (other _ among)
      · obtain ⟨definition, within, isKind⟩ := ih ⟨outer, listed, kind, among, isKind⟩
        exact ⟨definition, List.mem_cons_of_mem _ (around ▸ within), isKind⟩
  | uses reached inside isUses bound =>
      exact ⟨_, List.mem_cons_self, .inl (wellFormed.groupings isUses bound)⟩
  | augment reached isAugment bound =>
      have isKind := congrArg (·.map Construct.kind) isAugment
      exact ⟨_, List.mem_cons_self, .inr ((scene.kind?_eq _).trans isKind)⟩

end Scene

/-- A list that a scene shows is one of its tree. -/
theorem Scene.list_of_keysOf? {scene : Scene} {list : NodeRef}
    {keys : List String}
    (declared : (scene.tree? list.source).bind (·.keysOf? list.node) = some keys) :
    ∃ body, scene.construct? list = some (.list body) ∧ body.keys = keys := by
  obtain ⟨tree, isTree, declared⟩ := Option.bind_eq_some_iff.mp declared
  obtain ⟨body, isList, same⟩ := SchemaTree.keysOf?_eq_some declared
  exact ⟨body, construct?_eq_some_iff.mpr ⟨tree, isTree, isList⟩, same⟩

namespace Compilation

variable {compilation : Compilation} {limits : ParseLimits} {sources : Sources}

/-- In a valid set a list that can be configured in the configuration data tree has
a key, unless it stands in a grouping or an augment. -/
theorem configuration_lists_have_keys
    (compiled : compile limits sources = .ok compilation)
    (valid : compilation.isValid = true) :
    let scene := Scene.ofUnits compilation.units .interFile
    ∀ list body, scene.InDatastore list →
      scene.construct? list = some (.list body) → body.config.value = true →
        ¬ scene.IsDefinition list → body.keys ≠ [] := by
  intro scene list body reached isList value settled keyless
  have connected := compile_isConnected compiled
  have linked : ∀ unit ∈ compilation.units,
      unit.usable = true ∧ (unit.usable = true → unit.ClosesLists) := by
    simp only [compile, bind_eq_ok_iff, pure_eq_ok_iff] at compiled
    obtain ⟨parsed, -, rfl⟩ := compiled
    exact fun unit member => ⟨((ofParsed_isLinked valid).2 unit member).usable,
      linked_closesLists member⟩
  have usable unit (member : unit ∈ compilation.units) := (linked unit member).1
  obtain ⟨tree, isTree, inTree⟩ := Scene.construct?_eq_some_iff.mp isList
  obtain ⟨unit, member, rfl, source⟩ := Scene.tree?_mem isTree
  have closes := (linked unit member).2 (usable unit member) list.node body inTree
  obtain ⟨around, above, kind, among, isKind⟩ :=
    SchemaTree.isOutsideDatastore_iff.mp (closes.keyless keyless value)
  have above' : ⟨list.source, around⟩ ∈ scene.ancestors list := by
    simp only [Scene.ancestors, isTree]
    exact List.mem_map_of_mem above
  have isKind' : scene.kind? ⟨list.source, around⟩ = some kind := by
    simpa [Scene.kind?, Scene.node?, isTree, SchemaTree.kind?] using isKind
  refine settled ?_
  by_cases open' : kind ∈ [ConstructKind.grouping, .augment]
  · refine ⟨_, List.mem_cons_of_mem _ above', ?_⟩
    simpa [isKind'] using open'
  · have operation : scene.IsOperation list := by
      refine ⟨_, List.mem_cons_of_mem _ above', kind, ?_, isKind'⟩
      have among : kind ∈ [.grouping, .augment] ++
          [ConstructKind.input, .output, .notification] := among
      exact (List.mem_append.mp among).resolve_left open'
    exact reached.isDefinition (connected.isWellFormed usable) operation

/-- A list of the top level in a set with another one inside an rpc. -/
theorem configuration_lists_have_keys_beside_rpc :
    ∃ compilation, compile .standard
        [⟨.inline, "module m \x7b namespace \"u:m\"; prefix m; " ++
            "list l \x7b key k; leaf k \x7b type string; \x7d \x7d " ++
            "rpc r \x7b output \x7b list row \x7b " ++
            "leaf v \x7b type string; \x7d \x7d \x7d \x7d \x7d"⟩] =
          .ok compilation ∧
      compilation.isValid = true ∧
      let scene := Scene.ofUnits compilation.units .interFile
      ∃ list body, scene.InDatastore list ∧
        scene.construct? list = some (.list body) ∧ body.config.value = true ∧
        ¬ scene.IsDefinition list ∧ body.keys ≠ [] := by
  generalize written : ([_] : Sources) = sources
  have checked : (compile .standard sources).toOption.any (fun compilation =>
      let scene := Scene.ofUnits compilation.units .interFile
      compilation.isValid && scene.kind? ⟨0, rootId⟩ == some .module &&
        (scene.children ⟨0, rootId⟩).contains ⟨0, 1⟩ &&
        scene.ancestors ⟨0, 1⟩ == [⟨0, rootId⟩] &&
        (scene.tree? 0).bind (·.keysOf? 1) == some ["k"] &&
        ((scene.construct? ⟨0, 1⟩).bind (·.config?)).any (·.value)) = true := by
    subst written
    decide +kernel
  cases compiled : compile .standard sources with
  | error error => simp [compiled, Except.toOption] at checked
  | ok compilation =>
      simp only [compiled, Except.toOption, Option.any_some, Bool.and_eq_true,
        beq_iff_eq, List.contains_iff_mem] at checked
      obtain ⟨⟨⟨⟨⟨valid, isRoot⟩, inside⟩, around⟩, keyed⟩, value⟩ := checked
      obtain ⟨body, isList, -⟩ := @Scene.list_of_keysOf? _ ⟨0, 1⟩ _ keyed
      have value : body.config.value = true := by
        rw [isList] at value
        exact value
      have reached : (Scene.ofUnits compilation.units .interFile).InDatastore
          ⟨0, 1⟩ := by
        refine .child (.root isRoot rfl) inside isList (.inl rfl) ?_
        intro config declared
        obtain rfl : body.config = config := Option.some.inj declared
        exact value
      have settled : ¬ (Scene.ofUnits compilation.units .interFile).IsDefinition
          ⟨0, 1⟩ := by
        rintro ⟨place, listed, isKind⟩
        rw [around, List.mem_pair] at listed
        obtain rfl | rfl := listed
        · simp [Scene.kind?_eq, isList, Construct.kind] at isKind
        · simp [isRoot] at isKind
      exact ⟨compilation, rfl, valid, _, body, reached, isList, value, settled,
        configuration_lists_have_keys compiled valid _ body reached isList value
          settled⟩

/-- A list without a key is accepted where its grouping is used for the
configuration. -/
theorem compile_accepts_keyless_list :
    ∃ compilation, compile .standard
        [⟨.inline, "module m \x7b namespace \"u:m\"; prefix m; " ++
            "grouping g \x7b list l \x7b leaf a \x7b type string; \x7d \x7d \x7d " ++
            "uses g; \x7d"⟩] = .ok compilation ∧
      compilation.isValid = true ∧
      let scene := Scene.ofUnits compilation.units .interFile
      ∃ list body, scene.InDatastore list ∧
        scene.construct? list = some (.list body) ∧ body.config.value = true ∧
        body.keys = [] := by
  generalize written : ([_] : Sources) = sources
  have checked : (compile .standard sources).toOption.any (fun compilation =>
      let scene := Scene.ofUnits compilation.units .interFile
      compilation.isValid && scene.kind? ⟨0, rootId⟩ == some .module &&
        (scene.children ⟨0, rootId⟩).contains ⟨0, 4⟩ &&
        scene.usesTarget? ⟨0, 4⟩ == some ⟨0, 1⟩ &&
        (scene.children ⟨0, 1⟩).contains ⟨0, 2⟩ &&
        (scene.tree? 0).bind (·.keysOf? 2) == some [] &&
        ((scene.construct? ⟨0, 2⟩).bind (·.config?)).any (·.value)) = true := by
    subst written
    decide +kernel
  cases compiled : compile .standard sources with
  | error error => simp [compiled, Except.toOption] at checked
  | ok compilation =>
      simp only [compiled, Except.toOption, Option.any_some, Bool.and_eq_true,
        beq_iff_eq, List.contains_iff_mem] at checked
      obtain ⟨⟨⟨⟨⟨⟨valid, isRoot⟩, inside⟩, isBound⟩, within⟩, keyless⟩, value⟩ :=
        checked
      obtain ⟨body, isList, keyless⟩ := @Scene.list_of_keysOf? _ ⟨0, 2⟩ _ keyless
      have value : body.config.value = true := by
        rw [isList] at value
        exact value
      obtain ⟨_, isUses, bound⟩ := Scene.usesTarget?_eq_some_iff.mp isBound
      refine ⟨compilation, rfl, valid, ⟨0, 2⟩, body, ?_, isList, value, keyless⟩
      refine .child (.uses (.root isRoot rfl) inside isUses bound) within isList
        (.inl rfl) ?_
      intro config declared
      obtain rfl : body.config = config := Option.some.inj declared
      exact value

end Compilation

end YangSchema
