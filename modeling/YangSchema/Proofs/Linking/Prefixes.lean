import YangSchema.Compilation
import YangSchema.Proofs.Instances.Contents
import YangSchema.Proofs.Linking.Scenes

/-!
# Prefixes in paths

The prefix of the first step of an absolute path leads to the unit where the path
starts, so it has to be declared.  The prefixes of all other steps are passed
over:  a step goes to the first node of its name, and whose node this is depends
on the order in which nodes are contributed.  What a place has of its own comes
first, then what augments add to it, in the order of the units.
-/

namespace YangSchema

namespace Scene

variable {scene : Scene} {walk : Walk} {place augment target : NodeRef}
  {source : SourceId} {qualifier : String}

/-- A prefix is the own one of a unit or that of one of its imports. -/
def KnowsQualifier (scene : Scene) (source : SourceId)
    (qualifier : String) : Prop :=
  ∃ header, (scene.tree? source).bind (·.header?) = some header ∧
    (qualifier = header.qualifier ∨
      ∃ declaration ∈ header.imports, declaration.qualifier = qualifier)

instance (source : SourceId) (qualifier : String) :
    Decidable (scene.KnowsQualifier source qualifier) :=
  decidable_of_iff
    (((scene.tree? source).bind (·.header?)).any fun header =>
      qualifier == header.qualifier ||
        header.imports.any (·.qualifier == qualifier)) <| by
    simp [KnowsQualifier, Option.any_eq_true]

/-- The name of the module that a unit belongs to. -/
def moduleOf? (scene : Scene) (source : SourceId) : Option String :=
  ((scene.tree? source).bind (·.root?)).bind fun root =>
    match root.construct with
    | .module _ => some root.name
    | .submodule header => header.belongsTo.map (·.module)
    | _ => none

/-- What one step below a place can name, each node with the innermost augment
that adds it there, if one does. -/
def contributed (scene : Scene) (walk : Walk) :
    Nat → Option NodeRef → NodeRef → List (NodeRef × NodeRef) → List NodeRef →
      List (Option NodeRef × NodeRef)
  | 0, _, _, _, _ => []
  | bound + 1, adding, place, overlay, expanding =>
      let own := (scene.children place).flatMap fun child =>
        match scene.construct? child with
        | none => []
        | some (.uses body) =>
            match body.target with
            | none => []
            | some grouping =>
                if expanding.contains grouping then
                  []
                else
                  contributed scene walk bound adding grouping
                    (overlay ++ scene.usesAugments child)
                    (grouping :: expanding)
        | some construct =>
            let kind := construct.kind
            if walk = .data ∧ (kind = .choice ∨ kind = .case) then
              contributed scene walk bound adding child overlay expanding
            else if isStep kind then
              [(adding, child)]
            else
              []
      let augments :=
        augmentsOf place scene.augments ++ augmentsOf place overlay
      own ++ augments.flatMap fun augment =>
        contributed scene walk bound (some augment) augment overlay expanding

/-- Everything that one step below a place can name, with the augments that add
it. -/
def contributions (scene : Scene) (walk : Walk) (place : NodeRef) :
    List (Option NodeRef × NodeRef) :=
  (place :: scene.sharedRoots place).flatMap fun root =>
    scene.contributed walk scene.walkBound none root [] []

/-- The module that contributes a node to a place:  that of the augment that adds
it, or else that of the place. -/
def contributor? (scene : Scene) (place : NodeRef) (adding : Option NodeRef) :
    Option String :=
  scene.moduleOf? (adding.getD place).source

theorem map_snd_contributed (bound : Nat) (adding : Option NodeRef)
    (place : NodeRef) (overlay : List (NodeRef × NodeRef))
    (expanding : List NodeRef) :
    (scene.contributed walk bound adding place overlay expanding).map (·.2) =
      scene.collect walk bound place overlay expanding := by
  induction bound generalizing adding place overlay expanding with
  | zero => rfl
  | succ bound ih =>
      rw [contributed, collect]
      simp only [List.map_append, List.map_flatMap, ih]
      congr 1
      refine List.flatMap_congr fun child _ => ?_
      cases is : scene.construct? child with
      | none => rfl
      | some construct =>
          cases construct with
          | uses body =>
              dsimp only
              cases body.target with
              | none => rfl
              | some grouping =>
                  dsimp only
                  split
                  · rfl
                  · exact ih ..
          | _ =>
              dsimp only
              split
              · exact ih ..
              · split <;> rfl

theorem map_snd_contributions (place : NodeRef) :
    (scene.contributions walk place).map (·.2) =
      scene.stepChildren walk place := by
  simp only [contributions, stepChildren, List.map_flatMap, map_snd_contributed]

/-- Where an undeclared prefix is looked up, nothing is found. -/
theorem scopes_of_undeclared (undeclared : ¬ scene.KnowsQualifier source qualifier) :
    scene.scopes source (some qualifier) = .error .notFound := by
  unfold scopes
  split
  · rfl
  next header declared =>
    have other : qualifier ≠ header.qualifier := fun own =>
      undeclared ⟨header, declared, .inl own⟩
    have unimported : header.importFor? qualifier = none := by
      refine List.find?_eq_none.mpr fun declaration listed named => ?_
      exact undeclared
        ⟨header, declared, .inr ⟨declaration, listed, by simpa using named⟩⟩
    simp [Option.filter, other, unimported]

theorem moduleRoot_of_undeclared
    (undeclared : ¬ scene.KnowsQualifier source qualifier) :
    scene.moduleRoot source (some qualifier) = .error .notFound := by
  simp [moduleRoot, scopes_of_undeclared undeclared, bind, Except.bind]

/-- A path leads on from where its front part leads to. -/
theorem follow_append {front back : List QualifiedName} :
    scene.follow walk place (front ++ back) = .ok target ↔
      ∃ middle, scene.follow walk place front = .ok middle ∧
        scene.follow walk middle back = .ok target := by
  induction front generalizing place with
  | nil => simp [follow]
  | cons step front ih =>
      simp only [List.cons_append, follow]
      cases scene.childNamed? walk place step.name with
      | none => simp
      | some child => exact ih

/-- Among what is contributed to a place under a name, a module comes first:
whatever stands in front of one of its nodes is its own, too. -/
def IsFirst (scene : Scene) (walk : Walk) (place : NodeRef)
    (name module : String) : Prop :=
  ∃ front entry back, scene.contributions walk place = front ++ entry :: back ∧
    (∃ node, scene.node? entry.2 = some node ∧ node.name = name) ∧
    scene.contributor? place entry.1 = some module ∧
    ∀ other ∈ front, scene.nameOf other.2 = name →
      scene.contributor? place other.1 = some module

/-- A step goes to what has been contributed first under its name. -/
theorem childNamed?_contributed {child : NodeRef} {name : String}
    (found : scene.childNamed? walk place name = some child) :
    ∃ adding, (adding, child) ∈ scene.contributions walk place ∧
      scene.nameOf child = name ∧ ∀ module, scene.IsFirst walk place name module →
        scene.contributor? place adding = some module := by
  have named := (childNamed?_found found).2
  rw [childNamed?, ← map_snd_contributions, List.find?_map] at found
  obtain ⟨⟨adding, child⟩, first, rfl⟩ := Option.map_eq_some_iff.mp found
  refine ⟨adding, List.mem_of_find?_eq_some first, named, ?_⟩
  rintro module ⟨front, entry, back, listed, ⟨node, known, rfl⟩, own, before⟩
  rw [listed, List.find?_append, Option.or_eq_some_iff] at first
  obtain inFront | ⟨-, here⟩ := first
  · exact before _ (List.mem_of_find?_eq_some inFront) named
  · have same : entry = (adding, child) := by
      simpa [known] using here
    rwa [same] at own

/-- An absolute path whose first prefix is not declared leads nowhere.  Each step
of a path that leads somewhere goes to a node of its name, and this is contributed
by the module that comes first under the name. -/
theorem paths_honour_prefixes (scene : Scene) :
    (∀ place text uses path qualifier, LeafrefPath.parse text = .ok path →
      path.absolute = true → firstQualifier path.steps = some qualifier →
      ¬ scene.KnowsQualifier place.source qualifier →
        scene.leafref place text uses = .error .notFound) ∧
    (∀ augment text path qualifier, SchemaNodeId.parse text = .ok path →
      path.absolute = true → firstQualifier path.steps = some qualifier →
      ¬ scene.KnowsQualifier augment.source qualifier →
        scene.augmentTarget augment text = .error .notFound) ∧
    ∀ walk start front step back target,
      scene.follow walk start (front ++ step :: back) = .ok target →
      ∃ parent adding child, scene.follow walk start front = .ok parent ∧
        (adding, child) ∈ scene.contributions walk parent ∧
        scene.nameOf child = step.name ∧
        scene.follow walk child back = .ok target ∧
        ∀ module, scene.IsFirst walk parent step.name module →
          scene.contributor? parent adding = some module := by
  refine ⟨?_, ?_, fun walk start front step back target led => ?_⟩
  · intro place text uses path qualifier parsed absolute first undeclared
    simp [leafref, parsed, Except.mapError, absolute, first,
      moduleRoot_of_undeclared undeclared, bind, Except.bind]
  · intro augment text path qualifier parsed absolute first undeclared
    simp [augmentTarget, augmentStart, parsed, Except.mapError, absolute, first,
      moduleRoot_of_undeclared undeclared, bind, Except.bind]
  · obtain ⟨parent, before, led⟩ := follow_append.mp led
    unfold follow at led
    split at led
    next child found =>
      obtain ⟨adding, listed, named, comesFirst⟩ := childNamed?_contributed found
      exact ⟨parent, adding, child, before, listed, named, led, comesFirst⟩
    · simp at led

/-- A node that two modules add to a container of a third one. -/
theorem paths_honour_prefixes_added :
    ∃ compilation, compile .standard
        [⟨.inline, "module m \x7b namespace \"u:m\"; prefix m; " ++
            "container c; \x7d"⟩,
          ⟨.inline, "module y \x7b namespace \"u:y\"; prefix y; " ++
            "import m \x7b prefix m; \x7d " ++
            "augment \"/m:c\" \x7b leaf n \x7b type string; \x7d \x7d \x7d"⟩,
          ⟨.inline, "module x \x7b namespace \"u:x\"; prefix x; " ++
            "import m \x7b prefix m; \x7d " ++
            "augment \"/m:c\" \x7b leaf n \x7b type string; \x7d \x7d \x7d"⟩] =
          .ok compilation ∧
      let scene := Scene.ofUnits compilation.units .interFile
      scene.leafref ⟨1, 2⟩ "/zz:c/n" [] = .error .notFound ∧
      scene.augmentTarget ⟨1, 1⟩ "/zz:c" = .error .notFound ∧
      ∃ adding child, (adding, child) ∈ scene.contributions .data ⟨0, 1⟩ ∧
        scene.nameOf child = "n" ∧
        scene.contributor? ⟨0, 1⟩ adding = some "y" := by
  generalize written : ([_, _, _] : Sources) = sources
  have checked : (compile .standard sources).toOption.any (fun compilation =>
      let scene := Scene.ofUnits compilation.units .interFile
      !decide (scene.KnowsQualifier 1 "zz") &&
        scene.contributions .data ⟨0, 1⟩ ==
          [(some ⟨1, 1⟩, ⟨1, 2⟩), (some ⟨2, 1⟩, ⟨2, 2⟩)] &&
        (scene.node? ⟨1, 2⟩).any (·.name == "n") &&
        scene.moduleOf? 1 == some "y" &&
        decide (scene.follow .data ⟨0, 0⟩ [⟨some "m", "c"⟩] = .ok ⟨0, 1⟩) &&
        decide (scene.follow .data ⟨0, 0⟩
          [⟨some "m", "c"⟩, ⟨some "y", "n"⟩] = .ok ⟨1, 2⟩)) = true := by
    subst written
    decide +kernel
  cases compiled : compile .standard sources with
  | error error => simp [compiled, Except.toOption] at checked
  | ok compilation =>
      simp only [compiled, Except.toOption, Option.any_some, Bool.and_eq_true,
        Bool.not_eq_true', decide_eq_true_eq, decide_eq_false_iff_not, beq_iff_eq,
        Option.any_eq_true] at checked
      obtain ⟨⟨⟨⟨⟨undeclared, listed⟩, node, known, name⟩, isModule⟩, toParent⟩,
        led⟩ := checked
      obtain ⟨leafrefs, augments, steps⟩ :=
        paths_honour_prefixes (Scene.ofUnits compilation.units .interFile)
      have leafrefPath : LeafrefPath.parse "/zz:c/n" =
          .ok ⟨true, 0, [⟨some "zz", "c"⟩, ⟨none, "n"⟩]⟩ := by decide +kernel
      have augmentPath : SchemaNodeId.parse "/zz:c" =
          .ok ⟨true, [⟨some "zz", "c"⟩]⟩ := by decide +kernel
      refine ⟨compilation, rfl,
        leafrefs ⟨1, 2⟩ _ [] _ "zz" leafrefPath rfl rfl undeclared,
        augments ⟨1, 1⟩ _ _ "zz" augmentPath rfl rfl undeclared, ?_⟩
      obtain ⟨parent, adding, child, before, among, named, -, comesFirst⟩ :=
        steps .data ⟨0, 0⟩ [⟨some "m", "c"⟩] ⟨some "y", "n"⟩ [] ⟨1, 2⟩ led
      obtain rfl : ⟨0, 1⟩ = parent := Except.ok.inj (toParent.symm.trans before)
      exact ⟨adding, child, among, named, comesFirst "y"
        ⟨[], _, _, listed, ⟨node, known, name⟩, isModule, List.forall_mem_nil _⟩⟩

/-- A prefix that is not declared, and one that is, but not heeded. -/
theorem compile_ignores_prefixes :
    (∃ compilation, compile .standard
        [⟨.inline, "module m \x7b namespace \"u:m\"; prefix m; " ++
            "container c \x7b leaf x \x7b type string; \x7d \x7d " ++
            "leaf r \x7b type leafref \x7b path \"/m:c/zz:x\"; \x7d \x7d \x7d"⟩] =
          .ok compilation ∧
      compilation.isValid = true ∧
      let scene := Scene.ofUnits compilation.units .interFile
      ¬ scene.KnowsQualifier 0 "zz" ∧
        scene.leafref ⟨0, 3⟩ "/m:c/zz:x" [] = .ok ⟨0, 2⟩) ∧
    ∃ compilation, compile .standard
        [⟨.inline, "module m \x7b namespace \"u:m\"; prefix m; " ++
            "container c; \x7d"⟩,
          ⟨.inline, "module x \x7b namespace \"u:x\"; prefix x; " ++
            "import m \x7b prefix m; \x7d " ++
            "augment \"/m:c\" \x7b leaf n \x7b type string; \x7d \x7d \x7d"⟩,
          ⟨.inline, "module y \x7b namespace \"u:y\"; prefix y; " ++
            "import m \x7b prefix m; \x7d " ++
            "augment \"/m:c\" \x7b leaf n \x7b type string; \x7d \x7d " ++
            "leaf r \x7b type leafref \x7b path \"/m:c/y:n\"; \x7d \x7d \x7d"⟩] =
          .ok compilation ∧
      compilation.isValid = true ∧
      let scene := Scene.ofUnits compilation.units .interFile
      scene.leafref ⟨2, 3⟩ "/m:c/y:n" [] = .ok ⟨1, 2⟩ ∧
        scene.contributions .data ⟨0, 1⟩ =
          [(some ⟨1, 1⟩, ⟨1, 2⟩), (some ⟨2, 1⟩, ⟨2, 2⟩)] ∧
        scene.nameOf ⟨2, 2⟩ = "n" ∧
        scene.contributor? ⟨0, 1⟩ (some ⟨1, 1⟩) = some "x" ∧
        scene.contributor? ⟨0, 1⟩ (some ⟨2, 1⟩) = some "y" := by
  constructor
  · generalize written : ([_] : Sources) = sources
    have checked : (compile .standard sources).toOption.any (fun compilation =>
        let scene := Scene.ofUnits compilation.units .interFile
        compilation.isValid && decide (¬ scene.KnowsQualifier 0 "zz") &&
          decide (scene.leafref ⟨0, 3⟩ "/m:c/zz:x" [] = .ok ⟨0, 2⟩)) = true := by
      subst written
      decide +kernel
    cases compiled : compile .standard sources with
    | error error => simp [compiled, Except.toOption] at checked
    | ok compilation =>
        simp only [compiled, Except.toOption, Option.any_some, Bool.and_eq_true,
          decide_eq_true_eq] at checked
        exact ⟨compilation, rfl, checked.1.1, checked.1.2, checked.2⟩
  · generalize written : ([_, _, _] : Sources) = sources
    have checked : (compile .standard sources).toOption.any (fun compilation =>
        let scene := Scene.ofUnits compilation.units .interFile
        compilation.isValid &&
          decide (scene.leafref ⟨2, 3⟩ "/m:c/y:n" [] = .ok ⟨1, 2⟩) &&
          scene.contributions .data ⟨0, 1⟩ ==
            [(some ⟨1, 1⟩, ⟨1, 2⟩), (some ⟨2, 1⟩, ⟨2, 2⟩)] &&
          scene.nameOf ⟨2, 2⟩ == "n" &&
          scene.contributor? ⟨0, 1⟩ (some ⟨1, 1⟩) == some "x" &&
          scene.contributor? ⟨0, 1⟩ (some ⟨2, 1⟩) == some "y") = true := by
      subst written
      decide +kernel
    cases compiled : compile .standard sources with
    | error error => simp [compiled, Except.toOption] at checked
    | ok compilation =>
        simp only [compiled, Except.toOption, Option.any_some, Bool.and_eq_true,
          decide_eq_true_eq, beq_iff_eq] at checked
        obtain ⟨⟨⟨⟨⟨valid, led⟩, listed⟩, named⟩, first⟩, second⟩ := checked
        exact ⟨compilation, rfl, valid, led, listed, named, first, second⟩

end Scene

end YangSchema
