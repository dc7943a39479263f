import YangSchema.Linking.Scope

/-!
# Paths through the units

One step of a path goes to a child by its name. The children of a node are its
own, those of the groupings that it uses, and those of the augments that are
bound to it; submodules share the top level of the module that includes them.
Leafref paths see through choices and cases, schema node identifiers name
them.

An augment inside a `uses` adds to the grouping's nodes only where that `uses`
expands them: such pairs of a target and an augment form the overlay.
-/

namespace YangSchema

/-- Whether choices and cases are steps of their own. -/
inductive Walk where
  | data
  | schema
  deriving DecidableEq, Repr

namespace Scene

/-- Constructs that a step can name. -/
def isStep (kind : ConstructKind) : Bool :=
  [ConstructKind.container, .list, .leaf, .leafList, .anyxml, .choice, .case,
    .rpc, .input, .output, .notification].contains kind

/-- The augments declared inside a `uses`, each behind its target. -/
def usesAugments (scene : Scene) (uses : NodeRef) : List (NodeRef × NodeRef) :=
  (scene.children uses).filterMap fun child =>
    match scene.construct? child with
    | some (.augment body) => body.target.map fun target => (target, child)
    | _ => none

/-- The augments of `target` among pairs of a target and an augment. -/
def augmentsOf (target : NodeRef) (pairs : List (NodeRef × NodeRef)) :
    List NodeRef :=
  (pairs.filter (·.1 == target)).map (·.2)

/-- What one step below `at` can name, with the overlay in force and the
groupings that are being expanded. -/
def collect (scene : Scene) (walk : Walk) :
    Nat → NodeRef → List (NodeRef × NodeRef) → List NodeRef → List NodeRef
  | 0, _, _, _ => []
  | bound + 1, place, overlay, expanding =>
      let own := (scene.children place).flatMap fun child =>
        match scene.construct? child with
        | none => []
        | some (.uses body) =>
            match body.target with
            | none => []
            | some grouping =>
                if expanding.contains grouping then
                  []
                else
                  collect scene walk bound grouping
                    (overlay ++ scene.usesAugments child)
                    (grouping :: expanding)
        | some construct =>
            let kind := construct.kind
            if walk = .data ∧ (kind = .choice ∨ kind = .case) then
              collect scene walk bound child overlay expanding
            else if isStep kind then
              [child]
            else
              []
      let augments :=
        augmentsOf place scene.augments ++ augmentsOf place overlay
      own ++ augments.flatMap fun augment =>
        collect scene walk bound augment overlay expanding

/-- The usable submodules that share the top level at `place`. -/
def sharedRoots (scene : Scene) (place : NodeRef) : List NodeRef :=
  if place.node = rootId then
    match (scene.tree? place.source).bind (·.header?) with
    | some header =>
        ((header.includes.filterMap (·.resolved)).filter scene.isUsable).map
          fun source => ⟨source, rootId⟩
    | none => []
  else
    []

/-- Everything that one step below `place` can name. -/
def stepChildren (scene : Scene) (walk : Walk) (place : NodeRef) :
    List NodeRef :=
  (place :: scene.sharedRoots place).flatMap fun root =>
    scene.collect walk scene.walkBound root [] []

/-- The first child with a name. -/
def childNamed? (scene : Scene) (walk : Walk) (place : NodeRef)
    (name : String) : Option NodeRef :=
  (scene.stepChildren walk place).find? fun child =>
    match scene.node? child with
    | some node => node.name == name
    | none => false

/-- Follows named steps from `place`. -/
def follow (scene : Scene) (walk : Walk) (place : NodeRef) :
    List QualifiedName → Lookup NodeRef
  | [] => .ok place
  | step :: steps =>
      match scene.childNamed? walk place step.name with
      | some child => follow scene walk child steps
      | none => .error .notFound

/-- The root of the first unit that a qualifier can mean. -/
def moduleRoot (scene : Scene) (source : SourceId)
    (qualifier : Option String) : Lookup NodeRef := do
  match ← scene.scopes source qualifier with
  | first :: _ => return ⟨first, rootId⟩
  | [] => throw .notFound

/-- The nearest leaf or leaf-list at or above a node. -/
def contextLeaf (scene : Scene) (place : NodeRef) : NodeRef :=
  let isLeaf (ref : NodeRef) : Bool :=
    scene.kind? ref == some .leaf || scene.kind? ref == some .leafList
  ((place :: scene.ancestors place).find? isLeaf).getD place

/-- Whether a data path sees through a node. -/
def isTransparent (scene : Scene) (ref : NodeRef) : Bool :=
  scene.kind? ref == some .choice || scene.kind? ref == some .case

/-- Where one `..` step leads. -/
inductive StepOut where
  | aboveModule
  | unbound
  | into (place : NodeRef)
  /-- Out of a grouping, to wherever that is used. -/
  | grouping
  deriving DecidableEq, Repr

/-- Looks past choices and cases; a step out of an augment leads to its
target. -/
def stepOut (scene : Scene) (place : NodeRef) : StepOut :=
  match (scene.ancestors place).dropWhile scene.isTransparent with
  | [] => .aboveModule
  | parent :: _ =>
      match scene.construct? parent with
      | some (.augment body) =>
          match body.target with
          | some target => .into target
          | none => .unbound
      | some .grouping => .grouping
      | _ => .into parent

/-- One `..` step from `place`, with the `uses` that are still to be left. A
step out of a grouping goes on at the next of them. -/
def dataParent (scene : Scene) (path : String) (place : NodeRef) :
    List NodeRef → Lookup (NodeRef × List NodeRef)
  | [] =>
      match scene.stepOut place with
      | .aboveModule => .error (.failed (.aboveModule path))
      | .unbound => .error .notFound
      | .into parent => .ok (parent, [])
      | .grouping => .error (.failed (.leavesGrouping path))
  | uses :: rest =>
      match scene.stepOut place with
      | .aboveModule => .error (.failed (.aboveModule path))
      | .unbound => .error .notFound
      | .into parent => .ok (parent, uses :: rest)
      | .grouping => dataParent scene path uses rest

/-- So many `..` steps from `place`. -/
def climb (scene : Scene) (path : String) :
    Nat → NodeRef → List NodeRef → Lookup NodeRef
  | 0, place, _ => .ok place
  | count + 1, place, instances => do
      let (parent, rest) ← scene.dataParent path place instances
      climb scene path count parent rest

/-- The first qualifier of a path. -/
def firstQualifier (steps : List QualifiedName) : Option String :=
  steps.head?.bind (·.qualifier)

/-- The leaf that a leafref path means at `place`, for a leaf that `uses`
instantiate, the innermost `uses` first. -/
def leafref (scene : Scene) (place : NodeRef) (text : String)
    (uses : List NodeRef) : Lookup NodeRef := do
  let path ← (LeafrefPath.parse text).mapError fun error =>
    Miss.failed (.badPath error)
  let start ←
    if path.absolute then
      scene.moduleRoot place.source (firstQualifier path.steps)
    else
      scene.climb text path.up (scene.contextLeaf place) uses
  let target ← scene.follow .data start path.steps
  match scene.kind? target with
  | some .leaf | some .leafList => return target
  | some kind => throw (.failed (.notALeaf text kind))
  | none => throw .notFound

/-- The node where the target path of an augment starts. -/
def augmentStart (scene : Scene) (augment : NodeRef) (text : String)
    (path : SchemaNodeId) : Lookup NodeRef :=
  if path.absolute then
    scene.moduleRoot augment.source (firstQualifier path.steps)
  else
    match (scene.ancestors augment).head?.bind scene.construct? with
    | some (.uses body) =>
        match body.target with
        | some target => .ok target
        | none => .error .notFound
    | _ => .error (.failed (.descendantOutsideUses text))

/-- The node that the target path of an augment means. -/
def augmentTarget (scene : Scene) (augment : NodeRef) (text : String) :
    Lookup NodeRef := do
  let path ← (SchemaNodeId.parse text).mapError fun error =>
    Miss.failed (.badPath error)
  let start ← scene.augmentStart augment text path
  let target ← scene.follow .schema start path.steps
  match scene.kind? target with
  | some .container | some .list | some .choice | some .case | some .input
  | some .output | some .notification => return target
  | some kind => throw (.failed (.cannotAugment text kind))
  | none => throw .notFound

end Scene

end YangSchema
