import Mathlib.Tactic.Common
import YangSchema.Linking.Steps
import YangSchema.Proofs.Linking.Scenes
import YangSchema.Proofs.Schema.Trees

/-!
# The tree of instances

The nodes that the units describe form a tree in which every `uses` stands for a
copy of its grouping.  A node of a grouping has an instance in every copy, so a
place of the tree is given by the way that leads to it:  from the top level of a
module through the nodes, the copies of groupings, the additions of augments and
the included submodules that it lies in.  An augment under a `uses` adds to one
copy only, and one at the top level only to the instance that its path selects.

Choices and cases are places on the way, but the instances of the tree look
through them.
-/

namespace YangSchema

/-- A place in the tree of instances. -/
inductive Spot where
  /-- The top level of a module. -/
  | root (module : SourceId)
  /-- What an included submodule adds to the top level. -/
  | part (whole : Spot) (submodule : SourceId)
  | child (place : Spot) (id : NodeId)
  /-- What a `uses` puts in its place. -/
  | copy (place : Spot) (id : NodeId) (grouping : NodeRef)
  /-- What an augment adds to a node, with the `uses` that instantiate it. -/
  | addition (target : Spot) (augment : NodeRef) (uses : List NodeRef)
  deriving DecidableEq, Repr

namespace Spot

/-- The node whose contents stand at a spot. -/
def ref : Spot → NodeRef
  | root source | part _ source => ⟨source, rootId⟩
  | child place id => ⟨place.ref.source, id⟩
  | copy _ _ grouping => grouping
  | addition _ augment _ => augment

/-- The chain of `uses` that instantiate a spot, the innermost first. -/
def uses : Spot → List NodeRef
  | root _ | part _ _ => []
  | child place _ => place.uses
  | copy place id _ => ⟨place.ref.source, id⟩ :: place.uses
  | addition _ _ uses => uses

/-- The nodes on the way to a spot, the last one first. -/
def trail : Spot → List NodeRef
  | root module => [(root module).ref]
  | part place submodule => (part place submodule).ref :: place.trail
  | child place id => (child place id).ref :: place.trail
  | copy place id grouping => (copy place id grouping).ref :: place.trail
  | addition place augment uses =>
      (addition place augment uses).ref :: place.trail

end Spot

namespace Scene

variable (scene : Scene)

/-- The trees of a scene are nested, and what has been bound in them is what it
can be bound to. -/
structure IsWellFormed : Prop where
  nested : ∀ unit ∈ scene.units, unit.tree.IsNested
  groupings : ∀ {uses : NodeRef} {body : UsesBody} {grouping : NodeRef},
    scene.construct? uses = some (.uses body) →
      body.target = some grouping → scene.kind? grouping = some .grouping
  augments : ∀ pair ∈ scene.augments, pair.2 ∈ scene.nodeRefs

/-- The module that a qualifier means in a unit. -/
inductive NamesModule (source : SourceId) (qualifier : Option String)
    (module : SourceId) : Prop
  | own {header : ModuleHeader}
      (declared : (scene.tree? source).bind (·.header?) = some header)
      (unqualified : qualifier.filter (· ≠ header.qualifier) = none)
      (isModule : scene.kind? ⟨source, rootId⟩ = some .module)
      (same : module = source)
  | including {header whole : ModuleHeader}
      (declared : (scene.tree? source).bind (·.header?) = some header)
      (unqualified : qualifier.filter (· ≠ header.qualifier) = none)
      (isSubmodule : scene.kind? ⟨source, rootId⟩ = some .submodule)
      (isModule : scene.kind? ⟨module, rootId⟩ = some .module)
      (includes : (scene.tree? module).bind (·.header?) = some whole)
      (included : source ∈ whole.includes.filterMap (·.resolved))
      (usable : scene.isUsable source = true)
  | imported {header : ModuleHeader} {name : String}
      (declared : (scene.tree? source).bind (·.header?) = some header)
      (qualified : qualifier.filter (· ≠ header.qualifier) = some name)
      (imports : (header.importFor? name).bind (·.resolved) = some module)
      (isModule : scene.kind? ⟨module, rootId⟩ = some .module)
      (usable : scene.isUsable module = true)

/-- The names of the schema nodes between two spots, the outer one first. -/
def namesBelow? (outer spot : Spot) : Option (List String) :=
  if spot = outer then
    some []
  else
    match spot with
    | .root _ => none
    | .part place _ | .copy place _ _ | .addition place _ _ =>
        namesBelow? outer place
    | .child place _ =>
        (namesBelow? outer place).map (· ++ [scene.nameOf spot.ref])

/-- The spots of the tree of instances. -/
inductive Placed : Spot → Prop
  | root {module : SourceId}
      (isModule : scene.kind? ⟨module, rootId⟩ = some .module) :
      Placed (.root module)
  | part {module submodule : SourceId} {header : ModuleHeader}
      (whole : Placed (.root module))
      (declared : (scene.tree? module).bind (·.header?) = some header)
      (included : submodule ∈ header.includes.filterMap (·.resolved))
      (usable : scene.isUsable submodule = true)
      (isSubmodule : scene.kind? ⟨submodule, rootId⟩ = some .submodule) :
      Placed (.part (.root module) submodule)
  | child {place : Spot} {id : NodeId} {kind : ConstructKind}
      (placed : Placed place)
      (inside : (Spot.child place id).ref ∈ scene.children place.ref)
      (isKind : scene.kind? (Spot.child place id).ref = some kind)
      (step : isStep kind = true) :
      Placed (.child place id)
  | copy {place : Spot} {id : NodeId} {body : UsesBody} {grouping : NodeRef}
      (placed : Placed place)
      (inside : ⟨place.ref.source, id⟩ ∈ scene.children place.ref)
      (isUses : scene.construct? ⟨place.ref.source, id⟩ = some (.uses body))
      (target : body.target = some grouping) :
      Placed (.copy place id grouping)
  /-- An augment at the top level adds to the instance that it selects. -/
  | addition {place : Spot} {id : NodeId} {augment : NodeRef}
      {body : AugmentBody} {path : SchemaNodeId} {module : SourceId}
      (placed : Placed (.child place id))
      (inside : augment ∈ scene.children ⟨augment.source, rootId⟩)
      (isAugment : scene.construct? augment = some (.augment body))
      (target : body.target = some (Spot.child place id).ref)
      (parsed : SchemaNodeId.parse body.targetPath = .ok path)
      (absolute : path.absolute = true)
      (names : scene.NamesModule augment.source (firstQualifier path.steps)
        module)
      (selects : scene.namesBelow? (.root module) (.child place id) =
        some (path.steps.map (·.name))) :
      Placed (.addition (.child place id) augment [])
  /-- An augment inside a `uses` adds to the copy that this makes. -/
  | usesAddition {outer place : Spot} {uses id : NodeId} {grouping : NodeRef}
      {augment : NodeRef} {body : AugmentBody} {path : SchemaNodeId}
      (copied : Placed (.copy outer uses grouping))
      (placed : Placed (.child place id))
      (inside : augment ∈ scene.children ⟨outer.ref.source, uses⟩)
      (isAugment : scene.construct? augment = some (.augment body))
      (target : body.target = some (Spot.child place id).ref)
      (parsed : SchemaNodeId.parse body.targetPath = .ok path)
      (descends : path.absolute = false)
      (selects : scene.namesBelow? (.copy outer uses grouping)
        (.child place id) = some (path.steps.map (·.name))) :
      Placed (.addition (.child place id) augment outer.uses)

/-- The instance that a spot lies in, or is. -/
def host : Spot → Spot
  | .root module => .root module
  | .part place _ | .copy place _ _ | .addition place _ _ => host place
  | .child place id =>
      if scene.isTransparent (Spot.child place id).ref then host place
      else .child place id

/-- The instances directly inside an instance. -/
def Contains (outer inner : Spot) : Prop :=
  ∃ place id, inner = .child place id ∧ scene.Placed inner ∧
    scene.isTransparent inner.ref = false ∧ scene.host place = outer

/-- Instances side by side have different names. -/
def HasDistinctSiblings : Prop :=
  ∀ {outer inner inner' : Spot}, scene.Contains outer inner →
    scene.Contains outer inner' →
      scene.nameOf inner.ref = scene.nameOf inner'.ref → inner = inner'

/-- So many `..` steps up from an instance. -/
def ascend? : Nat → Spot → Option Spot
  | 0, spot => some spot
  | count + 1, .child place _ => ascend? count (scene.host place)
  | _ + 1, _ => none

/-- Named steps down from an instance. -/
inductive Descends : Spot → List QualifiedName → Spot → Prop
  | here {spot : Spot} : Descends spot [] spot
  | step {outer inner found : Spot} {step : QualifiedName}
      {steps : List QualifiedName} (contains : scene.Contains outer inner)
      (named : scene.nameOf inner.ref = step.name)
      (descends : Descends inner steps found) :
      Descends outer (step :: steps) found

/-- Where the named steps of a leafref path begin. -/
def StartsAt (leaf : Spot) (path : LeafrefPath) (start : Spot) : Prop :=
  if path.absolute then
    ∃ module, start = .root module ∧
      scene.NamesModule leaf.ref.source (firstQualifier path.steps) module
  else
    scene.ascend? path.up leaf = some start

/-- A leafref path leads from one instance to another one. -/
def Reaches (leaf : Spot) (path : LeafrefPath) (found : Spot) : Prop :=
  (scene.kind? found.ref).any isLeafKind = true ∧
    ∃ start, scene.StartsAt leaf path start ∧
      scene.Descends start path.steps found

end Scene

end YangSchema
