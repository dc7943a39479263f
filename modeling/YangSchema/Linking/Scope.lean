import YangSchema.Linking.Reference

/-!
# What a name can mean

Linking looks at several units at once. Inside one file only the unit itself
is visible; across files a name without a qualifier, or with the unit's own,
also reaches the submodules that the unit includes, and any other qualifier
must be that of an import. Nothing is found in a unit that is not usable: a
name that leads there is blocked instead.

Groupings and typedefs are looked up in the enclosing nodes from the innermost
outwards, then at the top levels; identities and features at the top levels
only.
-/

namespace YangSchema

/-- Which units a name can reach. -/
inductive LinkPhase where
  | intraFile
  | interFile
  deriving DecidableEq, Repr

/-- One unit that takes part in linking. -/
structure LinkUnit where
  tree : SchemaTree
  queue : ReferenceQueue
  /-- False for a unit that failed, which is neither linked nor linked into. -/
  usable : Bool
  /-- Lists whose keys are checked after linking. -/
  deferredKeys : List NodeId
  deriving DecidableEq, Repr

def LinkUnit.source (unit : LinkUnit) : SourceId :=
  unit.tree.source

/-- Why a lookup found no target. -/
inductive Miss where
  | notFound
  | blocked
  | failed (failure : LinkFailure)
  deriving DecidableEq, Repr

abbrev Lookup (α : Type) :=
  Except Miss α

/-- The units as one round of linking sees them. -/
structure Scene where
  units : List LinkUnit
  phase : LinkPhase
  /-- Pairs of a target and an augment at the top level that is bound to it. -/
  augments : List (NodeRef × NodeRef)

namespace Scene

/-- The bound augments at the top level of a tree, each behind its target. -/
def topAugments (tree : SchemaTree) : List (NodeRef × NodeRef) :=
  tree.ids.filterMap fun id =>
    match tree.node? id with
    | some { construct := .augment body, ancestors := parent :: _, .. } =>
        match body.target, (tree.kind? parent).any (·.isModule) with
        | some target, true => some (target, ⟨tree.source, id⟩)
        | _, _ => none
    | _ => none

def ofUnits (units : List LinkUnit) (phase : LinkPhase) : Scene :=
  { units, phase
    augments := (units.filter (·.usable)).flatMap fun unit =>
      topAugments unit.tree }

def unit? (scene : Scene) (source : SourceId) : Option LinkUnit :=
  scene.units.find? (·.source == source)

def tree? (scene : Scene) (source : SourceId) : Option SchemaTree :=
  (scene.unit? source).map (·.tree)

def node? (scene : Scene) (ref : NodeRef) : Option SchemaNode :=
  (scene.tree? ref.source).bind (·.node? ref.node)

def nameOf (scene : Scene) (ref : NodeRef) : String :=
  match scene.node? ref with
  | some node => node.name
  | none => ""

def kind? (scene : Scene) (ref : NodeRef) : Option ConstructKind :=
  (scene.node? ref).map (·.kind)

def construct? (scene : Scene) (ref : NodeRef) : Option Construct :=
  (scene.node? ref).map (·.construct)

def type? (scene : Scene) (ref : NodeRef) : Option TypeUse :=
  (scene.construct? ref).bind (·.type?)

/-- The enclosing nodes of a node, innermost first. -/
def ancestors (scene : Scene) (ref : NodeRef) : List NodeRef :=
  match scene.tree? ref.source with
  | some tree => (tree.ancestors ref.node).map fun id => ⟨ref.source, id⟩
  | none => []

def children (scene : Scene) (ref : NodeRef) : List NodeRef :=
  match scene.tree? ref.source with
  | some tree => (tree.children ref.node).map fun id => ⟨ref.source, id⟩
  | none => []

def isUsable (scene : Scene) (source : SourceId) : Bool :=
  (scene.unit? source).any (·.usable)

/-- The number of nodes of all units. -/
def nodeCount (scene : Scene) : Nat :=
  scene.units.foldl (fun total unit => total + unit.tree.size) 0

/-- A bound on the nesting of a walk that descends into groupings and augments
but never twice into one grouping. -/
def walkBound (scene : Scene) : Nat :=
  (scene.nodeCount + 1) * (scene.nodeCount + 1)

/-- The sources in which a name with a qualifier is looked up. -/
def scopes (scene : Scene) (source : SourceId) (qualifier : Option String) :
    Lookup (List SourceId) :=
  match (scene.tree? source).bind (·.header?) with
  | none => .error .notFound
  | some header =>
      match qualifier.filter (· ≠ header.qualifier) with
      | none =>
          match scene.phase with
          | .intraFile => .ok [source]
          | .interFile =>
              .ok (source :: header.includes.filterMap (·.resolved))
      | some qualifier =>
          match (header.importFor? qualifier).bind (·.resolved) with
          | none => .error .notFound
          | some imported =>
              if scene.isUsable imported then .ok [imported]
              else .error .blocked

/-- The first of the sources that has a top-level node of a kind and a name;
`blocked` says whether an unusable unit has been passed over. -/
def searchFrom (scene : Scene) (kind : ConstructKind) (name : String)
    (blocked : Bool) : List SourceId → Lookup NodeRef
  | [] => .error (if blocked then .blocked else .notFound)
  | source :: rest =>
      match scene.unit? source with
      | none => searchFrom scene kind name blocked rest
      | some unit =>
          if !unit.usable then
            searchFrom scene kind name true rest
          else
            match unit.tree.findChild? rootId kind name with
            | some id => .ok ⟨source, id⟩
            | none => searchFrom scene kind name blocked rest

/-- Looks a name up at the top levels. -/
def topLevel (scene : Scene) (source : SourceId) (name : QualifiedName)
    (kind : ConstructKind) : Lookup NodeRef := do
  let scopes ← scene.scopes source name.qualifier
  scene.searchFrom kind name.name false scopes

/-- The innermost enclosing node of `ref` with a child of a kind and a name. -/
def enclosing? (scene : Scene) (ref : NodeRef) (kind : ConstructKind)
    (name : String) : Option NodeRef :=
  match scene.tree? ref.source with
  | none => none
  | some tree =>
      ((tree.ancestors ref.node).findSome? fun ancestor =>
        tree.findChild? ancestor kind name).map fun id => ⟨ref.source, id⟩

/-- Looks a name up in the enclosing nodes, then at the top levels. -/
def lexical (scene : Scene) (ref : NodeRef) (name : QualifiedName)
    (kind : ConstructKind) : Lookup NodeRef := do
  let scopes ← scene.scopes ref.source name.qualifier
  let nested :=
    if scopes.head? = some ref.source then
      scene.enclosing? ref kind name.name
    else
      none
  match nested with
  | some found => return found
  | none => scene.searchFrom kind name.name false scopes

/-- The grouping that a `uses` names, unless it encloses the `uses`. -/
def grouping (scene : Scene) (uses : NodeRef) (name : QualifiedName) :
    Lookup NodeRef := do
  let target ← scene.lexical uses name .grouping
  if target ∈ scene.ancestors uses then
    throw (.failed (.recursiveGrouping name.name))
  return target

end Scene

end YangSchema
