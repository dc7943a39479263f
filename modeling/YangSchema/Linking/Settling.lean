import YangSchema.Linking.Outcome

/-!
# Linking until nothing changes

A round goes through the ranks. For each rank the outcomes of all pending
references are computed against the units as they are, then all are written
down; the next rank sees the new links. Rounds repeat until one changes
nothing. Across files, the groupings are then instantiated at their `uses`,
and the relative leafrefs which that brings in are linked as well.
-/

namespace YangSchema

namespace LinkUnit

/-- Links a node or a type to its target; a reference made on behalf of another
place links nothing. -/
def bindTarget (tree : SchemaTree) (item : Reference) (target : NodeRef) :
    SchemaTree :=
  if item.origin.isSome then
    tree
  else
    match item.kind with
    | .uses =>
        tree.modifyConstruct item.consumer fun
          | .uses body => .uses { body with target := some target }
          | construct => construct
    | .augment =>
        tree.modifyConstruct item.consumer fun
          | .augment body => .augment { body with target := some target }
          | construct => construct
    | .base =>
        tree.modifyConstruct item.consumer fun
          | .identity body => .identity { body with baseTarget := some target }
          | construct => construct
    | .ifFeature index =>
        tree.modifyMetadata item.consumer fun metadata =>
          { metadata with
            ifFeatures := metadata.ifFeatures.modify index fun feature =>
              { feature with target := some target } }
    | .identityref slot =>
        tree.modifyLinks slot fun links =>
          { links with identity := some target }
    | .leafref slot =>
        tree.modifyLinks slot fun links =>
          { links with leafrefTarget := some target }
    | .derivedType _ => tree

/-- Links a type to its typedef. -/
def bindDerivation (tree : SchemaTree) (item : Reference) (slot : TypeSlot)
    (derivation : Derivation) : SchemaTree :=
  if item.origin.isSome then
    tree
  else
    tree.modifyLinks slot fun links =>
      { links with
        typedef := some derivation.typedef
        effective := some derivation.effective
        identity := derivation.identity }

/-- The reference to the leafref path at the end of a typedef chain. -/
def chainLeafref (item : Reference) (slot : TypeSlot)
    (derivation : Derivation) : List Reference :=
  match derivation.leafref with
  | none => []
  | some path =>
      [{ Reference.ofText (.leafref slot) path item.consumer item.position
          item.span with origin := item.origin }]

/-- Whether a reference waits until the grouping around it is used. -/
def waitsForUses (tree : SchemaTree) (slot : TypeSlot)
    (reference : Reference) : Bool :=
  reference.kind.isLeafref && !isAbsolutePath reference.text &&
    tree.isWithin slot.node .grouping

/-- What a derived type adds to the queue. -/
def followUps (tree : SchemaTree) (item : Reference) (slot : TypeSlot)
    (derivation : Derivation) (members : List Reference) : List Reference :=
  (members ++ chainLeafref item slot derivation).filter fun reference =>
    !waitsForUses tree slot reference

/-- Writes the outcome of the reference at `index` down. -/
def apply (unit : LinkUnit) (index : Nat) (outcome : Outcome) : LinkUnit :=
  match unit.queue[index]? with
  | none => unit
  | some item =>
      match outcome with
      | .pending => unit
      | .blocked => { unit with queue := unit.queue.setState index .blocked }
      | .failed failure =>
          { unit with queue := unit.queue.setState index (.failed failure) }
      | .target target =>
          { unit with
            tree := bindTarget unit.tree item target
            queue := unit.queue.setState index (.resolved target) }
      | .derived derivation members =>
          match item.kind with
          | .derivedType slot =>
              let tree := bindDerivation unit.tree item slot derivation
              let queue :=
                unit.queue ++ followUps tree item slot derivation members
              { unit with
                tree
                queue := queue.setState index (.resolved derivation.typedef) }
          | _ => unit

end LinkUnit

namespace Linking

/-- An outcome with the places of its unit and of its reference. -/
structure Settled where
  unit : Nat
  index : Nat
  outcome : Outcome

/-- The outcomes of one rank that are not pending, unit by unit. -/
def rankOutcomes (units : List LinkUnit) (phase : LinkPhase) (rank : Nat) :
    List Settled :=
  let scene := Scene.ofUnits units phase
  units.zipIdx.flatMap fun (unit, place) =>
    if unit.usable then
      (unit.queue.pendingOfRank rank).filterMap fun index =>
        (unit.queue[index]?).bind fun item =>
          match scene.outcome unit.source item with
          | .pending => none
          | outcome => some ⟨place, index, outcome⟩
    else
      []

def applyAll (units : List LinkUnit) (outcomes : List Settled) :
    List LinkUnit :=
  outcomes.foldl (fun units settled =>
    units.modify settled.unit (·.apply settled.index settled.outcome)) units

/-- One round through the ranks from `rank` on; says whether any reference was
settled. -/
def roundFrom (phase : LinkPhase) :
    Nat → Nat → List LinkUnit → List LinkUnit × Bool
  | 0, _, units => (units, false)
  | ranks + 1, rank, units =>
      let outcomes := rankOutcomes units phase rank
      let (units, progress) :=
        roundFrom phase ranks (rank + 1) (applyAll units outcomes)
      (units, !outcomes.isEmpty || progress)

def round (phase : LinkPhase) (units : List LinkUnit) :
    List LinkUnit × Bool :=
  roundFrom phase ReferenceKind.rankCount 0 units

/-- Repeats rounds until one settles nothing, or a number of times. -/
def repeatRounds (phase : LinkPhase) : Nat → List LinkUnit → List LinkUnit
  | 0, units => units
  | bound + 1, units =>
      match round phase units with
      | (units, true) => repeatRounds phase bound units
      | (units, false) => units

def nodeTotal (units : List LinkUnit) : Nat :=
  units.foldl (fun total unit => total + unit.tree.size) 0

/-- Types that a node may declare: its own and the members of a union. -/
def typeCount (node : SchemaNode) : Nat :=
  match node.construct with
  | .union members => members.length + 1
  | _ => 1

/-- A bound on the number of types that the units declare. -/
def typeTotal (units : List LinkUnit) : Nat :=
  (units.flatMap (·.tree.nodes.toList)).foldl
    (fun total node => total + typeCount node) 0

/-- How many references can come from one reference: each level of typedefs
that it may still expand multiplies them by the number of types. -/
def weight (units : List LinkUnit) (item : Reference) : Nat :=
  Nat.pow (typeTotal units + 2)
    (nodeTotal units + 1 - (Scene.expandedTypedefs item).length)

/-- A bound on the number of references that can still be settled. -/
def potential (units : List LinkUnit) : Nat :=
  ((units.flatMap (·.queue)).filter (·.isPending)).foldl
    (fun total item => total + weight units item) 0

/-- Links everything that can be linked to what the units hold. -/
def settle (phase : LinkPhase) (units : List LinkUnit) : List LinkUnit :=
  repeatRounds phase (potential units + 1) units

/-- A relative leafref declared in a grouping, with the `uses` that instantiate
it, innermost first. -/
structure GroupingLeafref where
  leaf : NodeRef
  path : String
  uses : List NodeRef
  deriving DecidableEq, Repr

/-- The leafref paths that a type can carry: its own, those of its union's
members and those at the end of its typedef chain. The typedefs met on the way
are passed on, and none is expanded twice. -/
def leafrefPaths (scene : Scene) :
    Nat → List (NodeRef × TypeUse) → List NodeRef → List String
  | 0, _, _ => []
  | _ + 1, [], _ => []
  | bound + 1, (place, use) :: rest, typedefs =>
      match use.builtin with
      | some .leafref =>
          use.path.toList ++ leafrefPaths scene bound rest typedefs
      | some .union =>
          let union? : Option NodeRef :=
            use.members.map fun members => ⟨place.source, members⟩
          match union?, union?.bind scene.construct? with
          | some union, some (.union members) =>
              leafrefPaths scene bound
                (members.map (fun member => (union, member)) ++ rest) typedefs
          | _, _ => leafrefPaths scene bound rest typedefs
      | some _ => leafrefPaths scene bound rest typedefs
      | none =>
          match scene.derive place use with
          | .error _ => leafrefPaths scene bound rest typedefs
          | .ok derivation =>
              let further :=
                match derivation.effective.membersFrom with
                | none => none
                | some typedef =>
                    if typedefs.contains typedef then none
                    else (scene.type? typedef).map fun type => (typedef, type)
              derivation.leafref.toList ++
                match further with
                | none => leafrefPaths scene bound rest typedefs
                | some (typedef, type) =>
                    leafrefPaths scene bound ((typedef, type) :: rest)
                      (typedefs ++ [typedef])

/-- A bound on the number of types that the paths of one type can lead to: no
typedef and no union is expanded twice. -/
def pathBound (scene : Scene) : Nat :=
  let types := typeTotal scene.units + 2
  types * types

/-- The relative leafref paths that the type of a leaf can carry. -/
def relativePaths (scene : Scene) (leaf : NodeRef) : List String :=
  match scene.type? leaf with
  | none => []
  | some use =>
      (leafrefPaths scene (pathBound scene) [(leaf, use)] []).filter
        fun path => !isAbsolutePath path

/-- The relative leafrefs declared below a node of a grouping, with the `uses`
in force and the groupings that are being expanded. -/
def leafrefsBelow (scene : Scene) :
    Nat → NodeRef → List NodeRef → List NodeRef → List GroupingLeafref
  | 0, _, _, _ => []
  | bound + 1, place, chain, expanding =>
      (scene.children place).flatMap fun child =>
        match scene.construct? child with
        | none => []
        | some (.uses body) =>
            match body.target with
            | none => []
            | some target =>
                if expanding.contains target then
                  []
                else
                  leafrefsBelow scene bound target (child :: chain)
                    (target :: expanding)
        | some (.leaf _) | some (.leafList _) =>
            (relativePaths scene child).map fun path =>
              { leaf := child, path, uses := chain }
        | some .grouping | some (.typedef _) | some (.augment _) => []
        | some _ => leafrefsBelow scene bound child chain expanding

/-- The leafrefs that one `uses` outside of groupings instantiates. -/
def instances (scene : Scene) (unit : LinkUnit) (item : Reference) :
    List Reference :=
  match item.kind, item.state with
  | .uses, .resolved grouping =>
      if unit.tree.isWithin item.consumer .grouping then
        []
      else
        let uses : NodeRef := ⟨unit.source, item.consumer⟩
        (leafrefsBelow scene scene.walkBound grouping [uses] [grouping]).map
          fun leafref =>
            { Reference.ofText (.leafref ⟨item.consumer, none⟩) leafref.path
                item.consumer item.position item.span with
              origin := some (.grouping leafref.leaf leafref.uses) }
  | _, _ => []

/-- Queues a reference for every relative leafref of every grouping that is
used outside of groupings. -/
def instantiateGroupings (units : List LinkUnit) : List LinkUnit :=
  let scene := Scene.ofUnits units .interFile
  units.map fun unit =>
    if unit.usable then
      { unit with
        queue := unit.queue ++ unit.queue.flatMap (instances scene unit) }
    else
      unit

/-- Links everything that can be linked in a phase. -/
def link (phase : LinkPhase) (units : List LinkUnit) : List LinkUnit :=
  let settled := settle phase units
  match phase with
  | .intraFile => settled
  | .interFile => settle phase (instantiateGroupings settled)

end Linking

end YangSchema
