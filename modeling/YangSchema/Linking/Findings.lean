import YangSchema.Linking.Settling
import YangSchema.Statement.Error
import YangSchema.Text.EditDistance

/-!
# What linking finds wrong

For every usable unit: references that could not be resolved or whose target
cannot be used, keys that are no leaves of their list, refinements that name no
node of their grouping, and identities that are derived from themselves through
others. The errors of a unit are reported in the order of their places.
-/

namespace YangSchema.Linking

/-- The kind of definition that a reference looks for by name. -/
def soughtKind : ReferenceKind → Option ConstructKind
  | .uses => some .grouping
  | .derivedType _ => some .typedef
  | .base | .identityref _ => some .identity
  | .ifFeature _ => some .feature
  | .leafref _ | .augment => none

/-- A similar name of the kind that a reference looks for. -/
def nearMiss (tree : SchemaTree) (item : Reference) : Option String :=
  match soughtKind item.kind with
  | none => none
  | some kind =>
      let name := String.ofList (Text.afterLast ':' item.text.toList)
      let candidates := tree.nodes.toList.filter fun node => node.kind == kind
      Text.suggestion name (candidates.map (·.name))

/-- Where a reference made on behalf of another place is written, or a near
miss for a name that was not found. -/
def referenceHint (scene : Scene) (unit : LinkUnit) (item : Reference) :
    Option String :=
  match item.origin with
  | some (.unionMember union _ _) =>
      ((scene.ancestors union).find? fun ref =>
        scene.kind? ref == some .typedef).map fun typedef =>
          s!"member of the union in typedef `{scene.nameOf typedef}`"
  | some (.grouping leaf _) =>
      some s!"path of leaf `{scene.nameOf leaf}` in the used grouping"
  | none => if item.isPending then nearMiss unit.tree item else none

/-- The error about a reference, if there is one. -/
def referenceError? (scene : Scene) (unit : LinkUnit) (item : Reference) :
    Option StatementError :=
  let problem (kind : DiagnosticKind) (detail : String) : StatementError :=
    { StatementError.atPlace kind item.kind.keyword (some item.text)
        item.position item.span detail with
      hint := referenceHint scene unit item }
  match item.state with
  | .unresolved => some (problem .unresolvedReference item.text)
  | .failed failure =>
      some (problem .dataModelConstraintViolation failure.message)
  | .resolved _ | .blocked => none

/-- Whether a list uses a grouping that has not been found. -/
def hasUnboundUses (tree : SchemaTree) (list : NodeId) : Bool :=
  (tree.children list).any fun child =>
    match tree.construct? child with
    | some (.uses body) => body.target.isNone
    | _ => false

/-- The error about a key that is no leaf of its list. -/
def keyError (node : SchemaNode) (body : ListBody) (key : String) :
    StatementError :=
  let (position, span) := body.keyPlace.getD (node.position, node.span)
  .atPlace .dataModelConstraintViolation "key"
    (some (" ".intercalate body.keys)) position span
    s!"key `{key}` is not a leaf of list `{node.name}`"

/-- The errors about the keys of a list that uses groupings. -/
def keyErrors (scene : Scene) (unit : LinkUnit) (list : NodeId) :
    List StatementError :=
  match unit.tree.node? list with
  | some node =>
      match node.construct with
      | .list body =>
          if hasUnboundUses unit.tree list then
            []
          else
            let children := scene.stepChildren .data ⟨unit.source, list⟩
            let isLeaf (key : String) : Bool :=
              children.any fun child =>
                scene.nameOf child == key && scene.kind? child == some .leaf
            (body.keys.filter fun key => !isLeaf key).map (keyError node body)
      | _ => []
  | none => []

/-- Whether a refinement names a node below a grouping. -/
def namesNode (scene : Scene) (grouping : NodeRef) (refine : Refine) : Bool :=
  match SchemaNodeId.parse refine.target with
  | .error _ => false
  | .ok path => (scene.follow .schema grouping path.steps).isOk

/-- The errors about the refinements of one node. -/
def refineErrors (scene : Scene) (node : SchemaNode) : List StatementError :=
  match node.construct with
  | .uses { target := some grouping, refines, .. } =>
      (refines.filter fun refine => !namesNode scene grouping refine).map
        fun refine =>
          (StatementError.atPlace .unresolvedReference "refine"
            (some refine.target) refine.position refine.span
            refine.target).withHint
              s!"refine paths are relative to grouping `{scene.nameOf grouping}`"
  | _ => []

/-- The identity that an identity is derived from. -/
def baseOf (scene : Scene) (identity : NodeRef) : Option NodeRef :=
  match scene.construct? identity with
  | some (.identity body) => body.baseTarget
  | _ => none

/-- Follows bases from `current` until they come back to `start`; the answer is
the identities met, or nothing where the chain ends or runs into a cycle that
`start` is not on. -/
def baseCycle (scene : Scene) (start : NodeRef) :
    Nat → List NodeRef → Option NodeRef → Option (List NodeRef)
  | 0, _, _ => none
  | _ + 1, _, none => none
  | bound + 1, visited, some current =>
      if current = start then some (visited ++ [start])
      else if visited.contains current then none
      else baseCycle scene start bound (visited ++ [current])
        (baseOf scene current)

/-- The error about an identity that is derived from itself through others. -/
def cycleErrors (scene : Scene) (unit : LinkUnit) (id : NodeId) :
    List StatementError :=
  let start : NodeRef := ⟨unit.source, id⟩
  match unit.tree.node? id,
      baseCycle scene start (scene.nodeCount + 2) [start]
        (baseOf scene start) with
  | some node, some cycle =>
      let chain := " -> ".intercalate (cycle.map scene.nameOf)
      [.atPlace .dataModelConstraintViolation "identity" (some node.name)
        node.position node.span s!"base chain `{chain}` is circular"]
  | _, _ => []

/-- The errors of one unit in the order in which they are found. -/
def unitErrors (scene : Scene) (unit : LinkUnit) : List StatementError :=
  unit.queue.filterMap (referenceError? scene unit) ++
    unit.deferredKeys.flatMap (keyErrors scene unit) ++
    unit.tree.nodes.toList.flatMap (refineErrors scene) ++
    unit.tree.ids.flatMap (cycleErrors scene unit)

/-- The errors of a unit in the order of their places. -/
def sortedErrors (scene : Scene) (unit : LinkUnit) : List StatementError :=
  (unitErrors scene unit).mergeSort fun first second =>
    first.span.start ≤ second.span.start

/-- Reports what linking found wrong in the usable units. -/
def findings (units : List LinkUnit) : Diagnostics :=
  let scene := Scene.ofUnits units .interFile
  (units.filter (·.usable)).flatMap fun unit =>
    (sortedErrors scene unit).map (·.toDiagnostic unit.source)

end YangSchema.Linking
