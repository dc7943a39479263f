import Mathlib.Algebra.GroupWithZero.Nat
import Mathlib.Data.List.Nodup
import Mathlib.Data.List.Perm.Subperm
import Mathlib.Tactic.Common
import YangSchema.Linking.Steps
import YangSchema.Proofs.Except
import YangSchema.Proofs.Schema.Trees

/-!
# Looking nodes up in a scene

The nodes of a scene are those of its units.  What a scene knows about a node it
reads off the tree of the first unit with the source of the node.
-/

namespace YangSchema

/-- A total that is counted up. -/
theorem foldl_add_eq {α : Type} (count : α → Nat) (items : List α)
    (start : Nat) :
    items.foldl (fun total item => total + count item) start =
      start + (items.map count).sum := by
  induction items generalizing start with
  | nil => simp
  | cons item rest ih => simp [ih, Nat.add_assoc]

namespace Scene

variable {scene : Scene} {place : NodeRef}

/-- The nodes of all units. -/
def nodeRefs (scene : Scene) : List NodeRef :=
  scene.units.flatMap fun unit =>
    unit.tree.ids.map fun id => ⟨unit.source, id⟩

/-- A kind of node that a leafref can refer to. -/
def isLeafKind (kind : ConstructKind) : Bool :=
  kind == .leaf || kind == .leafList

/-- The node where the lookup begins with the named steps of a path. -/
def leafrefStart (scene : Scene) (path : LeafrefPath) (place : NodeRef)
    (text : String) (uses : List NodeRef) : Lookup NodeRef :=
  if path.absolute then
    scene.moduleRoot place.source (firstQualifier path.steps)
  else
    scene.climb text path.up (scene.contextLeaf place) uses

theorem unit?_mem {source : SourceId} {unit : LinkUnit}
    (found : scene.unit? source = some unit) :
    unit ∈ scene.units ∧ unit.source = source :=
  ⟨List.mem_of_find?_eq_some found, by simpa using List.find?_some found⟩

theorem tree?_mem {source : SourceId} {tree : SchemaTree}
    (found : scene.tree? source = some tree) :
    ∃ unit ∈ scene.units, unit.tree = tree ∧ unit.source = source := by
  obtain ⟨unit, known, rfl⟩ := Option.map_eq_some_iff.mp found
  exact ⟨unit, (unit?_mem known).1, rfl, (unit?_mem known).2⟩

/-- A unit is the one that is found at its source. -/
theorem unit?_of_mem (distinct : (scene.units.map (·.source)).Nodup)
    {unit : LinkUnit} (member : unit ∈ scene.units) :
    scene.unit? unit.source = some unit := by
  cases found : scene.unit? unit.source with
  | none => simpa using List.find?_eq_none.mp found unit member
  | some other =>
      obtain ⟨otherMember, same⟩ := unit?_mem found
      exact congrArg some
        (List.inj_on_of_nodup_map distinct otherMember member same)

theorem kind?_eq (ref : NodeRef) :
    scene.kind? ref = (scene.construct? ref).map (·.kind) := by
  simp [kind?, construct?, Function.comp_def, SchemaNode.kind]

theorem length_nodeRefs (scene : Scene) :
    scene.nodeRefs.length = scene.nodeCount := by
  simp [nodeRefs, nodeCount, foldl_add_eq, List.length_flatMap,
    SchemaTree.ids]

theorem mem_nodeRefs_of_node? {ref : NodeRef} {found : SchemaNode}
    (known : scene.node? ref = some found) : ref ∈ scene.nodeRefs := by
  obtain ⟨tree, isTree, inTree⟩ := Option.bind_eq_some_iff.mp known
  obtain ⟨unit, isUnit, rfl⟩ := Option.map_eq_some_iff.mp isTree
  obtain ⟨member, source⟩ := unit?_mem isUnit
  have below : ref.node < unit.tree.size :=
    (Array.getElem?_eq_some_iff.mp inTree).1
  refine List.mem_flatMap.mpr ⟨unit, member, List.mem_map.mpr
    ⟨ref.node, List.mem_range.mpr below, ?_⟩⟩
  rw [source]

/-- Different nodes of a scene are not more than there are. -/
theorem length_le_nodeCount {refs : List NodeRef} (distinct : refs.Nodup)
    (among : refs ⊆ scene.nodeRefs) : refs.length ≤ scene.nodeCount := by
  rw [← scene.length_nodeRefs]
  exact (distinct.subperm among).length_le

/-- A tree has no more nodes than its scene. -/
theorem size_le_nodeCount {source : SourceId} {tree : SchemaTree}
    (isTree : scene.tree? source = some tree) :
    tree.size ≤ scene.nodeCount := by
  obtain ⟨unit, member, rfl, -⟩ := tree?_mem isTree
  have distinct : (unit.tree.ids.map fun id =>
      (⟨unit.source, id⟩ : NodeRef)).Nodup :=
    List.nodup_range.map fun id id' same => congrArg NodeRef.node same
  have among := length_le_nodeCount distinct fun ref listed =>
    List.mem_flatMap.mpr ⟨unit, member, listed⟩
  simpa [SchemaTree.ids] using among

/-- How many nodes have not been visited. -/
def unvisited (scene : Scene) (visited : List NodeRef) : Nat :=
  (scene.nodeRefs.filter fun ref => !visited.contains ref).length

theorem unvisited_le (scene : Scene) (visited : List NodeRef) :
    scene.unvisited visited ≤ scene.nodeCount := by
  rw [← scene.length_nodeRefs]
  exact List.length_filter_le _ _

/-- Visiting a node leaves fewer of them. -/
theorem unvisited_lt {visited visited' : List NodeRef} {ref : NodeRef}
    (known : ref ∈ scene.nodeRefs) (fresh : ref ∉ visited)
    (now : ∀ other, other ∈ visited' ↔ other ∈ visited ∨ other = ref) :
    scene.unvisited visited' < scene.unvisited visited := by
  have less : (scene.nodeRefs.filter fun other => !visited'.contains other) =
      (scene.nodeRefs.filter fun other => !visited.contains other).filter
        (· ≠ ref) := by
    rw [List.filter_filter]
    refine List.filter_congr fun other _ => ?_
    simp [now, Bool.and_comm]
  rw [unvisited, unvisited, less, List.length_filter_lt_length_iff_exists]
  exact ⟨ref, List.mem_filter.mpr ⟨known, by simpa using fresh⟩, by simp⟩

theorem node?_of_mem_children {child : NodeRef}
    (inside : child ∈ scene.children place) :
    child.source = place.source ∧
      ∃ found, scene.node? child = some found ∧
        found.ancestors.head? = some place.node := by
  unfold children at inside
  split at inside
  next tree isTree =>
    obtain ⟨id, listed, rfl⟩ := List.mem_map.mp inside
    obtain ⟨-, parent⟩ := List.mem_filter.mp listed
    refine ⟨rfl, ?_⟩
    simp only [node?, isTree, Option.bind_some]
    rw [SchemaTree.parent?, SchemaTree.ancestors, beq_iff_eq] at parent
    split at parent
    next found known => exact ⟨found, known, parent⟩
    · simp at parent
  · simp at inside

theorem mem_nodeRefs_of_mem_children {child : NodeRef}
    (inside : child ∈ scene.children place) : child ∈ scene.nodeRefs := by
  obtain ⟨-, found, known, -⟩ := node?_of_mem_children inside
  exact mem_nodeRefs_of_node? known

theorem augmentsOf_append (target : NodeRef)
    (pairs more : List (NodeRef × NodeRef)) :
    augmentsOf target (pairs ++ more) =
      augmentsOf target pairs ++ augmentsOf target more := by
  simp [augmentsOf]

/-- The nodes at a source are nested. -/
def IsNestedAt (scene : Scene) (source : SourceId) : Prop :=
  ∀ tree, scene.tree? source = some tree → tree.IsNested

theorem ancestors_of_mem_children {child : NodeRef}
    (nested : scene.IsNestedAt place.source)
    (inside : child ∈ scene.children place) :
    scene.ancestors child = place :: scene.ancestors place := by
  obtain ⟨source, found, known, parent⟩ := node?_of_mem_children inside
  obtain ⟨tree, isTree, inTree⟩ := Option.bind_eq_some_iff.mp known
  obtain ⟨rest, ancestors⟩ := List.head?_eq_some_iff.mp parent
  have isTree' : scene.tree? place.source = some tree := source ▸ isTree
  have above := (nested tree isTree' _ _ inTree _ _ ancestors).2
  simp only [Scene.ancestors, isTree, isTree', SchemaTree.ancestors, inTree]
  rw [ancestors, List.map_cons, above, SchemaTree.ancestors, source]

theorem ancestors_root {source : SourceId} (nested : scene.IsNestedAt source) :
    scene.ancestors ⟨source, rootId⟩ = [] := by
  unfold Scene.ancestors
  split
  next tree isTree =>
    refine List.map_eq_nil_iff.mpr (List.eq_nil_iff_forall_not_mem.mpr ?_)
    exact fun enclosing around => Nat.not_lt_zero enclosing
      ((nested tree isTree).lt_of_mem_ancestors around).1
  · rfl

theorem root_mem_nodeRefs (known : place ∈ scene.nodeRefs) :
    ⟨place.source, rootId⟩ ∈ scene.nodeRefs := by
  obtain ⟨unit, member, inside⟩ := List.mem_flatMap.mp known
  obtain ⟨id, listed, rfl⟩ := List.mem_map.mp inside
  exact List.mem_flatMap.mpr ⟨unit, member, List.mem_map_of_mem
    (List.mem_range.mpr (Nat.zero_lt_of_lt (List.mem_range.mp listed)))⟩

theorem mem_nodeRefs_of_mem_ancestors {enclosing : NodeRef}
    (nested : scene.IsNestedAt place.source)
    (around : enclosing ∈ scene.ancestors place) :
    enclosing ∈ scene.nodeRefs := by
  unfold ancestors at around
  split at around
  next tree isTree =>
    obtain ⟨unit, member, rfl, source⟩ := tree?_mem isTree
    obtain ⟨id, above, rfl⟩ := List.mem_map.mp around
    have inside := (nested _ isTree).lt_of_mem_ancestors above
    exact List.mem_flatMap.mpr ⟨unit, member, List.mem_map.mpr
      ⟨id, List.mem_range.mpr (Nat.lt_trans inside.1 inside.2), by rw [source]⟩⟩
  · cases around

/-- A child stands behind the node that it is in. -/
theorem lt_of_mem_children {child : NodeRef}
    (nested : scene.IsNestedAt place.source)
    (inside : child ∈ scene.children place) :
    place.node < child.node ∧ child.node < scene.nodeCount := by
  obtain ⟨source, found, known, parent⟩ := node?_of_mem_children inside
  obtain ⟨tree, isTree, inTree⟩ := Option.bind_eq_some_iff.mp known
  obtain ⟨rest, ancestors⟩ := List.head?_eq_some_iff.mp parent
  exact ⟨(nested tree (source ▸ isTree) _ _ inTree _ _ ancestors).1,
    Nat.lt_of_lt_of_le (SchemaTree.lt_size_of_node? inTree)
      (size_le_nodeCount isTree)⟩

theorem mem_usesAugments_iff {uses target augment : NodeRef} :
    (target, augment) ∈ scene.usesAugments uses ↔
      augment ∈ scene.children uses ∧ ∃ body,
        scene.construct? augment = some (.augment body) ∧
          body.target = some target := by
  rw [usesAugments, List.mem_filterMap]
  constructor
  · rintro ⟨child, inside, bound⟩
    split at bound
    next body isAugment =>
      obtain ⟨_, isTarget, same⟩ := Option.map_eq_some_iff.mp bound
      obtain ⟨rfl, rfl⟩ := Prod.mk.inj same
      exact ⟨inside, body, isAugment, isTarget⟩
    · simp at bound
  · rintro ⟨inside, body, isAugment, isTarget⟩
    exact ⟨augment, inside, by simp [isAugment, isTarget]⟩

/-- A leafref starts somewhere and follows its steps to a leaf. -/
theorem leafref_eq_ok_iff_follow {place node : NodeRef} {text : String}
    {path : LeafrefPath} {uses : List NodeRef}
    (parsed : LeafrefPath.parse text = .ok path) :
    scene.leafref place text uses = .ok node ↔
      ∃ start, scene.leafrefStart path place text uses = .ok start ∧
        scene.follow .data start path.steps = .ok node ∧
        (scene.kind? node).any isLeafKind = true := by
  have read : (LeafrefPath.parse text).mapError
      (fun error => Miss.failed (.badPath error)) = .ok path := by
    rw [parsed]
    rfl
  simp only [leafref, read, bind_eq_ok_iff, Except.ok.injEq, exists_eq_left',
    leafrefStart]
  cases path.absolute
  all_goals
    simp only [Bool.false_eq_true, if_true, if_false, bind_eq_ok_iff]
    refine exists_congr fun start => and_congr_right fun _ => ?_
    constructor
    · rintro ⟨target, followed, ends⟩
      split at ends
      next kind =>
        obtain rfl := pure_eq_ok_iff.mp ends
        exact ⟨followed, by simp [kind, isLeafKind]⟩
      next kind =>
        obtain rfl := pure_eq_ok_iff.mp ends
        exact ⟨followed, by simp [kind, isLeafKind]⟩
      · simp at ends
      · simp at ends
    · rintro ⟨followed, isLeaf⟩
      refine ⟨node, followed, ?_⟩
      obtain ⟨kind, isKind, leafKind⟩ := (Option.any_eq_true _ _).mp isLeaf
      simp only [isLeafKind, Bool.or_eq_true, beq_iff_eq] at leafKind
      rcases leafKind with rfl | rfl <;> simp only [isKind] <;> rfl

end Scene

end YangSchema
