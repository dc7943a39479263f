import Mathlib.Tactic.Common
import YangSchema.Schema.Tree

/-!
# What changes to a schema tree keep

A tree is changed in three ways: a node is added behind the others, the
construct of a node is replaced, or its metadata is.  Each of them keeps the
kind, the name and the enclosing nodes of every node that was there before, so
what surrounds a node stays the same.
-/

namespace YangSchema

namespace SchemaTree

variable {tree : SchemaTree} {id : NodeId}

theorem node?_addRoot (tree : SchemaTree) (node : SchemaNode) (id : NodeId) :
    (tree.addRoot node).node? id =
      if id = tree.size then some { node with ancestors := [] }
      else tree.node? id :=
  Array.getElem?_push

theorem node?_addChild (tree : SchemaTree) (parent : NodeId)
    (node : SchemaNode) (id : NodeId) :
    (tree.addChild parent node).node? id =
      if id = tree.size then
        some { node with ancestors := parent :: tree.ancestors parent }
      else tree.node? id :=
  Array.getElem?_push

theorem node?_modifyConstruct (tree : SchemaTree) (target : NodeId)
    (change : Construct → Construct) (id : NodeId) :
    (tree.modifyConstruct target change).node? id =
      if target = id then
        (tree.node? id).map fun node =>
          { node with construct := change node.construct }
      else tree.node? id :=
  Array.getElem?_modify

theorem node?_modifyMetadata (tree : SchemaTree) (target : NodeId)
    (change : Metadata → Metadata) (id : NodeId) :
    (tree.modifyMetadata target change).node? id =
      if target = id then
        (tree.node? id).map fun node =>
          { node with metadata := change node.metadata }
      else tree.node? id :=
  Array.getElem?_modify

theorem node?_size (tree : SchemaTree) : tree.node? tree.size = none := by
  simp [node?, size]

@[simp]
theorem size_modifyConstruct (tree : SchemaTree) (target : NodeId)
    (change : Construct → Construct) :
    (tree.modifyConstruct target change).size = tree.size :=
  Array.size_modify

@[simp]
theorem size_modifyMetadata (tree : SchemaTree) (target : NodeId)
    (change : Metadata → Metadata) :
    (tree.modifyMetadata target change).size = tree.size :=
  Array.size_modify

@[simp]
theorem size_addChild (tree : SchemaTree) (parent : NodeId)
    (node : SchemaNode) : (tree.addChild parent node).size = tree.size + 1 :=
  Array.size_push _

@[simp]
theorem size_addRoot (tree : SchemaTree) (node : SchemaNode) :
    (tree.addRoot node).size = tree.size + 1 :=
  Array.size_push _

theorem construct?_eq_some_iff {construct : Construct} :
    tree.construct? id = some construct ↔
      ∃ node, tree.node? id = some node ∧ node.construct = construct := by
  simp [construct?]

section

variable {property : SchemaNode → Prop}

theorem forall_node_addRoot {node : SchemaNode}
    (old : ∀ {id node}, tree.node? id = some node → property node)
    (new : property { node with ancestors := [] }) {node' : SchemaNode}
    (found : (tree.addRoot node).node? id = some node') : property node' := by
  rw [node?_addRoot] at found
  split at found
  · obtain rfl := by simpa using found
    exact new
  · exact old found

theorem forall_node_addChild {parent : NodeId} {node : SchemaNode}
    (old : ∀ {id node}, tree.node? id = some node → property node)
    (new : property
      { node with ancestors := parent :: tree.ancestors parent })
    {node' : SchemaNode}
    (found : (tree.addChild parent node).node? id = some node') :
    property node' := by
  rw [node?_addChild] at found
  split at found
  · obtain rfl := by simpa using found
    exact new
  · exact old found

theorem forall_node_modifyConstruct {target : NodeId}
    {change : Construct → Construct}
    (old : ∀ {id node}, tree.node? id = some node → property node)
    (new : ∀ {node}, tree.node? target = some node →
      property { node with construct := change node.construct })
    {node' : SchemaNode}
    (found : (tree.modifyConstruct target change).node? id = some node') :
    property node' := by
  rw [node?_modifyConstruct] at found
  split at found
  next same =>
    subst same
    obtain ⟨node, known, rfl⟩ := Option.map_eq_some_iff.mp found
    exact new known
  · exact old found

theorem forall_node_modifyMetadata {target : NodeId}
    {change : Metadata → Metadata}
    (old : ∀ {id node}, tree.node? id = some node → property node)
    (new : ∀ {node}, tree.node? target = some node →
      property { node with metadata := change node.metadata })
    {node' : SchemaNode}
    (found : (tree.modifyMetadata target change).node? id = some node') :
    property node' := by
  rw [node?_modifyMetadata] at found
  split at found
  next same =>
    subst same
    obtain ⟨node, known, rfl⟩ := Option.map_eq_some_iff.mp found
    exact new known
  · exact old found

end

/-- Whether a node lies inside a grouping. -/
def IsInGrouping (tree : SchemaTree) (id : NodeId) : Prop :=
  ∃ enclosing ∈ tree.ancestors id, tree.kind? enclosing = some .grouping

/-- Whether a node is a typedef or lies inside one. -/
def IsTemplate (tree : SchemaTree) (id : NodeId) : Prop :=
  ∃ enclosing ∈ id :: tree.ancestors id, tree.kind? enclosing = some .typedef

theorem isWithin_grouping_iff :
    tree.isWithin id .grouping = true ↔ tree.IsInGrouping id := by
  simp [isWithin, IsInGrouping, isKind]

/-- Every node of a tree is still where it was, what it declares apart. -/
structure Keeps (before after : SchemaTree) : Prop where
  source : after.source = before.source
  node : ∀ {id node}, before.node? id = some node →
    ∃ node', after.node? id = some node' ∧ node'.kind = node.kind ∧
      node'.name = node.name ∧ node'.ancestors = node.ancestors

namespace Keeps

variable {before middle after : SchemaTree}

theorem refl (tree : SchemaTree) : Keeps tree tree :=
  ⟨rfl, fun {_ node} found => ⟨node, found, rfl, rfl, rfl⟩⟩

theorem trans (first : Keeps before middle) (second : Keeps middle after) :
    Keeps before after := by
  refine ⟨second.source.trans first.source, fun found => ?_⟩
  obtain ⟨node', found', kind', name', ancestors'⟩ := first.node found
  obtain ⟨node'', found'', kind'', name'', ancestors''⟩ := second.node found'
  exact ⟨node'', found'', kind''.trans kind', name''.trans name',
    ancestors''.trans ancestors'⟩

theorem kind? (keeps : Keeps before after) {kind : ConstructKind}
    (known : before.kind? id = some kind) : after.kind? id = some kind := by
  obtain ⟨node, found, rfl⟩ := Option.map_eq_some_iff.mp known
  obtain ⟨node', found', sameKind, -⟩ := keeps.node found
  simp [SchemaTree.kind?, found', sameKind]

theorem ancestors (keeps : Keeps before after) {node : SchemaNode}
    (found : before.node? id = some node) :
    after.ancestors id = before.ancestors id := by
  obtain ⟨node', found', -, -, sameAncestors⟩ := keeps.node found
  simp [SchemaTree.ancestors, found, found', sameAncestors]

theorem isTemplate (keeps : Keeps before after) {node : SchemaNode}
    (found : before.node? id = some node) (template : before.IsTemplate id) :
    after.IsTemplate id := by
  obtain ⟨enclosing, member, kind⟩ := template
  exact ⟨enclosing, by rwa [keeps.ancestors found], keeps.kind? kind⟩

theorem isInGrouping (keeps : Keeps before after) {node : SchemaNode}
    (found : before.node? id = some node) (inside : before.IsInGrouping id) :
    after.IsInGrouping id := by
  obtain ⟨enclosing, member, kind⟩ := inside
  exact ⟨enclosing, by rwa [keeps.ancestors found], keeps.kind? kind⟩

theorem addRoot (tree : SchemaTree) (node : SchemaNode) :
    Keeps tree (tree.addRoot node) := by
  refine ⟨rfl, fun {id node'} found => ⟨node', ?_, rfl, rfl, rfl⟩⟩
  have old : id ≠ tree.size := by
    rintro rfl
    simp [node?_size] at found
  rw [node?_addRoot, if_neg old, found]

theorem addChild (tree : SchemaTree) (parent : NodeId) (node : SchemaNode) :
    Keeps tree (tree.addChild parent node) := by
  refine ⟨rfl, fun {id node'} found => ⟨node', ?_, rfl, rfl, rfl⟩⟩
  have old : id ≠ tree.size := by
    rintro rfl
    simp [node?_size] at found
  rw [node?_addChild, if_neg old, found]

theorem modifyConstruct {target : NodeId} {change : Construct → Construct}
    (sameKind : ∀ construct, tree.construct? target = some construct →
      (change construct).kind = construct.kind) :
    Keeps tree (tree.modifyConstruct target change) := by
  refine ⟨rfl, fun {id node} found => ?_⟩
  rw [node?_modifyConstruct]
  split
  next same =>
    subst same
    exact ⟨{ node with construct := change node.construct }, by simp [found],
      sameKind _ (construct?_eq_some_iff.mpr ⟨node, found, rfl⟩), rfl, rfl⟩
  · exact ⟨node, found, rfl, rfl, rfl⟩

theorem modifyMetadata (tree : SchemaTree) (target : NodeId)
    (change : Metadata → Metadata) :
    Keeps tree (tree.modifyMetadata target change) := by
  refine ⟨rfl, fun {id node} found => ?_⟩
  rw [node?_modifyMetadata]
  split
  · exact ⟨{ node with metadata := change node.metadata }, by simp [found],
      rfl, rfl, rfl⟩
  · exact ⟨node, found, rfl, rfl, rfl⟩

theorem size_le (keeps : Keeps before after) : before.size ≤ after.size := by
  by_contra longer
  obtain ⟨node, found⟩ : ∃ node, before.node? after.size = some node :=
    ⟨_, Array.getElem?_eq_getElem (Nat.lt_of_not_le longer)⟩
  obtain ⟨node', found', -⟩ := keeps.node found
  simp [node?_size] at found'

end Keeps

/-- The nodes around a node are its parent and the nodes around that one, which
stands before it. -/
def IsNested (tree : SchemaTree) : Prop :=
  ∀ id node, tree.node? id = some node → ∀ parent rest,
    node.ancestors = parent :: rest →
      parent < id ∧ rest = tree.ancestors parent

theorem lt_size_of_node? {node : SchemaNode} (found : tree.node? id = some node) :
    id < tree.size :=
  (Array.getElem?_eq_some_iff.mp found).1

theorem mem_children_iff {child : NodeId} :
    child ∈ tree.children id ↔
      ∃ node, tree.node? child = some node ∧
        node.ancestors.head? = some id := by
  simp only [children, ids, List.mem_filter, List.mem_range, beq_iff_eq,
    parent?, ancestors]
  constructor
  · rintro ⟨-, parent⟩
    split at parent
    next node found => exact ⟨node, found, parent⟩
    · simp at parent
  · rintro ⟨node, found, parent⟩
    exact ⟨lt_size_of_node? found, by rw [found]; exact parent⟩

theorem Keeps.children {before after : SchemaTree} {child : NodeId}
    (keeps : before.Keeps after) (inside : child ∈ before.children id) :
    child ∈ after.children id := by
  obtain ⟨node, found, around⟩ := mem_children_iff.mp inside
  obtain ⟨node', found', -, -, ancestors⟩ := keeps.node found
  exact mem_children_iff.mpr ⟨node', found', ancestors ▸ around⟩

theorem lt_size_of_kind? {kind : ConstructKind}
    (known : tree.kind? id = some kind) : id < tree.size := by
  obtain ⟨node, found, -⟩ := Option.map_eq_some_iff.mp known
  exact lt_size_of_node? found

namespace IsNested

variable {before after : SchemaTree}

theorem empty (source : SourceId) : (SchemaTree.empty source).IsNested := by
  intro id node found
  simp [SchemaTree.empty, node?] at found

/-- Only what stands around the nodes matters. -/
theorem of_keeps (nested : before.IsNested) (keeps : before.Keeps after)
    (old : ∀ {id node'}, after.node? id = some node' →
      ∃ node, before.node? id = some node ∧
        node'.ancestors = node.ancestors) : after.IsNested := by
  intro id node' found' parent rest around
  obtain ⟨node, found, same⟩ := old found'
  obtain ⟨earlier, rfl⟩ :=
    nested id node found parent rest (same.symm.trans around)
  refine ⟨earlier, ?_⟩
  obtain ⟨other, inside⟩ : ∃ other, before.node? parent = some other :=
    ⟨_, Array.getElem?_eq_getElem (Nat.lt_trans earlier (lt_size_of_node? found))⟩
  exact (keeps.ancestors inside).symm

theorem modifyConstruct (nested : tree.IsNested) {target : NodeId}
    {change : Construct → Construct}
    (sameKind : ∀ construct, tree.construct? target = some construct →
      (change construct).kind = construct.kind) :
    (tree.modifyConstruct target change).IsNested := by
  refine nested.of_keeps (.modifyConstruct sameKind) fun {id node'} found => ?_
  rw [node?_modifyConstruct] at found
  split at found
  · obtain ⟨node, known, rfl⟩ := Option.map_eq_some_iff.mp found
    exact ⟨node, known, rfl⟩
  · exact ⟨node', found, rfl⟩

theorem modifyMetadata (nested : tree.IsNested) (target : NodeId)
    (change : Metadata → Metadata) :
    (tree.modifyMetadata target change).IsNested := by
  refine nested.of_keeps (.modifyMetadata tree target change)
    fun {id node'} found => ?_
  rw [node?_modifyMetadata] at found
  split at found
  · obtain ⟨node, known, rfl⟩ := Option.map_eq_some_iff.mp found
    exact ⟨node, known, rfl⟩
  · exact ⟨node', found, rfl⟩

/-- A node that is added behind the others, around which there is nothing or one
of them with what is around that one. -/
theorem push (nested : before.IsNested) (keeps : before.Keeps after)
    {new : SchemaNode}
    (nodes : ∀ id, after.node? id =
      if id = before.size then some new else before.node? id)
    (around : ∀ parent rest, new.ancestors = parent :: rest →
      parent < before.size ∧ rest = before.ancestors parent) :
    after.IsNested := by
  have kept {parent : NodeId} (old : parent < before.size) :
      after.ancestors parent = before.ancestors parent :=
    keeps.ancestors (Array.getElem?_eq_getElem old)
  intro id node found parent rest inside
  rw [nodes] at found
  split at found
  next last =>
    subst last
    obtain rfl := Option.some.inj found
    obtain ⟨old, rfl⟩ := around parent rest inside
    exact ⟨old, (kept old).symm⟩
  · obtain ⟨earlier, rfl⟩ := nested id node found parent rest inside
    exact ⟨earlier, (kept (Nat.lt_trans earlier (lt_size_of_node? found))).symm⟩

/-- What is around a node stands before it. -/
theorem lt_of_mem_ancestors (nested : tree.IsNested) {enclosing : NodeId}
    (around : enclosing ∈ tree.ancestors id) :
    enclosing < id ∧ id < tree.size := by
  induction id using Nat.strongRecOn with
  | ind id ih =>
      unfold ancestors at around
      split at around
      next node found =>
        refine ⟨?_, lt_size_of_node? found⟩
        cases nearest : node.ancestors with
        | nil => simp [nearest] at around
        | cons parent rest =>
            obtain ⟨earlier, rfl⟩ := nested id node found parent rest nearest
            rw [nearest] at around
            obtain rfl | further := List.mem_cons.mp around
            · exact earlier
            · exact Nat.lt_trans (ih parent earlier further).1 earlier
      · simp at around

/-- What is around a node of a nested tree ends at its top. -/
theorem ancestors_end (nested : tree.IsNested) (id : NodeId) :
    tree.ancestors id = (tree.ancestors id).filter (· ≠ rootId) ∨
      tree.ancestors id = (tree.ancestors id).filter (· ≠ rootId) ++ [rootId] := by
  induction id using Nat.strongRecOn with
  | ind id ih =>
      cases above : tree.ancestors id with
      | nil => exact .inl rfl
      | cons parent rest =>
          obtain ⟨node, found, around⟩ : ∃ node, tree.node? id = some node ∧
              node.ancestors = parent :: rest := by
            unfold SchemaTree.ancestors at above
            split at above
            next node found => exact ⟨node, found, above⟩
            · cases above
          obtain ⟨earlier, rfl⟩ := nested id node found parent rest around
          by_cases top : parent = rootId
          · subst top
            have nothing : tree.ancestors rootId = [] :=
              List.eq_nil_iff_forall_not_mem.mpr fun enclosing around =>
                Nat.not_lt_zero enclosing (nested.lt_of_mem_ancestors around).1
            simp [nothing]
          · simpa [top] using ih parent earlier

theorem addRoot (nested : tree.IsNested) (node : SchemaNode) :
    (tree.addRoot node).IsNested :=
  nested.push (.addRoot tree node) (node?_addRoot tree node) (by simp)

theorem addChild (nested : tree.IsNested) {parent : NodeId}
    (known : parent < tree.size) (node : SchemaNode) :
    (tree.addChild parent node).IsNested := by
  apply nested.push (.addChild tree parent node)
    (node?_addChild tree parent node)
  intro inner rest around
  obtain ⟨rfl, rfl⟩ := List.cons.inj around
  exact ⟨known, rfl⟩

end IsNested

end SchemaTree

end YangSchema
