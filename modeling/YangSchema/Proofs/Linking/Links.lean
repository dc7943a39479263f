import YangSchema.Proofs.Schema.Gaps

/-!
# What setting links leaves alone

Linking writes targets into constructs, types and features and changes nothing
else.  The text of a node is what its statements say, without any links; trees
that agree in their texts have the same groupings, typedefs and imports, and
their types are as complete.  In such a tree only the gaps are different.
-/

namespace YangSchema

def TypeUse.unlinked (use : TypeUse) : TypeUse :=
  { use with links := .none }

theorem TypeUse.isComplete_unlinked {use : TypeUse} :
    use.unlinked.IsComplete ↔ use.IsComplete := by
  constructor
  all_goals
    intro complete
    constructor
    · exact complete.named
    · intro builtin known keyword required
      have has := complete.required builtin known keyword required
      cases keyword <;> exact has
    · intro kind
      have read := complete.read kind
      cases kind <;> exact read

/-- What the statements say about a node that linking reads. -/
structure NodeText where
  name : String
  kind : ConstructKind
  ancestors : List NodeId
  header? : Option ModuleHeader
  typeAt? : Option Nat → Option TypeUse

def SchemaNode.text (node : SchemaNode) : NodeText where
  name := node.name
  kind := node.kind
  ancestors := node.ancestors
  header? := node.construct.header?
  typeAt? := fun member => (node.construct.typeAt? member).map (·.unlinked)

/-- The text of a node apart from the header of a unit. -/
def SchemaNode.outline (node : SchemaNode) : NodeText :=
  { node.text with header? := none }

namespace SchemaNode

variable {node node' : SchemaNode}

theorem outline_eq_of_text (same : node'.text = node.text) :
    node'.outline = node.outline :=
  congrArg (fun text : NodeText => { text with header? := none }) same

theorem typeAt?_of_outline (same : node'.outline = node.outline)
    {member : Option Nat} {use' : TypeUse}
    (declared : node'.construct.typeAt? member = some use') :
    ∃ use, node.construct.typeAt? member = some use ∧
      use.unlinked = use'.unlinked := by
  have types := congrFun (congrArg (·.typeAt?) same) member
  simp only [outline, text, declared, Option.map_some] at types
  exact Option.map_eq_some_iff.mp types.symm

variable (same : node'.text = node.text)
include same

theorem kind_eq_of_text : node'.kind = node.kind :=
  congrArg (·.kind) same

theorem bindings_eq_of_text :
    node'.construct.bindings = node.construct.bindings := by
  have header : node'.construct.header? = node.construct.header? :=
    congrArg (·.header?) same
  simp [Construct.bindings, header]

theorem IsSound.of_text (sound : node.IsSound) : node'.IsSound where
  typedef is := by
    have name : node'.name = node.name := congrArg (·.name) same
    rw [name]
    exact sound.typedef ((kind_eq_of_text same).symm.trans is)
  types declared := by
    obtain ⟨use, declared, unlinked⟩ :=
      typeAt?_of_outline (outline_eq_of_text same) declared
    have complete := sound.types declared
    rwa [← TypeUse.isComplete_unlinked, unlinked,
      TypeUse.isComplete_unlinked] at complete

end SchemaNode

namespace SchemaTree

/-- The trees have the same nodes, links and headers apart. -/
structure SameOutline (before after : SchemaTree) : Prop where
  source : after.source = before.source
  outline : ∀ id,
    (after.node? id).map (·.outline) = (before.node? id).map (·.outline)

/-- The trees have the same nodes, links apart. -/
structure SameText (before after : SchemaTree) : Prop where
  source : after.source = before.source
  text : ∀ id, (after.node? id).map (·.text) = (before.node? id).map (·.text)

namespace SameOutline

variable {before middle after : SchemaTree}

theorem refl (tree : SchemaTree) : tree.SameOutline tree :=
  ⟨rfl, fun _ => rfl⟩

theorem symm (same : before.SameOutline after) : after.SameOutline before :=
  ⟨same.source.symm, fun id => (same.outline id).symm⟩

theorem trans (first : before.SameOutline middle)
    (second : middle.SameOutline after) : before.SameOutline after :=
  ⟨second.source.trans first.source, fun id =>
    (second.outline id).trans (first.outline id)⟩

theorem node? (same : before.SameOutline after) {id : NodeId}
    {node' : SchemaNode} (found : after.node? id = some node') :
    ∃ node, before.node? id = some node ∧ node'.outline = node.outline := by
  have outline := same.outline id
  rw [found, Option.map_some] at outline
  obtain ⟨node, known, same⟩ := Option.map_eq_some_iff.mp outline.symm
  exact ⟨node, known, same.symm⟩

theorem typeAt? (same : before.SameOutline after) {slot : TypeSlot}
    {use' : TypeUse} (declared : after.typeAt? slot = some use') :
    ∃ use, before.typeAt? slot = some use ∧ use.unlinked = use'.unlinked := by
  obtain ⟨node', found, declared⟩ := typeAt?_eq_some_iff.mp declared
  obtain ⟨node, known, outline⟩ := same.node? found
  obtain ⟨use, declared, unlinked⟩ :=
    SchemaNode.typeAt?_of_outline outline declared
  exact ⟨use, typeAt?_eq_some_iff.mpr ⟨node, known, declared⟩, unlinked⟩

theorem keeps (same : before.SameOutline after) : before.Keeps after where
  source := same.source
  node found := by
    obtain ⟨node', found', outline⟩ := same.symm.node? found
    exact ⟨node', found', congrArg (·.kind) outline.symm,
      congrArg (·.name) outline.symm, congrArg (·.ancestors) outline.symm⟩

theorem size_eq (same : before.SameOutline after) :
    after.size = before.size :=
  Nat.le_antisymm same.symm.keeps.size_le same.keeps.size_le

theorem kind? (same : before.SameOutline after) (id : NodeId) :
    after.kind? id = before.kind? id := by
  have kind := congrArg (·.map (·.kind)) (same.outline id)
  simp only [Option.map_map] at kind
  exact kind

theorem ancestors (same : before.SameOutline after) (id : NodeId) :
    after.ancestors id = before.ancestors id := by
  have around (tree : SchemaTree) : tree.ancestors id =
      (((tree.node? id).map (·.outline)).map (·.ancestors)).getD [] := by
    unfold SchemaTree.ancestors
    cases tree.node? id <;> rfl
  rw [around, around, same.outline]

theorem children (same : before.SameOutline after) (id : NodeId) :
    after.children id = before.children id := by
  simp only [SchemaTree.children, ids, parent?, same.size_eq, same.ancestors]

theorem findChild? (same : before.SameOutline after) (parent : NodeId)
    (kind : ConstructKind) (name : String) :
    after.findChild? parent kind name = before.findChild? parent kind name := by
  unfold SchemaTree.findChild?
  rw [same.children]
  refine congrArg (List.find? · _) (funext fun child => ?_)
  have outline := same.outline child
  cases known : before.node? child with
  | none =>
      rw [known] at outline
      rw [Option.map_eq_none_iff.mp outline]
  | some node =>
      rw [known] at outline
      obtain ⟨node', known', outline⟩ := Option.map_eq_some_iff.mp outline
      have kind : node'.kind = node.kind := congrArg (·.kind) outline
      have name : node'.name = node.name := congrArg (·.name) outline
      simp only [known', kind, name]

theorem isNested (same : before.SameOutline after)
    (nested : before.IsNested) : after.IsNested :=
  nested.of_keeps same.keeps fun found => by
    obtain ⟨node, known, outline⟩ := same.node? found
    exact ⟨node, known, congrArg (·.ancestors) outline⟩

/-- Linking does not touch the members of types. -/
theorem hasApartMembers (same : before.SameOutline after)
    (apart : before.HasApartMembers) : after.HasApartMembers :=
  apart.of_holds (fun ⟨_, declared, inNode⟩ => by
      obtain ⟨use, declared, unlinked⟩ := same.typeAt? declared
      exact ⟨use, declared, (congrArg (·.members) unlinked).trans inNode⟩)
    same.keeps.size_le

theorem isInGrouping (same : before.SameOutline after) {id : NodeId}
    (inside : after.IsInGrouping id) : before.IsInGrouping id := by
  obtain ⟨enclosing, around, kind⟩ := inside
  exact ⟨enclosing, same.ancestors id ▸ around, same.kind? enclosing ▸ kind⟩

theorem modifyConstruct {tree : SchemaTree} {target : NodeId}
    {change : Construct → Construct}
    (kind : ∀ construct, (change construct).kind = construct.kind)
    (types : ∀ construct, (change construct).typeAt? = construct.typeAt?) :
    tree.SameOutline (tree.modifyConstruct target change) := by
  refine ⟨rfl, fun id => ?_⟩
  rw [node?_modifyConstruct]
  split
  · cases tree.node? id <;>
      simp [SchemaNode.outline, SchemaNode.text, SchemaNode.kind, kind, types]
  · rfl

end SameOutline

namespace SameText

variable {before middle after : SchemaTree}

theorem refl (tree : SchemaTree) : tree.SameText tree :=
  ⟨rfl, fun _ => rfl⟩

theorem trans (first : before.SameText middle)
    (second : middle.SameText after) : before.SameText after :=
  ⟨second.source.trans first.source, fun id =>
    (second.text id).trans (first.text id)⟩

theorem outline (same : before.SameText after) : before.SameOutline after where
  source := same.source
  outline id := by
    have text := congrArg
      (·.map fun text : NodeText => { text with header? := none }) (same.text id)
    simp only [Option.map_map] at text
    exact text

theorem keeps (same : before.SameText after) : before.Keeps after :=
  same.outline.keeps

theorem isInGrouping (same : before.SameText after) {id : NodeId}
    (inside : after.IsInGrouping id) : before.IsInGrouping id :=
  same.outline.isInGrouping inside

theorem node? (same : before.SameText after) {id : NodeId} {node' : SchemaNode}
    (found : after.node? id = some node') :
    ∃ node, before.node? id = some node ∧ node'.text = node.text := by
  have text := same.text id
  rw [found, Option.map_some] at text
  obtain ⟨node, known, same⟩ := Option.map_eq_some_iff.mp text.symm
  exact ⟨node, known, same.symm⟩

theorem isSound (same : before.SameText after) (sound : before.IsSound) :
    after.IsSound := by
  intro id node' found
  obtain ⟨node, known, text⟩ := same.node? found
  exact (sound known).of_text text

theorem header? (same : before.SameText after) :
    after.header? = before.header? := by
  have text := congrArg (·.bind (·.header?)) (same.text rootId)
  simp only [Option.bind_map] at text
  exact text

theorem modifyConstruct {tree : SchemaTree} {target : NodeId}
    {change : Construct → Construct}
    (kind : ∀ construct, (change construct).kind = construct.kind)
    (header : ∀ construct, (change construct).header? = construct.header?)
    (types : ∀ construct member,
      ((change construct).typeAt? member).map (·.unlinked) =
        (construct.typeAt? member).map (·.unlinked)) :
    tree.SameText (tree.modifyConstruct target change) := by
  refine ⟨rfl, fun id => ?_⟩
  rw [node?_modifyConstruct]
  split
  · cases tree.node? id <;>
      simp [SchemaNode.text, SchemaNode.kind, kind, header, types]
  · rfl

theorem modifyMetadata (tree : SchemaTree) (target : NodeId)
    (change : Metadata → Metadata) :
    tree.SameText (tree.modifyMetadata target change) := by
  refine ⟨rfl, fun id => ?_⟩
  rw [node?_modifyMetadata]
  split
  · cases tree.node? id <;> rfl
  · rfl

end SameText

end SchemaTree

end YangSchema
