import YangSchema.Proofs.Compilation.Mirrors
import YangSchema.Proofs.Draft.Disputing
import YangSchema.Proofs.Draft.Lineage
import YangSchema.Proofs.SyntaxTree.Leaves

/-!
# Names collide with what has been read before

When a statement is opened, the children and members of the node on top of the
stack are those that the statements in front of it have introduced there.  So its
name is taken exactly if one of them introduced it in the same category.  A block
that is read to its end thus introduces different names, and where reading stops
because of a name, an earlier statement of the same block introduced it.
-/

namespace YangSchema

theorem exists_of_forall₂ {α β : Type} {relates : α → β → Prop} {first : List α}
    {second : List β} (related : List.Forall₂ relates first second) {b : β}
    (listed : b ∈ second) : ∃ a ∈ first, relates a b := by
  induction related with
  | nil => cases listed
  | cons head _ ih =>
      obtain rfl | listed := List.mem_cons.mp listed
      · exact ⟨_, List.mem_cons_self, head⟩
      · obtain ⟨a, member, relates⟩ := ih listed
        exact ⟨a, List.mem_cons_of_mem _ member, relates⟩

/-- A member of an enumeration or of bits is called after its statement and stands
where that stands. -/
structure Statement.IsMember (statement : Statement) (member : NumberedMember) :
    Prop where
  named : statement.argumentValue = some member.name
  stands : statement.position = member.position

theorem Built.isMember {statement : Statement} {frame : Frame}
    {member : NumberedMember} (built : Built statement frame)
    (is : frame = .enum member ∨ frame = .bit member) :
    statement.IsMember member := by
  have opened := built.opened
  unfold Statement.frame? at opened
  dsimp only at opened
  split at opened
  all_goals
    simp only [Option.map_eq_some_iff, toOption_eq_some_iff, reduceCtorEq]
      at opened
  all_goals
    obtain ⟨content, read, same⟩ := opened
  all_goals
    obtain rfl | rfl := is
  all_goals
    simp only [Frame.bare, reduceCtorEq, Frame.enum.injEq, Frame.bit.injEq,
      Draft.newMember, NumberedMember.mk.injEq] at same
  · obtain ⟨rfl, -, -, -, -, -, same⟩ := same
    exact ⟨Statement.enumNameArgument_eq_ok read, same⟩
  · obtain ⟨rfl, -, -, -, -, -, same⟩ := same
    exact ⟨Statement.identifierArgument_eq_ok read, same⟩

theorem forall₂_isMember {statements : List Statement}
    {members : List NumberedMember} {frame : NumberedMember → Frame}
    (built : List.Forall₂ Built statements (members.map frame))
    (is : ∀ member, frame member = .enum member ∨ frame member = .bit member) :
    List.Forall₂ Statement.IsMember statements members :=
  (List.forall₂_map_right_iff.mp built).imp fun _ member whole =>
    whole.isMember (is member)

/-- Members have different names if their statements have. -/
theorem nodup_of_isMember {statements : List Statement}
    {members : List NumberedMember} {kind : ConstructKind}
    {category : NameCategory}
    (isMember : List.Forall₂ Statement.IsMember statements members)
    (own : ∀ statement ∈ statements,
      statement.known.category? kind = some category)
    (apart : statements.Pairwise fun earlier later => ∀ category name,
      earlier.Names kind category name → ¬ later.Names kind category name) :
    (members.map (·.name)).Nodup := by
  induction isMember with
  | nil => exact .nil
  | @cons statement member rest others isMember below ih =>
      obtain ⟨category?, own⟩ := List.forall_mem_cons.mp own
      obtain ⟨first, apart⟩ := List.pairwise_cons.mp apart
      refine List.nodup_cons.mpr ⟨fun again => ?_, ih own apart⟩
      obtain ⟨other, listed, same⟩ := List.mem_map.mp again
      obtain ⟨later, among, isMember'⟩ := exists_of_forall₂ below listed
      exact first later among category member.name
        ⟨category?, isMember.named⟩
        ⟨own later among, isMember'.named.trans (congrArg some same)⟩

theorem SchemaNode.construct_of_enum {node : SchemaNode}
    (listed : Keyword.enum ∈ node.attributes.keywords) :
    ∃ members, node.construct = .enumeration members := by
  obtain inside | other := Attributes.mem_keywords_append.mp listed
  · cases is : node.construct with
    | enumeration members => exact ⟨members, rfl⟩
    | _ =>
        simp [is, Construct.attributes, Attributes.keywords,
          Attributes.singleKeywords, Attributes.ofValues, ModuleHeader.lists,
          Attribute.text, Attribute.flag, Attribute.qualifier,
          Attribute.elements] at inside
  · exact absurd (node.metadata.keywords_subset _ other) (by decide)

theorem SchemaNode.construct_of_bit {node : SchemaNode}
    (listed : Keyword.bit ∈ node.attributes.keywords) :
    ∃ members, node.construct = .bits members := by
  obtain inside | other := Attributes.mem_keywords_append.mp listed
  · cases is : node.construct with
    | bits members => exact ⟨members, rfl⟩
    | _ =>
        simp [is, Construct.attributes, Attributes.keywords,
          Attributes.singleKeywords, Attributes.ofValues, ModuleHeader.lists,
          Attribute.text, Attribute.flag, Attribute.qualifier,
          Attribute.elements] at inside
  · exact absurd (node.metadata.keywords_subset _ other) (by decide)

namespace Draft

variable {draft before opened inner : Draft} {statement : Statement}
  {statements done : List Statement} {id : NodeId} {kind : ConstructKind}
  {category : NameCategory} {name : String} {position : Position}

/-- A node has just been opened, and nothing is inside it. -/
structure IsBegun (opened : Draft) (id : NodeId) (kind : ConstructKind) :
    Prop where
  stack : opened.stack.head? = some (.node id)
  size : opened.tree.size = id + 1
  first : ∃ node, opened.tree.node? id = some node ∧ node.kind = kind ∧
    node.attributes.IsInitial

/-- Statements have been read since a node was opened, which is on top again. -/
structure Recounts (draft : Draft) (id : NodeId) (kind : ConstructKind)
    (done : List Statement) : Prop where
  top : draft.stack.head? = some (.node id)
  nested : draft.tree.IsNested
  hold : ∃ node, draft.tree.node? id = some node ∧ node.kind = kind ∧
    node.attributes.Hold done
  mirrors : ∃ name, draft.tree.Mirrors (id + 1) <|
    Statement.introductionsAll (some ⟨id, name, kind⟩) [] (id + 1) done

theorem IsBegun.recounts (begun : opened.IsBegun id kind)
    (inside : opened.Mirrors done inner) (nested : inner.tree.IsNested) :
    inner.Recounts id kind done := by
  obtain ⟨first, found, rfl, initial⟩ := begun.first
  obtain ⟨rest, stack⟩ := List.head?_eq_some_iff.mp begun.stack
  have fits : opened.Fits (some ⟨id, first.name, first.kind⟩) := by
    intro other top
    obtain rfl : id = other := by simpa [stack] using top
    exact ⟨first, found, rfl⟩
  have held := held?_of_node stack found
  have top := (inside.head? (by simp [stack]) id).mpr begun.stack
  have added := inside.added _ [] _ fits held initial.hold
  rw [begun.size] at added
  obtain ⟨node, found', head, -⟩ := inside.nodes id first found
  obtain ⟨attributes, held', -, hold⟩ := inside.held _ held
  obtain ⟨rest', stack'⟩ := List.head?_eq_some_iff.mp top
  obtain rfl := Option.some.inj (held'.symm.trans (held?_of_node stack' found'))
  exact ⟨top, nested, ⟨node, found', head.kind, hold [] initial.hold⟩,
    first.name, added⟩

namespace Recounts

theorem kind? (recounts : draft.Recounts id kind done) :
    draft.tree.kind? id = some kind := by
  obtain ⟨node, found, rfl, -⟩ := recounts.hold
  simp [SchemaTree.kind?, found]

/-- The children of the node are introduced by the statements. -/
theorem child (recounts : draft.Recounts id kind done)
    (shallow : ∀ other ∈ done, other.IsShallow) {child : NodeId}
    {node : SchemaNode} (listed : child ∈ draft.tree.children id)
    (found : draft.tree.node? child = some node) :
    ∃ other ∈ done, other.position = node.position ∧
      ∃ around earlier,
        other.introduces? around earlier = some (node.kind, node.name) := by
  obtain ⟨holderName, mirrors⟩ := recounts.mirrors
  obtain ⟨node', found', parent⟩ := SchemaTree.mem_children_iff.mp listed
  obtain rfl := Option.some.inj (found.symm.trans found')
  have behind : id < child := by
    refine (recounts.nested.lt_of_mem_ancestors ?_).1
    rw [SchemaTree.ancestors, found]
    exact List.mem_of_mem_head? parent
  have within := SchemaTree.lt_size_of_node? found
  rw [mirrors.size] at within
  obtain ⟨index, rfl⟩ := Nat.exists_eq_add_of_le (Nat.succ_le_of_lt behind)
  have inside : index < (Statement.introductionsAll
      (some ⟨id, holderName, kind⟩) [] (id + 1) done).length :=
    Nat.lt_of_add_lt_add_left within
  obtain ⟨introduction, made⟩ : ∃ introduction,
      (Statement.introductionsAll (some ⟨id, holderName, kind⟩) [] (id + 1)
        done)[index]? = some introduction :=
    ⟨_, List.getElem?_eq_getElem inside⟩
  obtain ⟨node', found', introduced, -⟩ := mirrors.node index introduction made
  obtain rfl := Option.some.inj (found.symm.trans found')
  obtain ⟨member, earlier, given⟩ := Statement.mem_of_parent
    (by exact Nat.lt_succ_self id) shallow (List.mem_of_getElem? made)
    (introduced.parent.symm.trans parent)
  refine ⟨_, member, introduced.position.symm, some ⟨id, holderName, kind⟩,
    earlier, ?_⟩
  rw [given, introduced.kind, introduced.name]

/-- What a statement introduces is a child of the node. -/
theorem exists_child (recounts : draft.Recounts id kind done)
    (listed : statement ∈ done) {own : ConstructKind}
    (introduces : statement.kind? = some own) :
    ∃ child node around earlier, child ∈ draft.tree.children id ∧
      draft.tree.node? child = some node ∧
        node.position = statement.position ∧
          statement.introduces? around earlier =
            some (node.kind, node.name) := by
  obtain ⟨holderName, mirrors⟩ := recounts.mirrors
  obtain ⟨introduction, made, rfl, parent, earlier, introduced⟩ :=
    @Statement.exists_introduction _ done [] own ⟨id, holderName, kind⟩ (id + 1)
      introduces listed
  obtain ⟨index, within, same⟩ := List.getElem_of_mem made
  obtain ⟨node, found, is, -⟩ := mirrors.node index introduction
    (by rw [List.getElem?_eq_getElem within, same])
  refine ⟨_, node, some ⟨id, holderName, kind⟩, earlier,
    SchemaTree.mem_children_iff.mpr ⟨node, found, is.parent.trans parent⟩,
    found, is.position, ?_⟩
  rw [introduced, is.kind, is.name]

theorem isKind (recounts : draft.Recounts id kind done) {construct : Construct}
    (within : draft.tree.construct? id = some construct) :
    construct.kind = kind :=
  Option.some.inj <|
    (NameCategory.kind?_of_construct? within).symm.trans recounts.kind?

theorem lists (recounts : draft.Recounts id kind done) {construct : Construct}
    {keyword : Keyword} {parts : List Frame}
    (within : draft.tree.construct? id = some construct)
    (listed : (keyword, parts) ∈ construct.attributes.lists) :
    List.Forall₂ Built (done.filter (·.known == keyword)) parts := by
  obtain ⟨node, found, rfl, hold⟩ := recounts.hold
  obtain ⟨node', found', rfl⟩ := SchemaTree.construct?_eq_some_iff.mp within
  obtain rfl := Option.some.inj (found.symm.trans found')
  exact hold.lists keyword parts (List.mem_append_left _ listed)

/-- The members of an enumeration are its statements, one for one. -/
theorem enumMembers (recounts : draft.Recounts id kind done)
    {members : List NumberedMember}
    (within : draft.tree.construct? id = some (.enumeration members)) :
    List.Forall₂ Statement.IsMember (done.filter (·.known == .enum)) members :=
  forall₂_isMember (recounts.lists within List.mem_cons_self) fun _ => .inl rfl

theorem bitMembers (recounts : draft.Recounts id kind done)
    {members : List NumberedMember}
    (within : draft.tree.construct? id = some (.bits members)) :
    List.Forall₂ Statement.IsMember (done.filter (·.known == .bit)) members :=
  forall₂_isMember (recounts.lists within List.mem_cons_self) fun _ => .inr rfl

/-- A name that is taken was introduced by one of the statements. -/
theorem exists_names (recounts : draft.Recounts id kind done)
    (named : Statement.AreNamed kind done)
    (shallow : ∀ other ∈ done, other.IsShallow)
    (taken : NameCategory.IsTaken draft.tree id position name category) :
    ∃ other ∈ done, other.Names kind category name := by
  cases taken with
  | child listed found within own named' _ =>
      obtain rfl := Option.some.inj (recounts.kind?.symm.trans within)
      obtain ⟨other, member, -, around, earlier, introduced⟩ :=
        recounts.child shallow listed found
      obtain ⟨category?, called⟩ :=
        Statement.category?_of_introduces? introduced own
      obtain ⟨argument, given⟩ := named other member category category?
      refine ⟨other, member, category?, ?_⟩
      rw [given, ← named', ← called, given, Option.getD_some]
  | enumMember within listed named' _ =>
      obtain rfl := recounts.isKind within
      obtain ⟨other, among, isMember⟩ :=
        exists_of_forall₂ (recounts.enumMembers within) listed
      obtain ⟨among, known⟩ := List.mem_filter.mp among
      refine ⟨other, among, ?_, named' ▸ isMember.named⟩
      rw [beq_iff_eq.mp known, Keyword.category?]
  | bitMember within listed named' _ =>
      obtain rfl := recounts.isKind within
      obtain ⟨other, among, isMember⟩ :=
        exists_of_forall₂ (recounts.bitMembers within) listed
      obtain ⟨among, known⟩ := List.mem_filter.mp among
      refine ⟨other, among, ?_, named' ▸ isMember.named⟩
      rw [beq_iff_eq.mp known, Keyword.category?]

/-- A name that one of the statements has introduced is taken. -/
theorem isTaken (recounts : draft.Recounts id kind done)
    (listed : statement ∈ done) (names : statement.Names kind category name)
    (earlier : statement.position.before position = true) :
    NameCategory.IsTaken draft.tree id position name category := by
  obtain ⟨node, found, -, hold⟩ := recounts.hold
  have accepted := hold.accepted statement listed
  obtain ⟨known, rfl⟩ | ⟨known, rfl⟩ | ⟨own, introduces, category?⟩ :=
    Statement.introduces?_of_category? names.category
  · rw [known] at accepted
    obtain ⟨members, is⟩ := SchemaNode.construct_of_enum (accepted (by decide))
    have within := SchemaTree.construct?_eq_some_iff.mpr ⟨node, found, is⟩
    obtain ⟨member, inside, isMember⟩ := exists_of_forall₂
      (recounts.enumMembers within).flip
      (List.mem_filter.mpr ⟨listed, beq_iff_eq.mpr known⟩)
    have named := Option.some.inj (isMember.named.symm.trans names.argument)
    exact .enumMember within inside named (isMember.stands ▸ earlier)
  · rw [known] at accepted
    obtain ⟨members, is⟩ := SchemaNode.construct_of_bit (accepted (by decide))
    have within := SchemaTree.construct?_eq_some_iff.mpr ⟨node, found, is⟩
    obtain ⟨member, inside, isMember⟩ := exists_of_forall₂
      (recounts.bitMembers within).flip
      (List.mem_filter.mpr ⟨listed, beq_iff_eq.mpr known⟩)
    have named := Option.some.inj (isMember.named.symm.trans names.argument)
    exact .bitMember within inside named (isMember.stands ▸ earlier)
  · obtain ⟨child, node, around, before, inside, found, stands, introduced⟩ :=
      recounts.exists_child listed introduces
    obtain rfl : own = node.kind := by
      have same := congrArg (Option.map (·.1)) introduced
      rw [Statement.map_introduces?, introduces] at same
      simpa using same
    obtain ⟨-, called⟩ :=
      Statement.category?_of_introduces? introduced category?
    rw [names.argument, Option.getD_some] at called
    exact .child inside found recounts.kind? category? called.symm
      (stands ▸ earlier)

end Recounts

/-! ## Opening a block -/

theorem kind?_eq_none_of_plain (plain : isPlain statement.known = true) :
    statement.kind? = none := by
  simp only [isPlain, Bool.and_eq_true, Option.isNone_iff_eq_none,
    bne_iff_ne, ne_eq] at plain
  obtain ⟨⟨plain, type⟩, -⟩ := plain
  unfold Statement.kind?
  split
  · contradiction
  · exact plain

theorem kind?_of_memberNode? {name : QualifiedName}
    (known : statement.known = .type)
    (read : statement.nameArgument = .ok name) :
    statement.kind? =
      (membersOf (.ofName name statement.position statement.headSpan)).map
        (·.1.kind) := by
  have member := memberNode?_eq (Statement.nameArgument_eq_ok read)
    statement.position statement.headSpan
  simp only [Statement.kind?, known, member, Option.map_map]
  rfl

theorem isBegun_of_added {node : SchemaNode} {construct : Construct}
    (stack : opened.stack.head? = some (.node id))
    (size : opened.tree.size = id + 1)
    (found : opened.tree.node? id = some node)
    (is : node.construct = construct) (bare : node.metadata = .empty)
    (initial : construct.attributes.IsInitial) :
    opened.IsBegun id construct.kind := by
  subst is
  refine ⟨stack, size, node, found, rfl, ?_⟩
  rw [SchemaNode.attributes, bare]
  exact isInitial_append initial (isInitial_metadata _)

/-- A part of a node has just been opened, in which nothing is stored. -/
def IsPartBegun (opened : Draft) : Prop :=
  ∃ frame rest, opened.stack = frame :: rest ∧ frame.kind ≠ .node ∧
    frame.attributes.IsInitial

theorem isBegun_of_openUnit {construct : Construct}
    (initial : construct.attributes.IsInitial)
    (ok : openUnit construct before statement = .ok opened) :
    opened.IsBegun before.tree.size construct.kind := by
  obtain ⟨name, -, -, -, empty, rfl⟩ := openUnit_eq_ok ok
  rw [empty]
  let root := SchemaNode.ofConstruct construct name statement.position
    statement.headSpan
  have size : (before.tree.addRoot root).size = rootId + 1 := by
    rw [SchemaTree.size_addRoot, empty]
  have found := before.tree.node?_addRoot root rootId
  rw [if_pos empty.symm] at found
  exact isBegun_of_added rfl size found rfl rfl initial

/-- A type begins a node if it has members. -/
theorem openType_begins (known : statement.known = .type)
    (ok : openType before statement = .ok opened) :
    (statement.kind? = none ∧ opened.IsPartBegun) ∨
      ∃ kind, statement.kind? = some kind ∧
        opened.IsBegun before.tree.size kind := by
  simp only [openType, bind_eq_ok_iff] at ok
  obtain ⟨name, read, _, _, holder, _, ok⟩ := ok
  rw [kind?_of_memberNode? known read]
  split at ok
  next construct ending members =>
    obtain rfl := pure_eq_ok_iff.mp ok
    rw [members]
    let node := SchemaNode.ofConstruct construct
      (membersName before.tree holder ending) statement.position
      statement.headSpan
    have found := before.tree.node?_addChild holder node before.tree.size
    rw [if_pos rfl] at found
    exact .inr ⟨_, rfl, isBegun_of_added rfl
      (before.tree.size_addChild holder node) found rfl rfl
      (membersOf_isPlain members).1⟩
  next memberless =>
    obtain rfl := pure_eq_ok_iff.mp ok
    rw [memberless]
    exact .inl ⟨rfl, _, _, rfl, by simp [Frame.kind],
      isInitial_of_check rfl rfl rfl⟩

/-- A statement that is opened begins its node, or a part if it has none. -/
theorem begins_of_opening {openBlock closeBlock : Step}
    (isBlock : role statement.known = .block openBlock closeBlock)
    (ok : openBlock before statement = .ok opened) :
    (statement.kind? = none ∧ opened.IsPartBegun) ∨
      ∃ kind, statement.kind? = some kind ∧
        opened.IsBegun before.tree.size kind := by
  have shape := role_shape statement.known
  rw [isBlock] at shape
  cases shape with
  | part isPart plain =>
      obtain ⟨frame, rfl, -, bare, other, -⟩ := isPart.opens rfl ok
      exact .inl ⟨kind?_eq_none_of_plain plain, frame, _, rfl, other,
        bare ▸ frame.isInitial_bare⟩
  | node isNode =>
      obtain ⟨parent, construct, name, opens, stack, introduced⟩ :=
        isNode.opens rfl ok
      have own := statement.map_introduces? none []
      rw [introduced] at own
      have found := opens.node? before.tree.size
      rw [if_pos rfl] at found
      exact .inr ⟨_, own.symm, isBegun_of_added
        (by rw [stack, List.head?_cons])
        (by rw [opens.tree, SchemaTree.size_addChild]) found rfl rfl
        opens.initial⟩
  | unit introduces initial named =>
      refine .inr ⟨_, ?_, isBegun_of_openUnit initial ok⟩
      have other : statement.known ≠ .type := fun is => named (by simp [is])
      unfold Statement.kind?
      split
      · contradiction
      · exact introduces
  | type isType => exact openType_begins isType ok

theorem isBegun_of_opening {openBlock closeBlock : Step}
    (own : statement.kind? = some kind)
    (isBlock : role statement.known = .block openBlock closeBlock)
    (ok : openBlock before statement = .ok opened) :
    opened.IsBegun before.tree.size kind := by
  obtain ⟨none, -⟩ | ⟨kind', own', begun⟩ := begins_of_opening isBlock ok
  · cases none.symm.trans own
  · obtain rfl := Option.some.inj (own'.symm.trans own)
    exact begun

theorem isPartBegun_of_opening {openBlock closeBlock : Step}
    (plain : statement.kind? = none)
    (isBlock : role statement.known = .block openBlock closeBlock)
    (ok : openBlock before statement = .ok opened) : opened.IsPartBegun := by
  obtain ⟨-, part⟩ | ⟨kind, own, -⟩ := begins_of_opening isBlock ok
  · exact part
  · cases plain.symm.trans own

/-- The first node that is introduced is inside the one around the statements. -/
theorem parent?_of_mirrors {tree : SchemaTree} (nested : tree.IsNested)
    {start : Nat} {around : Option Surrounding}
    (mirrors : tree.Mirrors start
      (Statement.introductionsAll around [] start statements))
    (introduces : Statement.introductionsAll around [] start statements ≠ []) :
    tree.parent? start = around.map (·.node) := by
  obtain ⟨first, others, made⟩ := List.exists_cons_of_ne_nil introduces
  have stands := Statement.introductionsAll_standIn statements first
    (by rw [made]; exact List.mem_cons_self)
  obtain ⟨node, found, introduced, -⟩ :=
    mirrors.node 0 first (by rw [made]; rfl)
  have parent : tree.parent? start = first.parent := by
    have found : tree.node? start = some node := found
    rw [SchemaTree.parent?, SchemaTree.ancestors, found]
    exact introduced.parent
  obtain around | ⟨id, inside, above, -⟩ := stands
  · rw [parent, around]
  · have around : id ∈ tree.ancestors start :=
      List.mem_of_mem_head? (parent.trans inside)
    exact absurd (nested.lt_of_mem_ancestors around).1 (Nat.not_lt_of_le above)

/-- In a part nothing is introduced, since it would be inside any node at all. -/
theorem IsPartBegun.introductions (part : opened.IsPartBegun)
    (inside : opened.Mirrors statements inner) (nested : inner.tree.IsNested) :
    Statement.introductionsAll none [] 0 statements = [] := by
  obtain ⟨frame, rest, stack, other, initial⟩ := part
  have mirrors (around : Option Surrounding) :=
    inside.added around [] frame.attributes (fun id top => by
      have isNode : frame = .node id := by simpa [stack] using top
      exact absurd (by rw [isNode, Frame.kind]) other)
      (held?_of_frame stack other) initial.hold
  have length (around : Option Surrounding) :=
    @Statement.length_introductionsAll around none [] [] opened.tree.size 0
      statements
  by_contra introduces
  have some (around : Option Surrounding) : Statement.introductionsAll around []
      opened.tree.size statements ≠ [] := fun none =>
    introduces <| List.eq_nil_of_length_eq_zero <| by
      rw [← length around, none, List.length_nil]
  have root := parent?_of_mirrors nested (mirrors none) (some none)
  have child := parent?_of_mirrors nested (mirrors (.some ⟨0, "", .module⟩))
    (some _)
  cases root.symm.trans child

end Draft

end YangSchema
