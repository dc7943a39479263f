import YangSchema.Proofs.Draft.Finished
import YangSchema.Proofs.Draft.Introductions

/-!
# The tree mirrors the statements

While statements are read, what is on top of the stack stores them, nothing else
that was there changes, and the nodes that are added are those that the
statements introduce, one behind the other.  A block does so because its
sub-statements do:  by induction over the statements, a unit that is read without
an error becomes a tree in which every node is introduced by its statement and
stores the sub-statements of it.
-/

namespace YangSchema

variable {statement : Statement}

/-- A node is the one that a statement introduces. -/
structure SchemaNode.IsIntroduced (node : SchemaNode)
    (introduction : Introduction) : Prop where
  name : node.name = introduction.name
  kind : node.kind = introduction.kind
  position : node.position = introduction.statement.position
  span : node.span = introduction.statement.headSpan
  parent : node.ancestors.head? = introduction.parent

/-- A node holds what the sub-statements of its statement say.  Its config is the
one that they declare, or that of the innermost node around it with one. -/
structure SchemaTree.Stores (tree : SchemaTree) (statement : Statement)
    (node : SchemaNode) : Prop where
  obeys : Obeys statement node.attributes
  config : ∀ config, node.construct.config? = some config →
    statement.Configures (tree.configAmong node.ancestors) config

namespace SchemaTree

/-- From some number on, the nodes of a tree are those that are introduced. -/
structure Mirrors (tree : SchemaTree) (start : NodeId)
    (introductions : List Introduction) : Prop where
  size : tree.size = start + introductions.length
  node : ∀ index introduction, introductions[index]? = some introduction →
    ∃ node, tree.node? (start + index) = some node ∧
      node.IsIntroduced introduction ∧
      tree.Stores introduction.statement node

variable {tree tree' : SchemaTree}

theorem configAmong_congr {ids : List NodeId}
    (same : ∀ id ∈ ids, tree'.config? id = tree.config? id) :
    tree'.configAmong ids = tree.configAmong ids := by
  have found : ids.findSome? tree'.config? = ids.findSome? tree.config? := by
    induction ids with
    | nil => rfl
    | cons id rest ih =>
        have others := ih fun other listed => same other (by simp [listed])
        simp only [List.findSome?_cons, same id (by simp), others]
  simp only [configAmong, found]

/-- What is stored in a node does not depend on the nodes behind it. -/
theorem Stores.congr {node : SchemaNode} (stores : tree.Stores statement node)
    (same : ∀ id ∈ node.ancestors, tree'.config? id = tree.config? id) :
    tree'.Stores statement node where
  obeys := stores.obeys
  config config declared := by
    rw [configAmong_congr same]
    exact stores.config config declared

theorem Mirrors.nil (tree : SchemaTree) : tree.Mirrors tree.size [] :=
  ⟨rfl, by simp⟩

end SchemaTree

namespace Draft

/-- What is stored in the top of the stack. -/
def held? (draft : Draft) : Option Attributes :=
  match draft.stack with
  | [] => none
  | .node id :: _ => (draft.tree.node? id).map (·.attributes)
  | frame :: _ => some frame.attributes

/-- A node that is on top of the stack is the innermost one around. -/
def Fits (draft : Draft) (around : Option Surrounding) : Prop :=
  ∀ id, draft.stack.head? = some (.node id) →
    ∃ node, draft.tree.node? id = some node ∧
      around = some ⟨id, node.name, node.kind⟩

/-- Statements are stored in the top of the stack, and nothing else that was there
changes. -/
structure Writes (before : Draft) (statements : List Statement)
    (after : Draft) : Prop where
  top : ∀ frame rest, before.stack = frame :: rest →
    ∃ frame', after.stack = frame' :: rest ∧ frame'.bare = frame.bare
  nodes : ∀ id node, before.tree.node? id = some node →
    ∃ node', after.tree.node? id = some node' ∧ node.SameHead node' ∧
      (before.stack.head? ≠ some (.node id) → node' = node)
  held : ∀ attributes, before.held? = some attributes →
    ∃ attributes', after.held? = some attributes' ∧
      attributes'.singleKeywords = attributes.singleKeywords ∧
      ∀ done, attributes.Hold done → attributes'.Hold (done ++ statements)

/-- What holds between the drafts before and after statements that have been
read. -/
structure Mirrors (before : Draft) (statements : List Statement)
    (after : Draft) : Prop extends before.Writes statements after where
  added : ∀ around done attributes, before.Fits around →
    before.held? = some attributes → attributes.Hold done →
      after.tree.Mirrors before.tree.size
        (Statement.introductionsAll around done before.tree.size statements)

variable {before middle opened inner after draft : Draft}
  {statements : List Statement}

theorem bare_eq_node_iff {frame : Frame} {id : NodeId} :
    frame.bare = .node id ↔ frame = .node id := by
  cases frame <;> simp [Frame.bare]

theorem held?_of_frame {frame : Frame} {rest : FrameStack}
    (stack : draft.stack = frame :: rest) (other : frame.kind ≠ .node) :
    draft.held? = some frame.attributes := by
  unfold held?
  rw [stack]
  cases frame with
  | node id => simp [Frame.kind] at other
  | _ => rfl

theorem held?_of_node {id : NodeId} {rest : FrameStack} {node : SchemaNode}
    (stack : draft.stack = .node id :: rest)
    (found : draft.tree.node? id = some node) :
    draft.held? = some node.attributes := by
  unfold held?
  rw [stack]
  exact congrArg (·.map (·.attributes)) found

namespace Writes

theorem head? (writes : before.Writes statements after)
    (open' : before.stack ≠ []) (id : NodeId) :
    after.stack.head? = some (.node id) ↔
      before.stack.head? = some (.node id) := by
  obtain ⟨frame, rest, stack⟩ := List.exists_cons_of_ne_nil open'
  obtain ⟨frame', stack', bare⟩ := writes.top frame rest stack
  rw [stack, stack', List.head?_cons, List.head?_cons, Option.some.injEq,
    Option.some.injEq, ← bare_eq_node_iff, bare, bare_eq_node_iff]

theorem config? (writes : before.Writes statements after) {id : NodeId}
    (old : id < before.tree.size) :
    after.tree.config? id = before.tree.config? id := by
  have found : before.tree.node? id = some before.tree.nodes[id] :=
    Array.getElem?_eq_getElem old
  obtain ⟨node', found', head, -⟩ := writes.nodes id _ found
  simp [SchemaTree.config?, SchemaTree.construct?, found, found', head.config]

/-- What is stored in a node stays there. -/
theorem stores (writes : before.Writes statements after)
    (nested : before.tree.IsNested) {id : NodeId} {node : SchemaNode}
    (found : before.tree.node? id = some node)
    (stores : before.tree.Stores statement node) :
    after.tree.Stores statement node := by
  refine stores.congr fun ancestor around => writes.config? ?_
  have inside : ancestor ∈ before.tree.ancestors id := by
    simpa [SchemaTree.ancestors, found] using around
  exact Nat.lt_trans (nested.lt_of_mem_ancestors inside).1
    (SchemaTree.lt_size_of_node? found)

/-- Nodes that mirror some statements still do so, unless one of them is on
top. -/
theorem mirrored (writes : before.Writes statements after)
    (nested : before.tree.IsNested) {start : NodeId}
    (outside : ∀ id, before.stack.head? = some (.node id) → id < start)
    {introductions : List Introduction}
    (mirrors : before.tree.Mirrors start introductions)
    {index : Nat} {introduction : Introduction}
    (listed : introductions[index]? = some introduction) :
    ∃ node, after.tree.node? (start + index) = some node ∧
      node.IsIntroduced introduction ∧
      after.tree.Stores introduction.statement node := by
  obtain ⟨node, found, introduced, stores⟩ :=
    mirrors.node index introduction listed
  obtain ⟨node', found', -, same⟩ := writes.nodes _ node found
  obtain rfl : node' = node := same fun top =>
    absurd (outside _ top) (Nat.not_lt_of_le (Nat.le_add_right start index))
  exact ⟨node', found', introduced, writes.stores nested found stores⟩

theorem fits (writes : before.Writes statements after)
    (open' : before.stack ≠ []) {around : Option Surrounding}
    (fits : before.Fits around) : after.Fits around := by
  intro id top
  obtain ⟨node, found, rfl⟩ := fits id ((writes.head? open' id).mp top)
  obtain ⟨node', found', head, -⟩ := writes.nodes id node found
  exact ⟨node', found', by rw [head.name, head.kind]⟩

theorem trans {more : List Statement} (first : before.Writes statements middle)
    (rest : middle.Writes more after) (open' : before.stack ≠ []) :
    before.Writes (statements ++ more) after where
  top frame below stack := by
    obtain ⟨frame', stack', bare⟩ := first.top frame below stack
    obtain ⟨frame'', stack'', bare'⟩ := rest.top frame' below stack'
    exact ⟨frame'', stack'', bare'.trans bare⟩
  nodes id node found := by
    obtain ⟨node', found', head, same⟩ := first.nodes id node found
    obtain ⟨node'', found'', head', same'⟩ := rest.nodes id node' found'
    refine ⟨node'', found'', head.trans head', fun other => ?_⟩
    rw [same' (by rwa [ne_eq, first.head? open']), same other]
  held attributes held := by
    obtain ⟨attributes', held', keywords, hold⟩ := first.held attributes held
    obtain ⟨attributes'', held'', keywords', hold'⟩ :=
      rest.held attributes' held'
    refine ⟨attributes'', held'', keywords'.trans keywords, fun done before => ?_⟩
    have both := hold' _ (hold done before)
    rwa [List.append_assoc] at both

end Writes

/-- What a statement is stored in is the top of the stack. -/
theorem Fills.writes (fills : before.Fills statement after) :
    before.Writes [statement] after := by
  cases fills with
  | @node id rest node node' part stack same found nodes head takes =>
      refine ⟨fun frame below stack' => ?_, fun other old found' => ?_,
        fun attributes held => ?_⟩
      · exact ⟨frame, same.trans stack', rfl⟩
      · rw [nodes]
        split
        next is =>
          subst is
          obtain rfl := Option.some.inj (found.symm.trans found')
          exact ⟨node', rfl, head, fun other => absurd (by simp [stack]) other⟩
        · exact ⟨old, found', .refl old, fun _ => rfl⟩
      · obtain rfl := Option.some.inj (held.symm.trans (held?_of_node stack found))
        refine ⟨_, held?_of_node (same.trans stack) (by simp [nodes]), ?_,
          fun done hold => hold.put takes⟩
        rw [takes.same, Attributes.singleKeywords_put]
  | @frame frame frame' rest part stack same nodes takes =>
      have other : frame'.kind ≠ .node := by
        intro is
        cases frame' with
        | node id =>
            have bare : frame.bare = .node id := takes.bare.symm
            rw [bare_eq_node_iff.mp bare] at takes
            exact takes.other rfl
        | _ => simp [Frame.kind] at is
      refine ⟨fun top below stack' => ?_, fun id node found => ?_,
        fun attributes held => ?_⟩
      · obtain ⟨rfl, rfl⟩ := List.cons.inj (stack.symm.trans stack')
        exact ⟨frame', same, takes.bare⟩
      · exact ⟨node, (nodes id).trans found, .refl node, fun _ => rfl⟩
      · obtain rfl := Option.some.inj <|
          held.symm.trans (held?_of_frame stack takes.other)
        refine ⟨_, held?_of_frame same other, ?_, fun done hold =>
          hold.put takes.takes⟩
        rw [takes.takes.same, Attributes.singleKeywords_put]

theorem Fills.size (fills : before.Fills statement after) :
    after.tree.size = before.tree.size := by
  have same (id : NodeId) : after.tree.node? id = none ↔
      before.tree.node? id = none := by
    cases fills with
    | node stack same found nodes head takes =>
        rw [nodes]
        split
        next is => simp [← is, found]
        · exact Iff.rfl
    | frame stack same nodes takes => rw [nodes]
  have outside (tree : SchemaTree) (id : NodeId) :
      tree.node? id = none ↔ tree.size ≤ id := Array.getElem?_eq_none_iff
  simp only [outside] at same
  have least := (same after.tree.size).mp (Nat.le_refl _)
  have most := (same before.tree.size).mpr (Nat.le_refl _)
  omega

namespace Mirrors

theorem refl (draft : Draft) : draft.Mirrors [] draft where
  top frame rest stack := ⟨frame, stack, rfl⟩
  nodes id node found := ⟨node, found, .refl node, fun _ => rfl⟩
  held attributes held := ⟨attributes, held, rfl, fun done hold => by
    rwa [List.append_nil]⟩
  added _ _ _ _ _ _ := .nil draft.tree

theorem cons (first : before.Mirrors [statement] middle)
    (rest : middle.Mirrors statements after) (open' : before.stack ≠ [])
    (known : ∀ id, .node id ∈ before.stack → id < before.tree.size)
    (nested : middle.tree.IsNested) :
    before.Mirrors (statement :: statements) after where
  toWrites := first.toWrites.trans rest.toWrites open'
  added around done attributes fits held hold := by
    obtain ⟨attributes', held', -, hold'⟩ := first.held attributes held
    have one := first.added around done attributes fits held hold
    have others := rest.added around (done ++ [statement]) attributes'
      (first.fits open' fits) held' (hold' done hold)
    simp only [Statement.introductionsAll, List.append_nil] at one ⊢
    rw [one.size] at others
    refine ⟨?_, fun index introduction listed => ?_⟩
    · rw [others.size, List.length_append, Nat.add_assoc]
    · rw [List.getElem?_append] at listed
      split at listed
      next early =>
        exact rest.mirrored nested (fun id top => known id <|
          List.mem_of_mem_head? <| (first.head? open' id).mp top) one listed
      next late =>
        obtain ⟨node, found, introduced, stores⟩ :=
          others.node _ introduction listed
        refine ⟨node, ?_, introduced, stores⟩
        rwa [Nat.add_assoc, Nat.add_sub_cancel' (Nat.le_of_not_lt late)] at found

end Mirrors

/-- A statement is stored after what it contains has been read. -/
theorem mirrors_of_fills (inner : Draft) (stack : inner.stack = before.stack)
    (old : ∀ id node, before.tree.node? id = some node →
      inner.tree.node? id = some node)
    (fills : inner.Fills statement after) (nested : inner.tree.IsNested)
    (known : ∀ id, .node id ∈ before.stack → id < before.tree.size)
    (added : ∀ around done attributes, before.Fits around →
      before.held? = some attributes → attributes.Hold done →
        inner.tree.Mirrors before.tree.size
          (Statement.introductions around done before.tree.size statement)) :
    before.Mirrors [statement] after where
  top frame rest stack' := fills.writes.top frame rest (stack.trans stack')
  nodes id node found := by
    rw [← stack]
    exact fills.writes.nodes id node (old id node found)
  held attributes held := by
    refine fills.writes.held attributes ?_
    unfold held? at held ⊢
    rw [stack]
    split at held
    · simp at held
    · obtain ⟨node, found, rfl⟩ := Option.map_eq_some_iff.mp held
      simp [old _ node found]
    · exact held
  added around done attributes fits held hold := by
    have inside := added around done attributes fits held hold
    simp only [Statement.introductionsAll, List.append_nil]
    refine ⟨fills.size.trans inside.size, fun index introduction listed =>
      fills.writes.mirrored nested (fun id top => known id ?_) inside listed⟩
    rw [stack] at top
    exact List.mem_of_mem_head? top

/-- A statement of such a keyword introduces no node. -/
def isPlain (keyword : Keyword) : Bool :=
  keyword.introduces?.isNone && keyword != .type && keyword != .extensionInstance

theorem introductions_of_plain (plain : isPlain statement.known = true)
    (around : Option Surrounding) (earlier : List Statement) (next : NodeId) :
    Statement.introductions around earlier next statement =
      Statement.introductionsAll around [] next statement.substatements := by
  simp only [isPlain, Bool.and_eq_true, Option.isNone_iff_eq_none,
    bne_iff_ne, ne_eq] at plain
  obtain ⟨⟨plain, type⟩, extension⟩ := plain
  refine Statement.introductions_of_none extension ?_
  unfold Statement.introduces?
  split
  · contradiction
  next is => simp [is, Keyword.introduces?] at plain
  next is => simp [is, Keyword.introduces?] at plain
  · simp [plain]

theorem Fills.of_same {draft' : Draft} (fills : before.Fills statement draft)
    (tree : draft'.tree = draft.tree) (stack : draft'.stack = draft.stack) :
    before.Fills statement draft' := by
  cases fills with
  | node stack' same found nodes head takes =>
      exact .node stack' (stack.trans same) found (tree ▸ nodes) head takes
  | frame stack' same nodes takes =>
      exact .frame stack' (stack.trans same) (tree ▸ nodes) takes

/-- A statement without a block contains extensions only, which may be warned
about. -/
theorem readForeign_eq {holder : Statement}
    (whole : (readForeign holder draft statements).error = none) :
    (∀ statement ∈ statements, statement.known = .extensionInstance) ∧
      ∃ warnings, (readForeign holder draft statements).draft =
        { draft with warnings } := by
  induction statements generalizing draft with
  | nil => exact ⟨by simp, draft.warnings, rfl⟩
  | cons statement rest ih =>
      unfold readForeign at whole ⊢
      split
      next known =>
        simp only [known] at whole
        obtain ⟨others, more, same⟩ := ih whole
        obtain ⟨warnings, passed⟩ := passOver_eq draft statement
        rw [passed] at same ⊢
        exact ⟨List.forall_mem_cons.mpr ⟨known, others⟩, more, same⟩
      next known => simp [known] at whole
      next => simp_all

theorem entry_mirrors (sound : before.IsSound)
    (plain : isPlain statement.known = true)
    (extensions : ∀ part ∈ statement.substatements,
      part.known = .extensionInstance)
    (fills : before.Fills statement after) :
    before.Mirrors [statement] after := by
  refine mirrors_of_fills before rfl (fun _ _ => id) fills sound.nested sound.known ?_
  intro around done _ _ _ _
  rw [introductions_of_plain plain,
    Statement.introductionsAll_of_extensions extensions]
  exact .nil before.tree

/-- Each value that a part takes is bounded by the rules of its statement. -/
theorem bounded_of_frame? {frame : Frame}
    (opened : statement.frame? = some frame) :
    ∀ keyword ∈ frame.attributes.singleKeywords,
      Cardinality.boundsOnce statement.known keyword = true := by
  rw [← List.all_eq_true]
  unfold Statement.frame? at opened
  split at opened
  all_goals
    simp only [Option.map_eq_some_iff, reduceCtorEq] at opened
  all_goals
    obtain ⟨content, -, rfl⟩ := opened
    rename_i known
    rw [known]
    rfl

/-- A part is built when its sub-statements have been read. -/
theorem built_of_mirrors {frame frame' : Frame} {rest : FrameStack}
    (start : statement.frame? = some frame) (bare : frame.bare = frame)
    (other : frame.kind ≠ .node)
    (checked : Cardinality.check statement = .ok ())
    (stack : opened.stack = frame :: rest)
    (inside : opened.Writes statement.substatements inner)
    (stack' : inner.stack = frame' :: rest) : Built statement frame' := by
  obtain ⟨top, isTop, bare'⟩ := inside.top frame rest stack
  obtain ⟨rfl, -⟩ := List.cons.inj (stack'.symm.trans isTop)
  have other' : frame'.kind ≠ .node := by
    intro is
    cases frame' with
    | node id =>
        rw [bare, Eq.comm] at bare'
        rw [show frame = .node id from bare'] at other
        exact other rfl
    | _ => simp [Frame.kind] at is
  have initial : frame.attributes.IsInitial := bare ▸ frame.isInitial_bare
  obtain ⟨attributes, held, keywords, hold⟩ :=
    inside.held _ (held?_of_frame stack other)
  obtain rfl := Option.some.inj (held.symm.trans (held?_of_frame stack' other'))
  refine .intro (by rw [start, bare', bare]) ((hold [] initial.hold).obeys ?_)
  intro keyword listed
  rw [keywords] at listed
  exact Cardinality.findAll_le_one checked (bounded_of_frame? start _ listed)

theorem part_mirrors {keyword : Keyword} {openBlock closeBlock : Step}
    (isPart : IsPartBlock keyword openBlock closeBlock)
    (plain : isPlain keyword = true) (known : statement.known = keyword)
    (sound : before.IsSound) (opening : openBlock before statement = .ok opened)
    (inside : opened.Mirrors statement.substatements inner)
    (keeps : before.tree.Keeps inner.tree) (nested : inner.tree.IsNested)
    (closing : closeBlock inner statement = .ok after) :
    before.Mirrors [statement] after := by
  obtain ⟨frame, rfl, start, bare, other, checked⟩ := isPart.opens known opening
  obtain ⟨frame', stack', -⟩ := inside.top frame before.stack rfl
  have built := built_of_mirrors start bare other checked rfl inside.toWrites
    stack'
  have fills := isPart.closes known opening keeps stack' built closing
  refine mirrors_of_fills { inner with stack := before.stack } rfl
    (fun id node found => ?_) fills nested sound.known
    fun around done _ _ _ _ => ?_
  · obtain ⟨node', found', -, same⟩ := inside.nodes id node found
    rwa [← same fun top => other (by
      rw [show frame = .node id by simpa [push] using top]; rfl)]
  · rw [introductions_of_plain (known ▸ plain)]
    refine inside.added around [] frame.attributes (fun id top => ?_)
      (held?_of_frame rfl other) (bare ▸ frame.isInitial_bare).hold
    exact absurd (show frame.kind = .node by
      rw [show frame = .node id by simpa [push] using top]; rfl) other

theorem isInitial_append {attributes more : Attributes}
    (initial : attributes.IsInitial) (initial' : more.IsInitial) :
    (attributes.append more).IsInitial where
  values place listed := (List.mem_append.mp listed).elim
    (initial.values place) (initial'.values place)
  singles single listed := (List.mem_append.mp listed).elim
    (initial.singles single) (initial'.singles single)
  lists list listed := (List.mem_append.mp listed).elim
    (initial.lists list) (initial'.lists list)

theorem isInitial_metadata (kind : ConstructKind) :
    (Metadata.empty.attributes kind).IsInitial := by
  cases kind <;> exact isInitial_of_check rfl rfl rfl

section

variable {parent : NodeId} {construct : Construct} {name : String}

theorem OpensNode.node?
    (opens : before.OpensNode statement parent construct name opened)
    (id : NodeId) : opened.tree.node? id =
      if id = before.tree.size then
        some { SchemaNode.ofConstruct construct name statement.position
            statement.headSpan with
          ancestors := parent :: before.tree.ancestors parent }
      else before.tree.node? id := by
  rw [opens.tree, SchemaTree.node?_addChild]

/-- Nodes that are not on top stay as they are. -/
theorem OpensNode.old
    (opens : before.OpensNode statement parent construct name opened)
    (top : opened.stack.head? = some (.node before.tree.size))
    (inside : opened.Writes statement.substatements inner) {id : NodeId}
    {node : SchemaNode} (found : before.tree.node? id = some node) :
    inner.tree.node? id = some node := by
  have old : id ≠ before.tree.size :=
    Nat.ne_of_lt (SchemaTree.lt_size_of_node? found)
  obtain ⟨node', found', -, same⟩ := inside.nodes id node <| by
    rw [opens.node?, if_neg old, found]
  rwa [← same fun is => old (by simpa [top] using is.symm)]

/-- A node that a statement opens comes first, and what the sub-statements
introduce follows. -/
theorem mirrors_of_opened {id : NodeId} {rest : FrameStack} {first : SchemaNode}
    (stack : opened.stack = .node id :: rest)
    (size : opened.tree.size = id + 1)
    (found : opened.tree.node? id = some first)
    (nested : opened.tree.IsNested) (initial : first.attributes.IsInitial)
    (bounded : ∀ keyword ∈ first.attributes.singleKeywords,
      (statement.findAll keyword).length ≤ 1)
    (configures : ∀ config, first.construct.config? = some config →
      statement.Configures (opened.tree.configAmong first.ancestors) config)
    (position : first.position = statement.position)
    (span : first.span = statement.headSpan)
    (inside : opened.Mirrors statement.substatements inner) :
    inner.tree.Mirrors id <|
      ⟨statement, first.kind, first.name, first.ancestors.head?⟩ ::
        Statement.introductionsAll (some ⟨id, first.name, first.kind⟩) []
          (id + 1) statement.substatements := by
  obtain ⟨node, found', head, -⟩ := inside.nodes _ _ found
  obtain ⟨frame', stack', bare⟩ := inside.top _ rest stack
  obtain rfl : frame' = .node id := bare_eq_node_iff.mp bare
  obtain ⟨attributes, holds, keywords, hold⟩ :=
    inside.held _ (held?_of_node stack found)
  obtain rfl := Option.some.inj (holds.symm.trans (held?_of_node stack' found'))
  have stores : inner.tree.Stores statement node := by
    refine ⟨(hold [] initial.hold).obeys fun keyword listed => ?_,
      fun config declared => ?_⟩
    · rw [keywords] at listed
      exact bounded keyword listed
    · rw [head.config] at declared
      rw [head.ancestors, SchemaTree.configAmong_congr fun around listed => ?_]
      · exact configures config declared
      have inTree : around ∈ opened.tree.ancestors id := by
        simpa [SchemaTree.ancestors, found] using listed
      have old := (nested.lt_of_mem_ancestors inTree).1
      exact inside.config? (size ▸ Nat.lt_succ_of_lt old)
  have others := inside.added (some ⟨id, first.name, first.kind⟩) [] _
    (fun other top => by
      obtain rfl : id = other := by simpa [stack] using top
      exact ⟨first, found, rfl⟩) (held?_of_node stack found) initial.hold
  rw [size] at others
  refine ⟨?_, fun index introduction listed => ?_⟩
  · rw [others.size, List.length_cons]
    omega
  · cases index with
    | zero =>
        obtain rfl := Option.some.inj listed
        exact ⟨node, found', ⟨head.name, head.kind, head.position.trans position,
          head.span.trans span, by rw [head.ancestors]⟩, stores⟩
    | succ index =>
        have later := others.node index introduction listed
        rwa [Nat.add_assoc, Nat.add_comm 1] at later

theorem OpensNode.mirrors
    (opens : before.OpensNode statement parent construct name opened)
    {rest : FrameStack} (stack : opened.stack = .node before.tree.size :: rest)
    (inside : opened.Mirrors statement.substatements inner)
    (sound : before.IsSound) {around : Option Surrounding}
    {earlier : List Statement}
    (introduced : statement.introduces? around earlier =
      some (construct.kind, name))
    (fits : before.Fits around) :
    inner.tree.Mirrors before.tree.size
      (Statement.introductions around earlier before.tree.size statement) := by
  obtain ⟨below, held⟩ := opens.held
  have inTree : parent < before.tree.size :=
    sound.known parent (by simp [held])
  have first := opens.node? before.tree.size
  rw [if_pos rfl] at first
  obtain ⟨node, _, surrounding⟩ := fits parent (by simp [held])
  have mirrors := mirrors_of_opened stack
    (by rw [opens.tree, SchemaTree.size_addChild]) first
    (opens.tree ▸ sound.nested.addChild inTree _)
    (isInitial_append opens.initial (isInitial_metadata _)) opens.bounded
    (fun config declared => ?_) rfl rfl inside
  · rw [Statement.introductions_of_some introduced, surrounding]
    exact mirrors
  · rw [SchemaTree.configAmong_congr fun id around => ?_]
    · exact opens.config config declared
    have old : id < before.tree.size := by
      obtain rfl | around := List.mem_cons.mp around
      · exact inTree
      · exact Nat.lt_trans (sound.nested.lt_of_mem_ancestors around).1 inTree
    simp only [SchemaTree.config?, SchemaTree.construct?, opens.node?,
      if_neg (Nat.ne_of_lt old)]

end

/-- The node around another one is left as it was. -/
theorem node_mirrors {keyword : Keyword} {openBlock closeBlock : Step}
    (isNode : IsNodeBlock keyword openBlock closeBlock)
    (known : statement.known = keyword) (sound : before.IsSound)
    (opening : openBlock before statement = .ok opened)
    (inside : opened.Mirrors statement.substatements inner)
    (nested : inner.tree.IsNested)
    (closing : closeBlock inner statement = .ok after) :
    before.Mirrors [statement] after := by
  obtain ⟨parent, construct, name, opens, stack, introduced⟩ :=
    isNode.opens known opening
  obtain ⟨frame', stack', bare⟩ := inside.top _ _ stack
  obtain rfl : frame' = .node before.tree.size := bare_eq_node_iff.mp bare
  obtain ⟨tree, below⟩ := isNode.closes _ _ _ _ _ closing stack'
  obtain ⟨rest, held⟩ := opens.held
  obtain ⟨node, found⟩ : ∃ node, before.tree.node? parent = some node :=
    ⟨_, Array.getElem?_eq_getElem (sound.known parent (by simp [held]))⟩
  have old {id : NodeId} {node : SchemaNode}
      (found : before.tree.node? id = some node) :
      inner.tree.node? id = some node :=
    opens.old (by simp [stack]) inside.toWrites found
  have placeless : statement.known ∉ attributeKeywords :=
    known ▸ isNode.placeless
  have unchanged : Attributes.Takes statement none node.attributes
      node.attributes :=
    Attributes.takes_of_not_mem
      (fun listed => placeless (node.keywords_subset listed)) placeless
  have fills : Fills statement { inner with stack := before.stack } after := by
    refine .node held below (old found) (fun other => ?_) (.refl node) unchanged
    rw [tree]
    split
    next is => exact is ▸ old found
    · rfl
  exact mirrors_of_fills { inner with stack := before.stack } rfl
    (fun _ _ => old) fills nested sound.known fun around done _ fits _ _ =>
      opens.mirrors stack inside sound (introduced around done) fits

/-- The type that a statement names decides whether it introduces a node. -/
theorem memberNode?_eq {name : QualifiedName}
    (argument : statement.argumentValue = some name.text) (position : Position)
    (span : Span) :
    statement.memberNode? =
      (membersOf (.ofName name position span)).map fun (construct, ending) =>
        (construct.kind, ending) := by
  obtain ⟨qualifier, name⟩ := name
  cases qualifier with
  | some qualifier =>
      have other (text : String) (colonless : ':' ∉ text.toList) :
          statement.argumentValue ≠ some text := by
        rw [argument]
        rintro ⟨rfl⟩
        simp [QualifiedName.text] at colonless
      rw [Statement.memberNode?, if_neg (other _ (by decide)),
        if_neg (other _ (by decide)), if_neg (other _ (by decide))]
      rfl
  | none =>
      have text : (⟨none, name⟩ : QualifiedName).text = name := rfl
      rw [text] at argument
      simp only [Statement.memberNode?, argument, Option.some.injEq, membersOf,
        TypeUse.ofName]
      cases found : BuiltinType.ofName? name with
      | none =>
          have other (builtin : BuiltinType) : name ≠ builtin.name := by
            rintro rfl
            cases builtin <;> exact absurd found (by decide)
          have enumeration : name ≠ "enumeration" := other .enumeration
          have bits : name ≠ "bits" := other .bits
          have union : name ≠ "union" := other .union
          simp [enumeration, bits, union]
      | some builtin =>
          have named : builtin.name = name := by
            simpa using List.find?_some found
          subst named
          cases builtin <;> decide

/-- A type moves into its holder. -/
theorem placeType_takes {use : TypeUse} {construct construct' : Construct}
    {member : Option Nat} (known : statement.known = .type)
    (built : Built statement (.type use))
    (placed : placeType use construct = some (construct', member)) :
    construct.Takes statement (some (Frame.type use).unlinked) construct' := by
  cases construct with
  | leaf body | leafList body | typedef body =>
      simp only [placeType, Option.some.injEq, Prod.mk.injEq] at placed
      obtain ⟨rfl, -⟩ := placed
      exact Construct.takes_part known built.unlinked rfl rfl (fun _ => rfl) rfl
        rfl
  | union members =>
      simp only [placeType, Option.some.injEq, Prod.mk.injEq] at placed
      obtain ⟨rfl, -⟩ := placed
      refine Construct.takes_part known built.unlinked rfl rfl (fun value => ?_)
        rfl rfl
      simp [Construct.attributes, Attributes.put]
  | _ => simp [placeType] at placed

theorem closeType_fills {use : TypeUse} {above : List Frame}
    {below : FrameStack} (known : statement.known = .type)
    (stack : inner.stack = above ++ .type use :: below)
    (members : above = [] ∨ ∃ id, above = [.node id])
    (built : Built statement (.type use))
    (closing : closeType inner statement = .ok after) :
    Fills statement { inner with stack := below } after := by
  obtain ⟨-, holder, construct, construct', member, held, found, placed, rfl⟩ :=
    closeType_eq_ok stack members closing
  obtain ⟨node, inTree, rfl⟩ := SchemaTree.construct?_eq_some_iff.mp found
  obtain ⟨rest, rfl⟩ := List.head?_eq_some_iff.mp held
  have fills : Fills statement { inner with stack := .node holder :: rest }
      (modifyConstruct { inner with stack := .node holder :: rest } holder
        fun _ => construct') :=
    fills_modifyConstruct (some (Frame.type use).unlinked) rfl inTree
      (placeType_takes known built placed)
  obtain quiet | ⟨_, _, -, asks⟩ := queueType_cases _ statement use ⟨holder, member⟩
  · rw [quiet]
    exact fills
  · rw [asks]
    exact fills.enqueue _ _ _

/-- Nothing is stored where no sub-statement asks for it. -/
theorem obeys_of_absent {attributes : Attributes}
    (initial : attributes.IsInitial)
    (absent : ∀ keyword ∈ attributes.keywords, statement.findAll keyword = []) :
    Obeys statement attributes := by
  refine .intro (fun place listed => ?_) (fun keyword part listed => ?_)
    fun keyword parts listed => ?_
  · have none := absent place.keyword <| List.mem_append_left _ <|
      List.mem_append_left _ (List.mem_map_of_mem listed)
    unfold Attribute.Obeys
    rw [none]
    exact initial.values place listed
  · have none := absent keyword <| List.mem_append_left _ <|
      List.mem_append_right _ (List.mem_map_of_mem (f := (·.1)) listed)
    obtain rfl : part = .none := initial.singles _ listed
    rw [none]
    exact .nil
  · have none := absent keyword <| List.mem_append_right _ <|
      List.mem_map_of_mem (f := (·.1)) listed
    obtain rfl : parts = [] := initial.lists _ listed
    rw [none]
    exact .nil

/-- Members of a type are stored in the node for them, and nothing else is. -/
theorem keywords_of_isAnonymousType {node : SchemaNode}
    (anonymous : node.kind.isAnonymousType = true) :
    node.attributes.keywords ⊆ [.enum, .bit, .type] := by
  cases is : node.construct with
  | enumeration members | bits members | union members =>
      simp [SchemaNode.attributes, SchemaNode.kind, is, Construct.attributes,
        Construct.kind, Metadata.attributes, Attributes.append,
        Attributes.keywords, Attributes.singleKeywords, takesDocumentation,
        takesStatus, takesWhen, takesMust]
  | _ =>
      simp [SchemaNode.kind, is, Construct.kind, ConstructKind.isAnonymousType]
        at anonymous

/-- The type of which the members have been read has no other sub-statements. -/
theorem built_of_members {use : TypeUse} {node : SchemaNode}
    (start : statement.frame? = some (Frame.type use).bare)
    (initial : (Frame.type use).attributes.IsInitial)
    (anonymous : node.kind.isAnonymousType = true)
    (hold : node.attributes.Hold statement.substatements) :
    Built statement (.type use) := by
  refine .intro start (obeys_of_absent initial fun keyword listed => ?_)
  refine List.filter_eq_nil_iff.mpr fun part inside same => ?_
  obtain rfl : part.known = keyword := by simpa using same
  have own : part.known ∈ [Keyword.fractionDigits, .path, .requireInstance,
    .base, .range, .length, .pattern] := listed
  have known : part.known ∈ attributeKeywords :=
    (show [Keyword.fractionDigits, .path, .requireInstance, .base, .range,
      .length, .pattern] ⊆ attributeKeywords by decide) own
  have member := keywords_of_isAnonymousType anonymous
    (hold.accepted part inside known)
  simp only [List.mem_cons, List.not_mem_nil, or_false] at own member
  obtain is | is | is := member <;> simp [is] at own

/-- The node for the members of a type is named as the statements say. -/
theorem membersName_eq {holder : NodeId} {node : SchemaNode}
    (found : draft.tree.node? holder = some node) {done : List Statement}
    (hold : node.attributes.Hold done) (ending : String) :
    membersName draft.tree holder ending =
      Statement.memberNodeName (some ⟨holder, node.name, node.kind⟩) done
        ending := by
  simp only [membersName, found, Statement.memberNodeName]
  split
  next members is =>
    have listed : (Keyword.type, members.map fun use =>
        (Frame.type use).unlinked) ∈ node.attributes.lists := by
      simp [SchemaNode.attributes, is, Construct.attributes, Attributes.append]
    have counted := (hold.lists _ _ listed).length_eq
    rw [List.length_map] at counted
    rw [if_pos (by simp [SchemaNode.kind, is, Construct.kind]), counted]
  next other =>
    rw [if_neg]
    intro union
    cases is : node.construct with
    | union members => exact other members is
    | _ => simp [SchemaNode.kind, is, Construct.kind] at union

/-- A type for members is a node in which nothing is bounded and nothing is
stored yet. -/
theorem membersOf_isPlain {use : TypeUse} {construct : Construct}
    {ending : String} (members : membersOf use = some (construct, ending)) :
    construct.attributes.IsInitial ∧ construct.config? = none ∧
      construct.kind.isAnonymousType = true ∧
        (construct.attributes.append
          (Metadata.empty.attributes construct.kind)).singleKeywords = [] := by
  unfold membersOf at members
  split at members <;>
    simp only [Option.some.injEq, Prod.mk.injEq, reduceCtorEq] at members
  all_goals
    obtain ⟨rfl, -⟩ := members
    exact ⟨isInitial_of_check rfl rfl rfl, rfl, rfl, rfl⟩

/-- A type moves into its holder, and the node for its members is added before. -/
theorem type_mirrors (known : statement.known = .type) (sound : before.IsSound)
    (opening : openType before statement = .ok opened)
    (inside : opened.Mirrors statement.substatements inner)
    (nested : inner.tree.IsNested)
    (closing : closeType inner statement = .ok after) :
    before.Mirrors [statement] after := by
  simp only [openType, bind_eq_ok_iff] at opening
  obtain ⟨name, read, _, checked, holder, held, opening⟩ := opening
  obtain ⟨kind, rest, stack, is, -⟩ := nodeHolder_eq_ok held
  obtain ⟨node, found, rfl⟩ := Option.map_eq_some_iff.mp is
  have argument := Statement.nameArgument_eq_ok read
  have start : statement.frame? = some
      (.type (.ofName name statement.position statement.headSpan)) := by
    simp [Statement.frame?, known, read, Except.toOption]
  have memberNode := memberNode?_eq argument statement.position
    statement.headSpan
  split at opening
  next construct ending members =>
    obtain rfl := pure_eq_ok_iff.mp opening
    rw [members] at memberNode
    obtain ⟨initial, configless, anonymous, single⟩ := membersOf_isPlain members
    have opens : before.OpensNode statement holder construct
        (membersName before.tree holder ending)
        ((before.push (.type { TypeUse.ofName name statement.position
            statement.headSpan with members := some before.nextId })).openNode
          statement holder construct (membersName before.tree holder ending)) :=
      ⟨⟨rest, stack⟩, rfl, initial, by simp [single], by simp [configless]⟩
    have first := opens.node? before.tree.size
    rw [if_pos rfl] at first
    obtain ⟨frame, stack', bare⟩ := inside.top _ _ rfl
    obtain rfl : frame = .node before.tree.size := bare_eq_node_iff.mp bare
    obtain ⟨body, found', head, -⟩ := inside.nodes _ _ first
    obtain ⟨attributes, holds, -, hold⟩ :=
      inside.held _ (held?_of_node rfl first)
    obtain rfl := Option.some.inj (holds.symm.trans (held?_of_node stack' found'))
    have built : Built statement (.type { TypeUse.ofName name
        statement.position statement.headSpan with
          members := some before.nextId }) :=
      built_of_members start (isInitial_of_check rfl rfl rfl)
        (head.kind ▸ anonymous)
        (hold [] (isInitial_append initial (isInitial_metadata _)).hold)
    have fills := closeType_fills known stack' (.inr ⟨_, rfl⟩) built closing
    refine mirrors_of_fills { inner with stack := before.stack } rfl
      (fun _ _ => opens.old rfl inside.toWrites) fills nested sound.known
      fun around done attributes fits holds hold => ?_
    obtain rfl := Option.some.inj (holds.symm.trans (held?_of_node stack found))
    refine opens.mirrors rfl inside sound ?_ fits
    obtain ⟨node', same, surrounding⟩ := fits holder (by simp [stack])
    obtain rfl := Option.some.inj (found.symm.trans same)
    simp [Statement.introduces?, known, memberNode, surrounding,
      membersName_eq found hold]
  next plain =>
    obtain rfl := pure_eq_ok_iff.mp opening
    rw [plain] at memberNode
    obtain ⟨frame, stack', bare⟩ := inside.top _ before.stack rfl
    have built := built_of_mirrors start rfl (by simp [Frame.kind]) checked rfl
      inside.toWrites stack'
    obtain ⟨use, rfl⟩ : ∃ use, frame = .type use := by
      cases frame <;> simp [Frame.bare] at bare
      exact ⟨_, rfl⟩
    have fills := closeType_fills known stack' (.inl rfl) built closing
    refine mirrors_of_fills { inner with stack := before.stack } rfl
      (fun id node found => ?_) fills nested sound.known
      fun around done _ _ _ _ => ?_
    · obtain ⟨node', found', -, same⟩ := inside.nodes id node found
      rwa [← same (by simp [push])]
    · rw [Statement.introductions_of_none (by simp [known])
        (by simp [Statement.introduces?, known, memberNode])]
      exact inside.added around [] _ (by simp [Fits, push])
        (held?_of_frame rfl (by simp [Frame.kind]))
        (isInitial_of_check rfl rfl rfl).hold

end Draft

end YangSchema
