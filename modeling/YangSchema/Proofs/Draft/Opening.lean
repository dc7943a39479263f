import YangSchema.Proofs.Draft.Following

/-!
# Statements that open a block

Opening a block pushes a frame, and for most of them adds a node.  The node has
no gaps yet, except for a `uses` or an `augment`, whose reference is queued in
the same step.
-/

namespace YangSchema

/-- A construct that declares nothing yet but a target. -/
structure Construct.IsBare (construct : Construct) : Prop where
  typeAt : ∀ member, construct.typeAt? member = none
  bindings : construct.bindings = []
  target : construct.target? = none

theorem Construct.isBare_of_check {construct : Construct}
    (check : (construct.type?.isNone && construct.kind != .union &&
      construct.bindings.isEmpty && construct.target?.isNone) = true) :
    construct.IsBare := by
  simp only [Bool.and_eq_true, bne_iff_ne, Option.isNone_iff_eq_none,
    List.isEmpty_iff] at check
  obtain ⟨⟨⟨type, plain⟩, bindings⟩, target⟩ := check
  refine ⟨fun member => ?_, bindings, target⟩
  cases member with
  | none => exact type
  | some index =>
      cases construct with
      | union members => exact absurd rfl plain
      | _ => rfl

/-- Without types there is only the gap of the construct itself. -/
theorem Construct.missingTarget?_of_hasGap {construct : Construct}
    (typeless : ∀ member, construct.typeAt? member = none) {id : NodeId}
    {inTypedef inGrouping : Prop} {kind : ReferenceKind}
    (gap : construct.HasGap id inTypedef inGrouping kind) :
    construct.missingTarget? = some kind := by
  cases gap with
  | target missing => exact missing
  | type declared => simp [typeless] at declared

theorem Construct.IsBare.isFresh {construct : Construct}
    (bare : construct.IsBare) {node : SchemaNode}
    (same : node.construct = construct)
    (typedef : construct.kind = .typedef →
      BuiltinType.ofName? node.name = none) : node.IsFresh := by
  subst same
  exact ⟨⟨typedef, fun declared => by simp [bare.typeAt] at declared⟩,
    by simp [bare.bindings]⟩

namespace Draft

/-- What holds between the drafts before and after a block has been opened. -/
structure Opens (before opened : Draft) (frames : List Frame) : Prop where
  sound : before.IsSound → opened.IsSound
  stack : opened.stack = frames ++ before.stack
  keeps : before.tree.Keeps opened.tree
  unlinked : before.IsSound → before.IsUnlinked → opened.IsUnlinked
  /-- A node is opened when it is added. -/
  fresh : ∀ id, .node id ∈ frames → before.tree.size ≤ id
  asks : ∀ place, place.isRepeatable = true →
    opened.queue.asked place = before.queue.asked place

/-- The repeatable place of a node that is opened is asked for once at most. -/
def AsksOnce (opened : Draft) (statement : Statement) (frame : Frame) : Prop :=
  ∀ id, frame = .node id → ∀ keyword,
    (opened.tree.kind? id).bind (·.asking?) = some keyword →
      (statement.substatements.map (·.known)).count keyword ≤ 1

/-- A frame that is a node of a kind. -/
def IsNodeOf (draft : Draft) (kind : ConstructKind) (frame : Frame) : Prop :=
  ∃ id, frame = .node id ∧ draft.tree.kind? id = some kind

variable {draft opened : Draft} {statement : Statement}

theorem asksOnce_of_kind {frame : Frame} (other : frame.kind ≠ .node) :
    opened.AsksOnce statement frame := by
  rintro id rfl
  simp [Frame.kind] at other

theorem IsNodeOf.asksOnce {kind : ConstructKind} {frame : Frame}
    (isNode : opened.IsNodeOf kind frame)
    (single : ∀ keyword, kind.asking? = some keyword →
      (statement.substatements.map (·.known)).count keyword ≤ 1) :
    opened.AsksOnce statement frame := by
  obtain ⟨id, rfl, known⟩ := isNode
  rintro _ ⟨rfl⟩ keyword asking
  rw [known] at asking
  exact single keyword asking

/-- The holder is the node on top of the stack. -/
theorem nodeHolder_eq_ok {accepts : ConstructKind → Bool} {id : NodeId}
    (ok : draft.nodeHolder statement accepts = .ok id) :
    ∃ kind rest, draft.stack = .node id :: rest ∧
      draft.tree.kind? id = some kind ∧ accepts kind = true := by
  cases stack : draft.stack with
  | nil => simp [nodeHolder, FrameStack.top, stack] at ok
  | cons top rest =>
      simp only [nodeHolder, FrameStack.top, stack, bind_eq_ok_iff,
        Except.ok.injEq, exists_eq_left'] at ok
      split at ok
      next other =>
        split at ok
        next accepted =>
          obtain rfl := pure_eq_ok_iff.mp ok
          obtain ⟨kind, known, accepted⟩ :=
            (Option.any_eq_true _ _).mp accepted
          exact ⟨kind, rest, rfl, known, accepted⟩
        · simp at ok
      · simp at ok

theorem nodeHolder_lt {accepts : ConstructKind → Bool} {id : NodeId}
    (ok : draft.nodeHolder statement accepts = .ok id) :
    id < draft.tree.size := by
  obtain ⟨kind, rest, -, known, -⟩ := nodeHolder_eq_ok ok
  exact SchemaTree.lt_size_of_kind? known

theorem IsSound.push (sound : draft.IsSound) {frame : Frame}
    (content : frame.IsSound) (other : frame.kind ≠ .node) :
    (draft.push frame).IsSound :=
  { sound with
    frames := List.forall_mem_cons.mpr ⟨content, sound.frames⟩
    known := fun id member => by
      obtain rfl | member := List.mem_cons.mp member
      · simp [Frame.kind] at other
      · exact sound.known id member }

theorem opens_push {frame : Frame} (content : frame.IsSound)
    (other : frame.kind ≠ .node) (memberless : frame.members? = none) :
    draft.Opens (draft.push frame) [frame] where
  sound sound := sound.push content other
  stack := rfl
  keeps := .refl draft.tree
  unlinked _ unlinked := unlinked.withStack (unlinked.fits.push memberless)
  fresh id member := by
    obtain rfl := List.mem_singleton.mp member
    simp [Frame.kind] at other
  asks _ _ := rfl

/-- A new node is sound together with the references that it makes. -/
theorem opens_node {parent : NodeId} {construct : Construct} {name : String}
    {added : ReferenceQueue} (inside : parent < draft.tree.size)
    (bare : construct.IsBare)
    (typedef : construct.kind = .typedef → BuiltinType.ofName? name = none)
    (queued : ∀ kind, construct.missingTarget? = some kind →
      added.Awaits kind draft.nextId)
    (single : added.length ≤ 1)
    (own : ∀ item ∈ added, item.origin = none ∧ item.state = .unresolved ∧
      item.consumer = draft.nextId ∧
        (item.kind = .uses ∨ item.kind = .augment)) :
    draft.Opens
      { draft.openNode statement parent construct name with
        queue := draft.queue ++ added }
      [.node draft.nextId] where
  sound sound :=
    { accounts := by
        intro id kind gap
        obtain old | ⟨rfl, gap | gap⟩ := SchemaTree.hasGap_addChild gap
        · exact (sound.accounts old).append_left added
        · have missing := Construct.missingTarget?_of_hasGap bare.typeAt gap
          exact (queued kind missing).append_right draft.queue
        · cases gap with
          | ifFeature listed => simp [SchemaNode.ofConstruct,
              Metadata.empty] at listed
      nodes := SchemaTree.forall_node_addChild sound.nodes
        (bare.isFresh rfl typedef)
      frames := List.forall_mem_cons.mpr ⟨trivial, sound.frames⟩
      unblocked := List.forall_mem_append.mpr ⟨sound.unblocked,
        fun item member => by simp [(own item member).2.1]⟩
      nested := sound.nested.addChild inside _
      known := fun id member => by
        have known : id = draft.tree.size ∨ id < draft.tree.size := by
          obtain same | member := List.mem_cons.mp member
          · exact .inl (Frame.node.inj same)
          · exact .inr (sound.known id member)
        change id < (draft.tree.addChild _ _).size
        rw [SchemaTree.size_addChild]
        omega
      warned := sound.warned }
  stack := rfl
  keeps := .addChild draft.tree parent _
  unlinked _ unlinked :=
    have added := unlinked.addNode statement parent name bare.typeAt bare.target
      single own
    added.withStack (added.fits.push rfl)
  fresh id member := by
    obtain rfl := Frame.node.inj (List.mem_singleton.mp member)
    exact Nat.le_refl _
  asks place repeatable := by
    have others : added.asked place = 0 := by
      refine ReferenceQueue.asked_eq_zero fun item member same => ?_
      obtain ⟨-, -, -, kind⟩ := own item member
      subst same
      unfold Reference.linkPlace at repeatable
      obtain kind | kind := kind <;> rw [kind] at repeatable <;>
        simp [ReferenceKind.linkPlace, LinkPlace.isRepeatable] at repeatable
    simp [others]

theorem opens_openNode {parent : NodeId} {construct : Construct}
    {name : String} (inside : parent < draft.tree.size)
    (bare : construct.IsBare)
    (typedef : construct.kind = .typedef → BuiltinType.ofName? name = none)
    (whole : construct.missingTarget? = none) :
    draft.Opens (draft.openNode statement parent construct name)
      [.node draft.nextId] := by
  have opens : draft.Opens
      { draft.openNode statement parent construct name with
        queue := draft.queue ++ [] }
      [.node draft.nextId] :=
    opens_node inside bare typedef (by simp [whole]) (by simp) (by simp)
  rw [List.append_nil] at opens
  exact opens

theorem isNodeOf_openNode (parent : NodeId) (construct : Construct)
    (name : String) :
    (draft.openNode statement parent construct name).IsNodeOf construct.kind
      (.node draft.nextId) := by
  refine ⟨draft.nextId, rfl, ?_⟩
  simp [openNode, addNode, push, SchemaTree.kind?, SchemaTree.node?_addChild,
    nextId, SchemaNode.ofConstruct, SchemaNode.kind]

theorem opens_openReferring {parent : NodeId} {construct : Construct}
    {name text : String} {kind : ReferenceKind}
    (inside : parent < draft.tree.size) (bare : construct.IsBare)
    (named : construct.kind ≠ .typedef)
    (missing : construct.missingTarget? = some kind)
    (refers : kind = .uses ∨ kind = .augment) :
    draft.Opens
      ((draft.openNode statement parent construct name).enqueue statement kind
        text draft.nextId)
      [.node draft.nextId] := by
  apply opens_node inside bare (fun typedef => absurd typedef named)
  · intro kind' missing'
    obtain rfl : kind = kind' := by simpa [missing] using missing'
    have awaits := ReferenceQueue.awaits_ofText kind text draft.nextId
      statement.position statement.headSpan
    obtain rfl | rfl := refers <;> exact awaits
  · exact Nat.le_refl 1
  · exact List.forall_mem_singleton.mpr ⟨rfl, rfl, rfl, refers⟩

/-- A unit is opened where nothing has been read yet. -/
theorem openUnit_eq_ok {construct : Construct}
    (ok : openUnit construct draft statement = .ok opened) :
    ∃ name, statement.identifierArgument = .ok name ∧
      Cardinality.check statement = .ok () ∧
      draft.stack = [] ∧ draft.tree.size = rootId ∧
      opened = { draft.push (.node rootId) with
        tree := draft.tree.addRoot (.ofConstruct construct name
          statement.position statement.headSpan) } := by
  simp only [openUnit, bind_eq_ok_iff] at ok
  obtain ⟨name, read, _, checked, ok⟩ := ok
  split at ok
  · simp at ok
  next vacant =>
    obtain ⟨unopened, empty⟩ : draft.stack = [] ∧ draft.tree.size = 0 := by
      simpa [SchemaTree.isEmpty, SchemaTree.size] using vacant
    exact ⟨name, read, checked, unopened, empty,
      (pure_eq_ok_iff.mp ok).symm⟩

theorem openUnit_opens {construct : Construct} (bare : construct.IsBare)
    (named : construct.kind ≠ .typedef)
    (whole : construct.missingTarget? = none)
    (ok : openUnit construct draft statement = .ok opened) :
    ∃ frame, (draft.stack = [] ∧ frame = .node rootId ∧
        opened.tree.kind? rootId = some construct.kind) ∧
      draft.Opens opened [frame] := by
  obtain ⟨name, -, -, unopened, empty, rfl⟩ := openUnit_eq_ok ok
  refine ⟨_, ⟨unopened, rfl, ?_⟩, fun sound => ?_, rfl,
    .addRoot draft.tree _, fun _ unlinked => ?_, ?_, fun _ _ => rfl⟩
  · simp [SchemaTree.kind?, SchemaTree.node?_addRoot, rootId, empty,
      SchemaNode.ofConstruct, SchemaNode.kind]
  · exact
    { accounts := by
        intro id kind gap
        obtain old | ⟨rfl, gap | gap⟩ := SchemaTree.hasGap_addRoot gap
        · exact sound.accounts old
        · have missing := Construct.missingTarget?_of_hasGap bare.typeAt gap
          simp [whole] at missing
        · cases gap with
          | ifFeature listed => simp [SchemaNode.ofConstruct,
              Metadata.empty] at listed
      nodes := SchemaTree.forall_node_addRoot sound.nodes
        (bare.isFresh rfl fun typedef => absurd typedef named)
      frames := List.forall_mem_cons.mpr ⟨trivial, sound.frames⟩
      unblocked := sound.unblocked
      nested := sound.nested.addRoot _
      known := fun id member => by
        obtain rfl : id = rootId := by
          simpa [push, unopened] using member
        simp [rootId]
      warned := sound.warned }
  · exact IsUnlinked.withStack
      (unlinked.addRoot bare.typeAt bare.target rfl)
      ((unlinked.addRoot bare.typeAt bare.target rfl).fits.push rfl)
  · intro id _
    rw [empty]
    exact Nat.zero_le id

theorem openImport_opens (ok : openImport draft statement = .ok opened) :
    ∃ frame, frame.kind = .importing ∧ draft.Opens opened [frame] := by
  simp only [openImport, bind_eq_ok_iff, pure_eq_ok_iff] at ok
  obtain ⟨module, _, _, _, _, _, rfl⟩ := ok
  exact ⟨_, rfl, opens_push rfl (by simp [Frame.kind]) rfl⟩

theorem openInclude_opens (ok : openInclude draft statement = .ok opened) :
    ∃ frame, frame.kind = .including ∧ draft.Opens opened [frame] := by
  simp only [openInclude, bind_eq_ok_iff, pure_eq_ok_iff] at ok
  obtain ⟨submodule, _, _, _, _, _, rfl⟩ := ok
  exact ⟨_, rfl, opens_push rfl (by simp [Frame.kind]) rfl⟩

theorem openBelongsTo_opens (ok : openBelongsTo draft statement = .ok opened) :
    ∃ frame, frame.kind = .belongsTo ∧ draft.Opens opened [frame] := by
  simp only [openBelongsTo, bind_eq_ok_iff, pure_eq_ok_iff] at ok
  obtain ⟨module, _, _, _, _, _, rfl⟩ := ok
  exact ⟨_, rfl, opens_push trivial (by simp [Frame.kind]) rfl⟩

theorem openRevision_opens (ok : openRevision draft statement = .ok opened) :
    ∃ frame, frame.kind = .revision ∧ draft.Opens opened [frame] := by
  simp only [openRevision, bind_eq_ok_iff, pure_eq_ok_iff] at ok
  obtain ⟨date, _, _, _, _, _, rfl⟩ := ok
  exact ⟨_, rfl, opens_push trivial (by simp [Frame.kind]) rfl⟩

theorem openDefinition_opens {accepts : ConstructKind → Bool}
    {category : NameCategory} {construct : Construct}
    (bare : construct.IsBare)
    (typedef : construct.kind = .typedef → ∀ name,
      statement.identifierArgument = .ok name →
        BuiltinType.ofName? name = none)
    (whole : construct.missingTarget? = none)
    (ok : openDefinition accepts category construct draft statement =
      .ok opened) :
    ∃ frame, opened.IsNodeOf construct.kind frame ∧
      draft.Opens opened [frame] := by
  simp only [openDefinition, bind_eq_ok_iff, pure_eq_ok_iff] at ok
  obtain ⟨name, named, _, _, parent, held, _, _, rfl⟩ := ok
  exact ⟨_, isNodeOf_openNode parent construct name,
    opens_openNode (nodeHolder_lt held) bare (fun is => typedef is name named)
      whole⟩

theorem openDefinition_checked {accepts : ConstructKind → Bool}
    {category : NameCategory} {construct : Construct}
    (ok : openDefinition accepts category construct draft statement =
      .ok opened) : Cardinality.check statement = .ok () := by
  simp only [openDefinition, bind_eq_ok_iff] at ok
  obtain ⟨_, _, _, checked, _⟩ := ok
  exact checked

theorem openTypedef_checked (ok : openTypedef draft statement = .ok opened) :
    Cardinality.check statement = .ok () := by
  simp only [openTypedef, bind_eq_ok_iff] at ok
  obtain ⟨name, _, ok⟩ := ok
  split at ok
  · simp at ok
  · exact openDefinition_checked ok

theorem openTypedef_opens (ok : openTypedef draft statement = .ok opened) :
    ∃ frame, opened.IsNodeOf .typedef frame ∧ draft.Opens opened [frame] := by
  simp only [openTypedef, bind_eq_ok_iff] at ok
  obtain ⟨name, named, ok⟩ := ok
  split at ok
  · simp at ok
  next other =>
    refine openDefinition_opens (Construct.isBare_of_check rfl)
      (fun _ name' named' => ?_) rfl ok
    obtain rfl : name = name' := by simpa [named] using named'
    simpa using other

theorem openRpcPart_opens {construct : Construct} (bare : construct.IsBare)
    (named : construct.kind ≠ .typedef)
    (whole : construct.missingTarget? = none)
    (ok : openRpcPart construct draft statement = .ok opened) :
    ∃ frame, opened.IsNodeOf construct.kind frame ∧
      draft.Opens opened [frame] := by
  simp only [openRpcPart, bind_eq_ok_iff, pure_eq_ok_iff] at ok
  obtain ⟨_, _, parent, held, rfl⟩ := ok
  exact ⟨_, isNodeOf_openNode parent construct _,
    opens_openNode (nodeHolder_lt held) bare (fun is => absurd is named) whole⟩

theorem openArgument_opens (ok : openArgument draft statement = .ok opened) :
    ∃ frame, frame.kind = .argument ∧ draft.Opens opened [frame] := by
  simp only [openArgument, bind_eq_ok_iff, pure_eq_ok_iff] at ok
  obtain ⟨name, _, _, _, _, _, rfl⟩ := ok
  exact ⟨_, rfl, opens_push trivial (by simp [Frame.kind]) rfl⟩

/-- A data node is opened with the config that its statement settles. -/
theorem openDataNode_eq_ok {accepts : ConstructKind → Bool}
    {construct : Config → Construct}
    (ok : openDataNode accepts construct draft statement = .ok opened) :
    ∃ name parent config, statement.identifierArgument = .ok name ∧
      Cardinality.check statement = .ok () ∧
      draft.nodeHolder statement accepts = .ok parent ∧
      draft.configWithin statement parent = .ok config ∧
      opened = draft.openNode statement parent (construct config) name := by
  simp only [openDataNode, bind_eq_ok_iff] at ok
  obtain ⟨name, read, _, checked, parent, held, ok⟩ := ok
  refine ⟨name, parent, ?_⟩
  split at ok
  all_goals
    simp only [bind_eq_ok_iff, pure_eq_ok_iff] at ok
    grind

theorem openDataNode_opens {accepts : ConstructKind → Bool}
    {construct : Config → Construct} {kind : ConstructKind}
    (isKind : ∀ config, (construct config).kind = kind)
    (named : kind ≠ .typedef) (bare : ∀ config, (construct config).IsBare)
    (whole : ∀ config, (construct config).missingTarget? = none)
    (ok : openDataNode accepts construct draft statement = .ok opened) :
    ∃ frame, opened.IsNodeOf kind frame ∧ draft.Opens opened [frame] := by
  obtain ⟨name, parent, config, -, -, held, -, rfl⟩ := openDataNode_eq_ok ok
  refine ⟨_, isKind config ▸ isNodeOf_openNode parent (construct config) name,
    opens_openNode (nodeHolder_lt held) (bare config) (fun is => ?_)
      (whole config)⟩
  exact absurd (is.symm.trans (isKind config)).symm named

theorem openDataNode_checked {accepts : ConstructKind → Bool}
    {construct : Config → Construct}
    (ok : openDataNode accepts construct draft statement = .ok opened) :
    Cardinality.check statement = .ok () := by
  obtain ⟨_, _, _, -, checked, -⟩ := openDataNode_eq_ok ok
  exact checked

theorem openUses_opens (ok : openUses draft statement = .ok opened) :
    ∃ frame, opened.IsNodeOf .uses frame ∧ draft.Opens opened [frame] := by
  simp only [openUses, bind_eq_ok_iff, pure_eq_ok_iff] at ok
  obtain ⟨grouping, _, _, _, parent, held, rfl⟩ := ok
  exact ⟨_, isNodeOf_openNode parent (.uses _) grouping.text,
    opens_openReferring (nodeHolder_lt held)
      (Construct.isBare_of_check rfl) (by simp [Construct.kind])
      rfl (.inl rfl)⟩

theorem openAugment_opens (ok : openAugment draft statement = .ok opened) :
    ∃ frame, opened.IsNodeOf .augment frame ∧ draft.Opens opened [frame] := by
  simp only [openAugment, bind_eq_ok_iff, pure_eq_ok_iff] at ok
  obtain ⟨path, _, parent, held, _, _, _, _, rfl⟩ := ok
  exact ⟨_, isNodeOf_openNode parent (.augment _) path,
    opens_openReferring (nodeHolder_lt held)
      (Construct.isBare_of_check rfl) (by simp [Construct.kind])
      rfl (.inr rfl)⟩

theorem openRefine_opens (ok : openRefine draft statement = .ok opened) :
    ∃ frame, frame.kind = .refine ∧ draft.Opens opened [frame] := by
  simp only [openRefine, bind_eq_ok_iff, pure_eq_ok_iff] at ok
  obtain ⟨_, _, _, _, _, _, target, _, rfl⟩ := ok
  exact ⟨_, rfl, opens_push trivial (by simp [Frame.kind]) rfl⟩

theorem openMust_opens (ok : openMust draft statement = .ok opened) :
    ∃ frame, frame.kind = .must ∧ draft.Opens opened [frame] := by
  simp only [openMust, bind_eq_ok_iff] at ok
  obtain ⟨condition, _, _, _, top, _, ok⟩ := ok
  have ok : opened = draft.push (.must ⟨condition, .empty⟩) := by
    split at ok
    all_goals
      simp only [bind_eq_ok_iff, pure_eq_ok_iff] at ok
      grind
  subst ok
  exact ⟨_, rfl, opens_push trivial (by simp [Frame.kind]) rfl⟩

theorem openWhen_opens (ok : openWhen draft statement = .ok opened) :
    ∃ frame, frame.kind = .when ∧ draft.Opens opened [frame] := by
  simp only [openWhen, bind_eq_ok_iff, pure_eq_ok_iff] at ok
  obtain ⟨condition, _, _, _, _, _, rfl⟩ := ok
  exact ⟨_, rfl, opens_push trivial (by simp [Frame.kind]) rfl⟩

theorem intervalsArgument_parsed {kind : IntervalKind} {intervals : Intervals}
    (read : statement.intervalsArgument kind = .ok intervals) :
    ∃ expression, Intervals.parse kind expression = .ok intervals := by
  simp only [Statement.intervalsArgument, bind_eq_ok_iff] at read
  obtain ⟨argument, _, read⟩ := read
  split at read
  next intervals' parsed =>
    obtain rfl := pure_eq_ok_iff.mp read
    exact ⟨argument, parsed⟩
  · simp at read

theorem openRange_opens (ok : openRange draft statement = .ok opened) :
    ∃ frame, frame.kind = .range ∧ draft.Opens opened [frame] := by
  simp only [openRange, bind_eq_ok_iff, pure_eq_ok_iff] at ok
  obtain ⟨intervals, read, _, _, _, _, rfl⟩ := ok
  exact ⟨_, rfl, opens_push (intervalsArgument_parsed read) (by simp [Frame.kind]) rfl⟩

theorem openLength_opens (ok : openLength draft statement = .ok opened) :
    ∃ frame, frame.kind = .length ∧ draft.Opens opened [frame] := by
  simp only [openLength, bind_eq_ok_iff, pure_eq_ok_iff] at ok
  obtain ⟨intervals, read, _, _, _, _, rfl⟩ := ok
  exact ⟨_, rfl, opens_push (intervalsArgument_parsed read) (by simp [Frame.kind]) rfl⟩

theorem openPattern_opens (ok : openPattern draft statement = .ok opened) :
    ∃ frame, frame.kind = .pattern ∧ draft.Opens opened [frame] := by
  simp only [openPattern, bind_eq_ok_iff, pure_eq_ok_iff] at ok
  obtain ⟨regex, _, _, _, _, _, rfl⟩ := ok
  exact ⟨_, rfl, opens_push trivial (by simp [Frame.kind]) rfl⟩

theorem openEnum_opens (ok : openEnum draft statement = .ok opened) :
    ∃ frame, frame.kind = .enum ∧ draft.Opens opened [frame] := by
  simp only [openEnum, bind_eq_ok_iff, pure_eq_ok_iff] at ok
  obtain ⟨name, _, _, _, parent, _, _, _, rfl⟩ := ok
  exact ⟨_, rfl, opens_push trivial (by simp [Frame.kind]) rfl⟩

theorem openBit_opens (ok : openBit draft statement = .ok opened) :
    ∃ frame, frame.kind = .bit ∧ draft.Opens opened [frame] := by
  simp only [openBit, bind_eq_ok_iff, pure_eq_ok_iff] at ok
  obtain ⟨name, _, _, _, parent, _, _, _, rfl⟩ := ok
  exact ⟨_, rfl, opens_push trivial (by simp [Frame.kind]) rfl⟩

/-- A type whose members live in a node gets what it requires there. -/
theorem has_of_membersOf {use : TypeUse} {node : Construct × String}
    (anonymous : membersOf use = some node) {builtin : BuiltinType}
    (named : use.builtin = some builtin) {keyword : Keyword}
    (required : requiredPart builtin = some keyword) (use' : TypeUse) :
    use'.Has keyword := by
  unfold membersOf at anonymous
  rw [named] at anonymous
  cases builtin <;> simp [requiredPart] at anonymous required <;>
    subst required <;> trivial

/-- The frames that a type opens:  its own, and above it the node for its members
if it has any. -/
inductive IsTypeOpening (opened : Draft) : List Frame → Prop
  | plain {use : TypeUse} (memberless : membersOf use = none) :
      IsTypeOpening opened [.type use]
  | withMembers {use : TypeUse} {construct : Construct} {ending : String}
      {id : NodeId} (members : membersOf use = some (construct, ending))
      (inTree : opened.tree.kind? id = some construct.kind) :
      IsTypeOpening opened [.node id, .type use]

/-- The node for the members of a type that is opened is new. -/
theorem unlinked_openMembers (sound : draft.IsSound)
    (unlinked : draft.IsUnlinked) {use : TypeUse} {construct : Construct}
    (members : use.members = some draft.nextId) (bare : construct.IsBare)
    (holder : NodeId) (name : String) :
    ((draft.push (.type use)).openNode statement holder construct
      name).IsUnlinked := by
  have added : (draft.addNode statement holder construct name).IsUnlinked := by
    suffices added : IsUnlinked { draft.addNode statement holder construct name
        with queue := draft.queue ++ [] } by
      rwa [List.append_nil] at added
    exact unlinked.addNode statement holder name bare.typeAt bare.target
      (Nat.zero_le 1) (List.forall_mem_nil _)
  have size : (draft.addNode statement holder construct name).tree.size =
      draft.tree.size + 1 := SchemaTree.size_addChild ..
  have same (slot : TypeSlot) : (draft.addNode statement holder construct
      name).tree.typeAt? slot = draft.tree.typeAt? slot :=
    SchemaTree.typeAt?_addChild draft.tree bare.typeAt slot
  have new {id : NodeId} (found : (Frame.type use).members? = some id) :
      id = draft.tree.size := Option.some.inj (found.symm.trans members)
  have fits : (draft.addNode statement holder construct name).tree.Fits
      (.type use :: draft.stack) := added.fits.cons ?_ ?_ ?_
  · exact added.withStack (fits.push rfl)
  · intro id found
    rw [new found, size]
    exact Nat.lt_succ_self _
  · intro id found slot holds
    have before := unlinked.members.inside
      ((SchemaTree.holdsMembers_congr same).mp holds)
    rw [new found] at before
    exact Nat.lt_irrefl _ before
  · intro below member id found
    rw [new found]
    refine ⟨fun other => ?_, fun holder is => ?_⟩
    · exact Nat.lt_irrefl _ (unlinked.fits.inside below member _ other)
    · exact sound.known holder (is ▸ member)

/-- The links of a type that has just been opened are all missing. -/
theorem openType_opens (ok : openType draft statement = .ok opened) :
    ∃ frames, opened.IsTypeOpening frames ∧ draft.Opens opened frames := by
  simp only [openType, bind_eq_ok_iff] at ok
  obtain ⟨name, _, _, _, holder, held, ok⟩ := ok
  have content (members : Option NodeId) : (Frame.type
      { TypeUse.ofName name statement.position statement.headSpan with
        members }).IsSound := by
    refine ⟨rfl, rfl, fun kind restriction declared => ?_⟩
    cases kind <;> simp [TypeUse.restriction?, TypeUse.ofName] at declared
  split at ok
  next construct ending anonymous =>
    obtain ⟨use, hasMembers, content, inNode, rfl⟩ : ∃ use : TypeUse,
        membersOf use = some (construct, ending) ∧ (Frame.type use).IsSound ∧
        use.members = some draft.nextId ∧
          opened = (draft.push (.type use)).openNode statement holder construct
            (membersName draft.tree holder ending) :=
      ⟨{ TypeUse.ofName name statement.position statement.headSpan with
          members := some draft.nextId }, anonymous, content _, rfl,
        (pure_eq_ok_iff.mp ok).symm⟩
    have bare : construct.IsBare ∧ construct.kind ≠ .typedef ∧
        construct.missingTarget? = none := by
      unfold membersOf at anonymous
      split at anonymous <;> simp only [Option.some.injEq, Prod.mk.injEq,
        reduceCtorEq] at anonymous
      all_goals
        obtain ⟨rfl, -⟩ := anonymous
        exact ⟨⟨fun member => by cases member <;> rfl, rfl, rfl⟩, by decide, rfl⟩
    have inside : holder < draft.tree.size := nodeHolder_lt held
    have opens : (draft.push (.type use)).Opens
        ((draft.push (.type use)).openNode statement holder construct
          (membersName draft.tree holder ending)) [.node draft.nextId] :=
      opens_openNode inside bare.1 (fun is => absurd is bare.2.1) bare.2.2
    obtain ⟨id, same, kind⟩ : IsNodeOf ((draft.push (.type use)).openNode
        statement holder construct (membersName draft.tree holder ending))
        construct.kind (.node draft.nextId) :=
      isNodeOf_openNode holder construct _
    obtain rfl := Frame.node.inj same
    refine ⟨_, .withMembers hasMembers kind,
      fun sound => opens.sound (sound.push content (by simp [Frame.kind])),
      rfl, opens.keeps, fun sound unlinked =>
        unlinked_openMembers sound unlinked inNode bare.1 holder _,
      fun id member => ?_, opens.asks⟩
    obtain rfl : id = draft.nextId := by simpa using member
    exact Nat.le_refl _
  next memberless =>
    obtain rfl := pure_eq_ok_iff.mp ok
    exact ⟨_, .plain memberless,
      opens_push (content none) (by simp [Frame.kind]) rfl⟩

end Draft

end YangSchema
