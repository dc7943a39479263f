import YangSchema.Proofs.Draft.Reading
import YangSchema.Proofs.Draft.Refusing

/-!
# The stack of open frames unwinds

A statement that opens a block pushes one frame, and a type that has members
pushes two.  What is read inside the block fills in the topmost of them and
leaves the others alone, so when the block is closed, the frames that its
statement has pushed are those on top.  Hence no step ever finds the stack empty
or a frame on top that is not its own, and the stack is empty in the end.
-/

namespace YangSchema

theorem Keyword.text_of_ofText {spelling : String} {keyword : Keyword}
    (known : ofText spelling = keyword) (named : keyword ∈ all) :
    keyword.text = spelling := by
  unfold ofText at known
  split at known
  next found spelled =>
    subst known
    simpa using List.find?_some spelled
  · split at known <;> subst known <;> simp [all] at named

namespace Draft

variable {before opened inner draft : Draft} {statement : Statement}
  {frame : Frame} {below : FrameStack} {id : NodeId}

section

variable {β : Type}

/-- A frame that has what is asked for is taken off. -/
theorem closeFrame_bind_refuses {α : Type} {kind : FrameKind}
    {content? : Frame → Option α} {next : α × Draft → Except StatementError β}
    (stack : draft.stack = frame :: below)
    (content : (content? frame).isSome = true)
    (continues : ∀ content,
      Refuses (next (content, { draft with stack := below }))) :
    Refuses (draft.closeFrame statement kind content? >>= next) := by
  obtain ⟨value, found⟩ := Option.isSome_iff_exists.mp content
  have closed : draft.closeFrame statement kind content? =
      .ok (value, { draft with stack := below }) := by
    simp only [closeFrame, FrameStack.take, stack, found]
    rfl
  rw [closed]
  exact continues value

/-- A node that is called like the statement is taken off. -/
theorem closeNode_bind_refuses {kind : ConstructKind}
    {next : NodeId × Draft → Except StatementError β}
    (stack : draft.stack = .node id :: below)
    (known : draft.tree.kind? id = some kind)
    (spelled : kind.keyword = statement.keywordText)
    (continues : Refuses (next (id, { draft with stack := below }))) :
    Refuses (draft.closeNode statement >>= next) := by
  have closed : draft.closeNode statement =
      .ok (id, { draft with stack := below }) := by
    simp [closeNode, FrameStack.top, FrameStack.popNode, stack, holderName,
      known, spelled, Frame.node?, bind, Except.bind, pure, Except.pure]
  rw [closed]
  exact continues

end

section

variable (stack : draft.stack = frame :: below) (held : below ≠ [])
include stack held

theorem closeImport_refuses (kind : frame.kind = .importing) :
    Refuses (closeImport draft statement) := by
  refine closeFrame_bind_refuses stack ?_ fun declaration => ?_
  · cases frame <;> simp [Frame.kind] at kind ⊢
  · simp [held]

theorem closeInclude_refuses (kind : frame.kind = .including) :
    Refuses (closeInclude draft statement) := by
  refine closeFrame_bind_refuses stack ?_ fun declaration => ?_
  · cases frame <;> simp [Frame.kind] at kind ⊢
  · simp [held]

theorem closeBelongsTo_refuses (kind : frame.kind = .belongsTo) :
    Refuses (closeBelongsTo draft statement) := by
  refine closeFrame_bind_refuses stack ?_ fun belongsTo => ?_
  · cases frame <;> simp [Frame.kind] at kind ⊢
  · simp [held]

theorem closeRevision_refuses (kind : frame.kind = .revision) :
    Refuses (closeRevision draft statement) := by
  refine closeFrame_bind_refuses stack ?_ fun revision => ?_
  · cases frame <;> simp [Frame.kind] at kind ⊢
  · simp [held]

theorem closeArgument_refuses (kind : frame.kind = .argument) :
    Refuses (closeArgument draft statement) := by
  refine closeFrame_bind_refuses stack ?_ fun argument => ?_
  · cases frame <;> simp [Frame.kind] at kind ⊢
  refine raises_bind_iff.mpr ⟨by simp [held], fun top _ => ?_⟩
  split <;> simp

theorem closeMust_refuses (kind : frame.kind = .must) :
    Refuses (closeMust draft statement) := by
  refine closeFrame_bind_refuses stack ?_ fun must => ?_
  · cases frame <;> simp [Frame.kind] at kind ⊢
  refine raises_bind_iff.mpr ⟨by simp [held], fun top _ => ?_⟩
  split <;> simp

theorem closeWhen_refuses (kind : frame.kind = .when) :
    Refuses (closeWhen draft statement) := by
  refine closeFrame_bind_refuses stack ?_ fun condition => ?_
  · cases frame <;> simp [Frame.kind] at kind ⊢
  refine raises_bind_iff.mpr ⟨by simp [held], fun top _ => ?_⟩
  split <;> simp

theorem closeRefine_refuses (kind : frame.kind = .refine) :
    Refuses (closeRefine draft statement) := by
  refine closeFrame_bind_refuses stack ?_ fun changes => ?_
  · cases frame <;> simp [Frame.kind] at kind ⊢
  dsimp only
  split
  · simp only [raises_bind_iff]
    refine ⟨by simp, fun _ _ => ⟨by simp [held], fun top _ => ?_⟩⟩
    split <;> simp
  · refine raises_bind_iff.mpr ⟨by simp [held], fun top _ => ?_⟩
    split <;> simp

theorem closeRange_refuses (kind : frame.kind = .range) :
    Refuses (closeRange draft statement) := by
  refine closeFrame_bind_refuses stack ?_ fun range => ?_
  · cases frame <;> simp [Frame.kind] at kind ⊢
  · simp [held]

theorem closeLength_refuses (kind : frame.kind = .length) :
    Refuses (closeLength draft statement) := by
  refine closeFrame_bind_refuses stack ?_ fun length => ?_
  · cases frame <;> simp [Frame.kind] at kind ⊢
  · simp [held]

theorem closePattern_refuses (kind : frame.kind = .pattern) :
    Refuses (closePattern draft statement) := by
  refine closeFrame_bind_refuses stack ?_ fun pattern => ?_
  · cases frame <;> simp [Frame.kind] at kind ⊢
  · simp [held]

theorem closeEnum_refuses (kind : frame.kind = .enum) :
    Refuses (closeEnum draft statement) := by
  refine closeFrame_bind_refuses stack ?_ fun member => ?_
  · cases frame <;> simp [Frame.kind] at kind ⊢
  refine raises_bind_iff.mpr ⟨by simp [held], fun parent _ => ?_⟩
  split <;> simp

theorem closeBit_refuses (kind : frame.kind = .bit) :
    Refuses (closeBit draft statement) := by
  refine closeFrame_bind_refuses stack ?_ fun member => ?_
  · cases frame <;> simp [Frame.kind] at kind ⊢
  refine raises_bind_iff.mpr ⟨by simp [held], fun parent _ => ?_⟩
  split <;> simp

end

section

variable {kind : ConstructKind} (stack : draft.stack = .node id :: below)
  (known : draft.tree.kind? id = some kind)
  (spelled : kind.keyword = statement.keywordText)
include stack known spelled

theorem closePlainNode_refuses : Refuses (closePlainNode draft statement) :=
  closeNode_bind_refuses stack known spelled (raises_pure _)

theorem closeTypedef_refuses : Refuses (closeTypedef draft statement) := by
  refine closeNode_bind_refuses stack known spelled ?_
  dsimp only
  split
  · split <;> simp
  · simp

theorem closeLeaf_refuses : Refuses (closeLeaf draft statement) := by
  refine closeNode_bind_refuses stack known spelled ?_
  dsimp only
  split <;> simp

theorem closeLeafList_refuses : Refuses (closeLeafList draft statement) := by
  refine closeNode_bind_refuses stack known spelled ?_
  dsimp only
  split <;> simp

theorem closeList_refuses : Refuses (closeList draft statement) := by
  refine closeNode_bind_refuses stack known spelled ?_
  dsimp only
  split <;> simp

theorem closeChoice_refuses : Refuses (closeChoice draft statement) := by
  refine closeNode_bind_refuses stack known spelled ?_
  dsimp only
  split
  · split <;> simp
  · simp

theorem closeAugment_refuses : Refuses (closeAugment draft statement) := by
  refine closeNode_bind_refuses stack known spelled ?_
  simp

end

/-- The module or submodule itself has nothing below it. -/
theorem closeUnit_refuses (stack : draft.stack = .node rootId :: below) :
    Refuses (closeUnit draft statement) := by
  refine raises_bind_iff.mpr ⟨by simp, fun _ _ => ?_⟩
  simp [FrameStack.popNode, stack, Frame.node?]

/-- The frames that a statement opens:  one that is called like the statement,
or those of a type. -/
inductive IsOpening (opened : Draft) (statement : Statement) :
    List Frame → Prop
  | single {frame : Frame} (other : frame.kind ≠ .type)
      (named : opened.holderName frame = statement.keywordText) :
      IsOpening opened statement [frame]
  | type {frames : List Frame} (known : statement.known = .type)
      (opening : opened.IsTypeOpening frames) :
      IsOpening opened statement frames

theorem IsOpening.ne_nil {frames : List Frame}
    (opening : opened.IsOpening statement frames) : frames ≠ [] := by
  cases opening with
  | single => simp
  | type known opening => cases opening <;> simp

/-- The frames of a type are still those of a type when they are filled in. -/
theorem IsTypeOpening.becomes {frames frames' : List Frame}
    (opening : opened.IsTypeOpening frames)
    (keeps : opened.tree.Keeps inner.tree)
    (becomes : FrameStack.Becomes frames frames') :
    inner.IsTypeOpening frames' := by
  cases opening with
  | plain memberless =>
      cases becomes with
      | top filled =>
          obtain ⟨use', rfl, builtin, -⟩ := filled
          refine .plain ?_
          rwa [membersOf, builtin]
  | withMembers members inTree =>
      cases becomes with
      | top filled =>
          obtain rfl : _ = Frame.node _ := filled
          exact .withMembers members (keeps.kind? inTree)

theorem isAnonymousType_of_membersOf {use : TypeUse} {construct : Construct}
    {ending : String} (members : membersOf use = some (construct, ending)) :
    construct.kind.isAnonymousType = true := by
  unfold membersOf at members
  split at members <;>
    simp only [Option.some.injEq, Prod.mk.injEq, reduceCtorEq] at members
  all_goals
    obtain ⟨rfl, -⟩ := members
    rfl

/-- The node for the members of a type is taken off, and its frame is left. -/
theorem closeMembers_of_opening {frames : List Frame}
    (opening : draft.IsTypeOpening frames)
    (stack : draft.stack = frames ++ below) :
    ∃ use, draft.closeMembers statement =
      .ok { draft with stack := .type use :: below } := by
  cases opening with
  | @plain use =>
      refine ⟨use, ?_⟩
      have same : { draft with stack := .type use :: below } = draft := by
        cases draft
        simp_all
      rw [same]
      simp [closeMembers, stack, FrameStack.top, bind, Except.bind, pure,
        Except.pure]
  | @withMembers use _ _ _ members inTree =>
      refine ⟨use, ?_⟩
      have anonymous := isAnonymousType_of_membersOf members
      simp [closeMembers, stack, FrameStack.top, FrameStack.popNode, inTree,
        anonymous, Frame.node?, bind, Except.bind, pure, Except.pure]

theorem closeType_refuses {frames : List Frame}
    (opening : draft.IsTypeOpening frames)
    (stack : draft.stack = frames ++ below) (held : below ≠ []) :
    Refuses (closeType draft statement) := by
  obtain ⟨use, closed⟩ : ∃ use, draft.closeMembers statement =
      .ok { draft with stack := .type use :: below } :=
    closeMembers_of_opening opening stack
  refine raises_bind_iff.mpr ⟨by simp [closed], fun popped is => ?_⟩
  obtain rfl := Except.ok.inj (closed.symm.trans is)
  refine closeFrame_bind_refuses rfl rfl fun use => ?_
  refine raises_bind_iff.mpr ⟨by simp, fun _ _ => raises_bind_iff.mpr
    ⟨by simp [held], fun top _ => ?_⟩⟩
  split
  · split
    · simp [held]
    · dsimp only
      split
      · simp
      · split <;> simp
  · simp [held]

/-- Where nothing is open, only extensions and a first unit can be read. -/
def Admits (draft : Draft) (keyword : Keyword) : Prop :=
  draft.stack = [] → keyword = .extensionInstance ∨
    keyword ∈ [Keyword.module, .submodule] ∧ draft.tree.isEmpty = true

/-- Keywords of statements that stand inside a unit. -/
def isInner (keyword : Keyword) : Bool :=
  keyword ∈ Keyword.all ∧ keyword ∉ [Keyword.module, .submodule]

theorem Admits.held {keyword : Keyword} (admits : draft.Admits keyword)
    (isInner : isInner keyword = true) : draft.stack ≠ [] := by
  intro empty
  simp only [Draft.isInner, decide_eq_true_eq] at isInner
  obtain rfl | ⟨unit, -⟩ := admits empty
  · simp [Keyword.all] at isInner
  · exact isInner.2 unit

/-- What a role does to the frames. -/
inductive Role.Unwinds (keyword : Keyword) : Role → Prop
  | block {openBlock closeBlock : Step}
      (opening : ∀ {draft}, draft.Admits keyword → ∀ statement,
        Refuses (openBlock draft statement))
      (opens : ∀ {before opened statement}, statement.known = keyword →
        openBlock before statement = .ok opened →
        ∃ frames, opened.IsOpening statement frames ∧
          before.Opens opened frames)
      (closing : ∀ {before opened inner statement keywords},
        statement.known = keyword → before.Admits keyword →
        openBlock before statement = .ok opened →
        opened.FollowsAsking keywords inner →
          Refuses (closeBlock inner statement)) :
      Unwinds keyword (.block openBlock closeBlock)
  | entry {write : Step}
      (writing : ∀ {draft}, draft.Admits keyword → ∀ statement,
        Refuses (write draft statement)) :
      Unwinds keyword (.entry write)
  | foreign : Unwinds keyword .foreign
  | refused {error : Statement → StatementError}
      (blames : ∀ statement, (error statement).BlamesSource) :
      Unwinds keyword (.refused error)

theorem mem_all_of_isInner {keyword : Keyword}
    (isInner : isInner keyword = true) : keyword ∈ Keyword.all := by
  simp only [Draft.isInner, decide_eq_true_eq] at isInner
  exact isInner.1

theorem holderName_of_kind (node : frame.kind ≠ .node)
    (type : frame.kind ≠ .type) : draft.holderName frame = frame.kind.name := by
  cases frame <;> simp [holderName, Frame.kind] at node type ⊢

section

variable {keyword : Keyword} (within : isInner keyword = true)
include within

/-- A block that fills in a part of its holder. -/
theorem unwinds_part {openBlock closeBlock : Step} {kind : FrameKind}
    (spelled : kind.name = keyword.text) (node : kind ≠ .node)
    (type : kind ≠ .type)
    (opening : ∀ {draft}, draft.stack ≠ [] → ∀ statement,
      Refuses (openBlock draft statement))
    (opens : ∀ {before opened statement},
      openBlock before statement = .ok opened →
        ∃ frame, frame.kind = kind ∧ before.Opens opened [frame])
    (closing : ∀ {draft : Draft} {statement frame below},
      draft.stack = frame :: below → below ≠ [] → frame.kind = kind →
        Refuses (closeBlock draft statement)) :
    (Role.block openBlock closeBlock).Unwinds keyword := by
  refine .block (fun admits => opening (admits.held within)) ?_ ?_
  · intro before opened statement known ok
    obtain ⟨frame, rfl, pushed⟩ := opens ok
    refine ⟨_, .single type ?_, pushed⟩
    rw [holderName_of_kind node type, spelled]
    exact Keyword.text_of_ofText known (mem_all_of_isInner within)
  · intro before opened inside statement _ known admits ok follows
    obtain ⟨frame, rfl, pushed⟩ := opens ok
    have becomes := follows.stack
    rw [pushed.stack] at becomes
    obtain ⟨frames', stack, becomes⟩ := becomes.of_append (by simp)
    cases becomes with
    | top filled => exact closing stack (admits.held within) filled.kind_eq

/-- A block that is a node of the tree. -/
theorem unwinds_node {openBlock closeBlock : Step} {kind : ConstructKind}
    (spelled : kind.keyword = keyword.text)
    (opening : ∀ {draft}, draft.stack ≠ [] → ∀ statement,
      Refuses (openBlock draft statement))
    (opens : ∀ {before opened statement},
      openBlock before statement = .ok opened →
        ∃ frame, opened.IsNodeOf kind frame ∧ before.Opens opened [frame])
    (closing : ∀ {draft : Draft} {statement id below},
      draft.stack = .node id :: below → draft.tree.kind? id = some kind →
        kind.keyword = statement.keywordText →
        Refuses (closeBlock draft statement)) :
    (Role.block openBlock closeBlock).Unwinds keyword := by
  have text {statement : Statement} (known : statement.known = keyword) :
      kind.keyword = statement.keywordText :=
    spelled.trans (Keyword.text_of_ofText known (mem_all_of_isInner within))
  refine .block (fun admits => opening (admits.held within)) ?_ ?_
  · intro before opened statement known ok
    obtain ⟨frame, ⟨id, rfl, isKind⟩, pushed⟩ := opens ok
    refine ⟨_, .single (by simp [Frame.kind]) ?_, pushed⟩
    simp [holderName, isKind, text known]
  · intro before opened inside statement _ known admits ok follows
    obtain ⟨frame, ⟨id, rfl, isKind⟩, pushed⟩ := opens ok
    have becomes := follows.stack
    rw [pushed.stack] at becomes
    obtain ⟨frames', stack, becomes⟩ := becomes.of_append (by simp)
    cases becomes with
    | top filled =>
        obtain rfl : _ = Frame.node id := filled
        exact closing stack (follows.keeps.kind? isKind) (text known)

theorem unwinds_dataNode {accepts : ConstructKind → Bool}
    {construct : Config → Construct} {kind : ConstructKind} {closeBlock : Step}
    (spelled : kind.keyword = keyword.text)
    (isKind : ∀ config, (construct config).kind = kind)
    (named : kind ≠ .typedef) (bare : ∀ config, (construct config).IsBare)
    (whole : ∀ config, (construct config).missingTarget? = none)
    (closing : ∀ {draft : Draft} {statement id below},
      draft.stack = .node id :: below → draft.tree.kind? id = some kind →
        kind.keyword = statement.keywordText →
        Refuses (closeBlock draft statement)) :
    (Role.block (openDataNode accepts construct) closeBlock).Unwinds keyword :=
  unwinds_node within spelled
    (fun held statement => openDataNode_refuses held statement _ _)
    (openDataNode_opens isKind named bare whole) closing

theorem unwinds_definition {accepts : ConstructKind → Bool}
    {category : NameCategory} {construct : Construct}
    (spelled : construct.kind.keyword = keyword.text)
    (named : construct.kind ≠ .typedef) (bare : construct.IsBare)
    (whole : construct.missingTarget? = none) :
    (Role.block (openDefinition accepts category construct)
      closePlainNode).Unwinds keyword :=
  unwinds_node within spelled
    (fun held statement => openDefinition_refuses held statement _ _ _)
    (openDefinition_opens bare (fun is => absurd is named) whole)
    closePlainNode_refuses

theorem unwinds_entry {write : Step}
    (writing : ∀ {draft : Draft}, draft.stack ≠ [] → ∀ statement,
      Refuses (write draft statement)) :
    (Role.entry write).Unwinds keyword :=
  .entry fun admits => writing (admits.held within)

end

theorem unwinds_unit {keyword : Keyword} {construct : Construct}
    (unit : keyword ∈ [Keyword.module, .submodule])
    (spelled : construct.kind.keyword = keyword.text)
    (named : construct.kind ≠ .typedef) (bare : construct.IsBare)
    (whole : construct.missingTarget? = none) :
    (Role.block (openUnit construct) closeUnit).Unwinds keyword := by
  refine .block ?_ ?_ ?_
  · intro draft admits statement
    refine openUnit_refuses (fun empty => ?_) construct statement
    obtain rfl | ⟨-, vacant⟩ := admits empty
    · simp at unit
    · exact vacant
  · intro before opened statement known ok
    obtain ⟨frame, ⟨-, rfl, isKind⟩, pushed⟩ :=
      openUnit_opens bare named whole ok
    refine ⟨_, .single (by simp [Frame.kind]) ?_, pushed⟩
    simp only [holderName, isKind, spelled]
    refine Keyword.text_of_ofText known ?_
    revert unit
    cases keyword <;> decide
  · intro before opened inside statement _ known admits ok follows
    obtain ⟨frame, ⟨-, rfl, -⟩, pushed⟩ := openUnit_opens bare named whole ok
    have becomes := follows.stack
    rw [pushed.stack] at becomes
    obtain ⟨frames', stack, becomes⟩ := becomes.of_append (by simp)
    cases becomes with
    | top filled =>
        obtain rfl : _ = Frame.node rootId := filled
        exact closeUnit_refuses stack

theorem unwinds_type : (Role.block openType closeType).Unwinds .type := by
  refine .block (fun admits _ => ?_) ?_ ?_
  · have held := admits.held (by decide)
    simp [held]
  · intro before opened statement known ok
    obtain ⟨frames, opening, pushed⟩ := openType_opens ok
    exact ⟨frames, .type known opening, pushed⟩
  · intro before opened inside statement _ known admits ok follows
    obtain ⟨frames, opening, pushed⟩ := openType_opens ok
    have becomes := follows.stack
    rw [pushed.stack] at becomes
    obtain ⟨frames', stack, becomes⟩ :=
      becomes.of_append (IsOpening.type known opening).ne_nil
    exact closeType_refuses (opening.becomes follows.keeps becomes) stack
      (admits.held (by decide))

theorem role_unwinds (keyword : Keyword) : (role keyword).Unwinds keyword := by
  cases keyword with
  | module | submodule =>
      exact unwinds_unit (by decide) rfl (by decide) (Construct.isBare_of_check rfl) rfl
  | yangVersion =>
      exact unwinds_entry (by decide) fun held _ => by simp [readYangVersion, held]
  | namespaceUri =>
      exact unwinds_entry (by decide) fun held _ => by simp [readNamespace, held]
  | prefixName =>
      exact unwinds_entry (by decide) fun held _ => by simp [readQualifier, held]
  | importModule =>
      exact unwinds_part (by decide) rfl (by decide) (by decide)
        (fun held _ => by simp [openImport, held]) openImport_opens
        closeImport_refuses
  | includeSubmodule =>
      exact unwinds_part (by decide) rfl (by decide) (by decide)
        (fun held _ => by simp [openInclude, held]) openInclude_opens
        closeInclude_refuses
  | revisionDate =>
      exact unwinds_entry (by decide) fun held _ => by simp [readRevisionDate, held]
  | belongsTo =>
      exact unwinds_part (by decide) rfl (by decide) (by decide)
        (fun held _ => by simp [openBelongsTo, held]) openBelongsTo_opens
        closeBelongsTo_refuses
  | organization =>
      exact unwinds_entry (by decide) fun held _ => by simp [readOrganization, held]
  | contact =>
      exact unwinds_entry (by decide) fun held _ => by simp [readContact, held]
  | description | reference =>
      exact unwinds_entry (by decide) fun held _ => by
        simp [readDocumentation, held]
  | revision =>
      exact unwinds_part (by decide) rfl (by decide) (by decide)
        (fun held _ => by simp [openRevision, held]) openRevision_opens
        closeRevision_refuses
  | extensionDefinition | identity | feature | grouping | case | rpc
    | notification =>
      exact unwinds_definition (by decide) rfl (by decide)
        (Construct.isBare_of_check rfl) rfl
  | argument =>
      exact unwinds_part (by decide) rfl (by decide) (by decide)
        (fun held _ => by simp [openArgument, held]) openArgument_opens
        closeArgument_refuses
  | yinElement =>
      exact unwinds_entry (by decide) fun held _ => by simp [readYinElement, held]
  | base => exact unwinds_entry (by decide) fun held _ => by simp [held]
  | ifFeature =>
      exact unwinds_entry (by decide) fun held _ => by simp [readIfFeature, held]
  | typedef =>
      exact unwinds_node (by decide) rfl
        (fun held _ => by simp [openTypedef, held])
        openTypedef_opens closeTypedef_refuses
  | type => exact unwinds_type
  | units => exact unwinds_entry (by decide) fun held _ => by simp [readUnits, held]
  | default =>
      exact unwinds_entry (by decide) fun held _ => by simp [readDefault, held]
  | status =>
      exact unwinds_entry (by decide) fun held _ => by simp [readStatus, held]
  | config =>
      exact unwinds_entry (by decide) fun held _ => by simp [readConfig, held]
  | mandatory =>
      exact unwinds_entry (by decide) fun held _ => by simp [readMandatory, held]
  | presence =>
      exact unwinds_entry (by decide) fun held _ => by simp [readPresence, held]
  | orderedBy =>
      exact unwinds_entry (by decide) fun held _ => by simp [readOrderedBy, held]
  | must =>
      exact unwinds_part (by decide) rfl (by decide) (by decide)
        (fun held _ => by simp [held]) openMust_opens
        closeMust_refuses
  | errorMessage =>
      exact unwinds_entry (by decide) fun held _ => by simp [readErrorMessage, held]
  | errorAppTag =>
      exact unwinds_entry (by decide) fun held _ => by simp [readErrorAppTag, held]
  | minElements =>
      exact unwinds_entry (by decide) fun held _ => by simp [readMinElements, held]
  | maxElements =>
      exact unwinds_entry (by decide) fun held _ => by simp [readMaxElements, held]
  | value => exact unwinds_entry (by decide) fun held _ => by simp [readValue, held]
  | container | anyxml =>
      exact unwinds_dataNode (by decide) rfl (fun _ => rfl) (by decide)
        (fun _ => Construct.isBare_of_check rfl) (fun _ => rfl)
        closePlainNode_refuses
  | leaf =>
      exact unwinds_dataNode (by decide) rfl (fun _ => rfl) (by decide)
        (fun _ => Construct.isBare_of_check rfl) (fun _ => rfl) closeLeaf_refuses
  | leafList =>
      exact unwinds_dataNode (by decide) rfl (fun _ => rfl) (by decide)
        (fun _ => Construct.isBare_of_check rfl) (fun _ => rfl)
        closeLeafList_refuses
  | list =>
      exact unwinds_dataNode (by decide) rfl (fun _ => rfl) (by decide)
        (fun _ => Construct.isBare_of_check rfl) (fun _ => rfl) closeList_refuses
  | key => exact unwinds_entry (by decide) fun held _ => by simp [readKey, held]
  | unique =>
      exact unwinds_entry (by decide) fun held _ => by simp [readUnique, held]
  | choice =>
      exact unwinds_dataNode (by decide) rfl (fun _ => rfl) (by decide)
        (fun _ => Construct.isBare_of_check rfl) (fun _ => rfl)
        closeChoice_refuses
  | uses =>
      exact unwinds_node (by decide) rfl
        (fun held _ => by simp [openUses, held]) openUses_opens
        closePlainNode_refuses
  | refine =>
      exact unwinds_part (by decide) rfl (by decide) (by decide)
        (fun held _ => by simp [openRefine, held]) openRefine_opens
        closeRefine_refuses
  | augment =>
      exact unwinds_node (by decide) rfl
        (fun held _ => by simp [openAugment, held]) openAugment_opens
        closeAugment_refuses
  | when =>
      exact unwinds_part (by decide) rfl (by decide) (by decide)
        (fun held _ => by simp [openWhen, held]) openWhen_opens
        closeWhen_refuses
  | input | output =>
      exact unwinds_node (by decide) rfl (fun held _ => by simp [held])
        (openRpcPart_opens (Construct.isBare_of_check rfl) (by decide) rfl)
        closePlainNode_refuses
  | range =>
      exact unwinds_part (by decide) rfl (by decide) (by decide)
        (fun held _ => by simp [openRange, held]) openRange_opens
        closeRange_refuses
  | length =>
      exact unwinds_part (by decide) rfl (by decide) (by decide)
        (fun held _ => by simp [openLength, held]) openLength_opens
        closeLength_refuses
  | pattern =>
      exact unwinds_part (by decide) rfl (by decide) (by decide)
        (fun held _ => by simp [openPattern, held]) openPattern_opens
        closePattern_refuses
  | enum =>
      exact unwinds_part (by decide) rfl (by decide) (by decide)
        (fun held _ => by simp [openEnum, held]) openEnum_opens
        closeEnum_refuses
  | bit =>
      exact unwinds_part (by decide) rfl (by decide) (by decide)
        (fun held _ => by simp [openBit, held]) openBit_opens
        closeBit_refuses
  | position =>
      exact unwinds_entry (by decide) fun held _ => by simp [readPosition, held]
  | path => exact unwinds_entry (by decide) fun held _ => by simp [readPath, held]
  | requireInstance =>
      exact unwinds_entry (by decide) fun held _ => by
        simp [readRequireInstance, held]
  | fractionDigits =>
      exact unwinds_entry (by decide) fun held _ => by
        simp [readFractionDigits, held]
  | deviation | deviate => exact .refused blamesSource_unsupported
  | extensionInstance => exact .foreign
  | unknown => exact .refused blamesSource_unknown

end Draft

end YangSchema
