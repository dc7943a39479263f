import YangSchema.Proofs.Draft.Closing
import YangSchema.Proofs.Draft.Opening
import YangSchema.Proofs.Draft.TypeBlock
import YangSchema.Proofs.Draft.Writing
import YangSchema.Proofs.Linking.Settling

/-!
# Reading a unit keeps the draft sound

A block is opened, its sub-statements are read and it is closed: the draft at
the end follows the one at the start, since the frame that was opened is gone
and only the one below it has been filled in.  By induction over the statements
this holds of everything that is read, so a unit that has been read without an
error has a reference for each of its gaps.
-/

namespace YangSchema

theorem SchemaNode.IsFresh.of_text {node node' : SchemaNode}
    (fresh : node.IsFresh) (same : node'.text = node.text) : node'.IsFresh where
  sound := fresh.sound.of_text same
  unbound := by
    rw [bindings_eq_of_text same]
    exact fresh.unbound

/-- The sub-statements that some built-in type requires. -/
def requiredKeywords : List Keyword :=
  [.base, .path, .fractionDigits]

theorem TypeUse.has_of_not_mem (use : TypeUse) {keyword : Keyword}
    (shared : keyword ∉ requiredKeywords) : use.Has keyword := by
  cases keyword
  case base | path | fractionDigits => simp [requiredKeywords] at shared
  all_goals trivial

namespace Draft

variable {before opened inner after draft result : Draft}
  {statement : Statement}

/-- The unit that a draft is linked as. -/
def asUnit (draft : Draft) : LinkUnit where
  tree := draft.tree
  queue := draft.queue
  usable := true
  deferredKeys := draft.deferredKeys

theorem IsSound.asUnit (sound : draft.IsSound) :
    Linking.IsSound [draft.asUnit] where
  usable :=
    { usable := by simp [Draft.asUnit]
      imports := by
        intro unit member header declared declaration listed source resolved
        obtain rfl := List.mem_singleton.mp member
        obtain ⟨root, found, declared⟩ := Option.bind_eq_some_iff.mp declared
        have unresolved := (sound.nodes found).unbound _
          (Construct.mem_bindings_of_import declared listed)
        simp [unresolved] at resolved }
  distinct := by simp
  units := by
    intro unit member
    obtain rfl := List.mem_singleton.mp member
    exact ⟨sound.accounts, fun found => (sound.nodes found).sound,
      sound.unblocked⟩

/-- Linking a unit alone yields a unit that has evolved from it. -/
theorem asUnit_linkInside (draft : Draft) :
    Linking.link .intraFile [draft.asUnit] = [draft.linkInside.asUnit] ∧
      draft.asUnit.Evolves draft.linkInside.asUnit := by
  have evolves := Linking.link_evolves .intraFile [draft.asUnit]
  obtain ⟨linked, alone⟩ := List.length_eq_one_iff.mp evolves.length
  rw [alone] at evolves
  obtain ⟨_, same, evolved⟩ := evolves.unit
    (show [draft.asUnit][0]? = some draft.asUnit from rfl)
  obtain rfl : linked = _ := by simpa using same
  have inside : draft.linkInside =
      { draft with tree := linked.tree, queue := linked.queue } := by
    unfold linkInside
    dsimp only
    split
    next other only =>
      obtain rfl := (List.cons.inj (only.symm.trans alone)).1
      rfl
    next none => exact absurd alone (none linked)
  have unit : linked = draft.linkInside.asUnit := by
    obtain ⟨tree, queue, usable, deferred⟩ := linked
    obtain rfl : usable = true := evolved.usable
    obtain rfl : deferred = draft.deferredKeys := evolved.deferred
    rw [inside]
    rfl
  rw [alone, ← unit]
  exact ⟨rfl, evolved⟩

theorem stack_linkInside (draft : Draft) :
    draft.linkInside.stack = draft.stack ∧
      draft.linkInside.warnings = draft.warnings := by
  unfold linkInside
  dsimp only
  split <;> exact ⟨rfl, rfl⟩

/-- Nothing is imported yet, so the references that linking leaves over are
those that another unit may still fill. -/
theorem linkInside_follows (unwound : draft.stack = []) :
    draft.Follows draft.linkInside := by
  obtain ⟨linked, evolved⟩ := asUnit_linkInside draft
  obtain ⟨stack, warnings⟩ := stack_linkInside draft
  have text : draft.tree.SameText draft.linkInside.tree := evolved.text
  refine ⟨fun sound => ?_, stack ▸ .refl draft.stack, text.keeps,
    fun held => absurd (stack.trans unwound) held,
    fun held => absurd (stack.trans unwound) held⟩
  have whole : draft.linkInside.asUnit.IsSound := by
    have sound := Linking.link_isSound .intraFile sound.asUnit
    rw [linked] at sound
    exact sound.units _ (List.mem_singleton_self _)
  refine ⟨whole.accounts, fun found => ?_, stack ▸ sound.frames,
    whole.unblocked, text.outline.isNested sound.nested, fun id member => ?_,
    warnings ▸ sound.warned⟩
  · obtain ⟨node, known, text⟩ := text.node? found
    exact (sound.nodes known).of_text text
  · exact Nat.lt_of_lt_of_le (sound.known id (stack ▸ member)) text.keeps.size_le

/-- Closing the unit links it, since nothing else is open. -/
theorem closeUnit_eq_ok {top : Frame} (stack : draft.stack = [top])
    (ok : closeUnit draft statement = .ok after) :
    after = { draft with stack := [] }.linkInside := by
  simp only [closeUnit, bind_eq_ok_iff, pure_eq_ok_iff] at ok
  obtain ⟨_, _, below, popped, rfl⟩ := ok
  have same := popNode_eq_ok popped
  rw [stack] at same
  obtain rfl := (List.cons.inj same).2
  rfl

theorem closeUnit_closes {top : Frame} (stack : draft.stack = [top])
    (ok : closeUnit draft statement = .ok after) : draft.Closes after := by
  obtain rfl := closeUnit_eq_ok stack ok
  exact closes_of_follows stack (linkInside_follows rfl)

/-- A block as a whole leaves its holder filled in. -/
theorem follows_of_block {frame : Frame} (opens : before.Opens opened [frame])
    (inside : opened.FollowsAsking
      (statement.substatements.map (·.known)) inner)
    (closes : inner.Closes after) (once : opened.AsksOnce statement frame) :
    before.Follows after where
  sound sound := closes.sound (inside.sound (opens.sound sound))
  stack := by
    have becomes := inside.stack
    rw [opens.stack] at becomes
    obtain ⟨top, rest, stack, filled⟩ := closes.stack
    rw [stack] at becomes
    cases becomes with
    | top => exact filled
  keeps := (opens.keeps.trans inside.keeps).trans closes.keeps
  unlinked held sound unlinked :=
    have sound' := opens.sound sound
    have pushed : opened.stack ≠ [] := by simp [opens.stack]
    closes.unlinked held (inside.sound sound') <|
      inside.unlinked (inside.held.mpr pushed) sound'
        (opens.unlinked sound unlinked)
  asks held sound unlinked := by
    have sound' := opens.sound sound
    have unlinked' := opens.unlinked sound unlinked
    have open' := inside.held.mpr (by simp [opens.stack])
    have asks := inside.asks open' sound' unlinked'
    have closing := closes.asks held (inside.sound sound')
      (inside.unlinked open' sound' unlinked')
    -- Only the node that the statement has opened can have been asked more.
    have asked (place : LinkPlace) (repeatable : place.isRepeatable = true)
        (known : place.node < opened.tree.size) :
        after.queue.asked place ≤ before.queue.asked place +
          if frame = .node place.node then 1 else 0 := by
      have kept := closing.old place repeatable
        (Nat.lt_of_lt_of_le known inside.keeps.size_le)
      have asked := asks.old place repeatable known
      rw [opens.asks place repeatable] at asked
      rw [allowance_nil, Nat.add_zero] at kept
      refine Nat.le_trans kept (Nat.le_trans asked (Nat.add_le_add_left ?_ _))
      unfold allowance
      rw [opens.stack, List.cons_append, List.head?_cons]
      simp only [Option.some.injEq]
      split
      next top =>
        cases asking :
            (opened.tree.kind? place.node).bind (·.asking?) with
        | none => exact Nat.zero_le 1
        | some keyword => exact once _ top keyword asking
      · exact Nat.le_refl 0
    refine ⟨fun place repeatable old => ?_, fun place repeatable outside => ?_⟩
    · have other : frame ≠ .node place.node := by
        rintro rfl
        exact absurd old (Nat.not_lt_of_le
          (opens.fresh _ (List.mem_singleton_self _)))
      have asked := asked place repeatable
        (Nat.lt_of_lt_of_le old opens.keeps.size_le)
      rwa [if_neg other, ← allowance_nil place.node] at asked
    · by_cases known : place.node < opened.tree.size
      · have asked := asked place repeatable known
        rw [unlinked.asked_eq_zero_of_le repeatable outside,
          Nat.zero_add] at asked
        refine Nat.le_trans asked ?_
        split
        · exact Nat.le_refl 1
        · exact Nat.zero_le 1
      · by_cases inner' : place.node < inner.tree.size
        · have kept := closing.old place repeatable inner'
          rw [allowance_nil, Nat.add_zero] at kept
          exact Nat.le_trans kept
            (asks.new place repeatable (Nat.le_of_not_lt known))
        · exact closing.new place repeatable (Nat.le_of_not_lt inner')

/-- A statement that types do not ask for has been read. -/
theorem Reads.of_follows (follows : draft.FollowsAsking [statement.known] result)
    (shared : statement.known ∉ requiredKeywords) :
    draft.Reads [statement] result where
  follows := follows
  has other member _ _ _ use _ _ := by
    obtain rfl := List.mem_singleton.mp member
    exact use.has_of_not_mem shared

/-- What a role does is what statements of its keyword may do. -/
inductive Role.IsSound (keyword : Keyword) : Role → Prop
  | block {openBlock closeBlock : Step}
      (shared : keyword ∉ requiredKeywords)
      (follows : ∀ {before opened inner after statement},
        statement.known = keyword → openBlock before statement = .ok opened →
        opened.Reads statement.substatements inner →
        closeBlock inner statement = .ok after →
          before.FollowsAsking [keyword] after) :
      IsSound keyword (.block openBlock closeBlock)
  | entry {write : Step}
      (reads : ∀ {draft result statement}, statement.known = keyword →
        write draft statement = .ok result → draft.Reads [statement] result) :
      IsSound keyword (.entry write)
  | foreign (shared : keyword ∉ requiredKeywords) :
      IsSound keyword .foreign
  | refused (error : Statement → StatementError) :
      IsSound keyword (.refused error)

section

variable {keyword : Keyword} (shared : keyword ∉ requiredKeywords)
include shared

theorem isSound_block {openBlock closeBlock : Step}
    (IsFrame : Draft → Draft → Frame → Prop)
    (opens : ∀ {before opened statement},
      openBlock before statement = .ok opened →
        ∃ frame, IsFrame before opened frame ∧ before.Opens opened [frame])
    (closes : ∀ {inner after statement},
      closeBlock inner statement = .ok after → inner.Closes after)
    (once : ∀ {before opened statement frame}, statement.known = keyword →
      openBlock before statement = .ok opened → IsFrame before opened frame →
        opened.AsksOnce statement frame) :
    (Role.block openBlock closeBlock).IsSound keyword :=
  .block shared fun known opening inside closing =>
    have ⟨_, isFrame, opened⟩ := opens opening
    (follows_of_block opened inside.follows (closes closing)
      (once known opening isFrame)).asking _

theorem isSound_frame {openBlock closeBlock : Step} {kind : FrameKind}
    (other : kind ≠ .node)
    (opens : ∀ {before opened statement},
      openBlock before statement = .ok opened →
        ∃ frame, frame.kind = kind ∧ before.Opens opened [frame])
    (closes : ∀ {inner after statement},
      closeBlock inner statement = .ok after → inner.Closes after) :
    (Role.block openBlock closeBlock).IsSound keyword :=
  isSound_block shared (fun _ _ frame => frame.kind = kind) opens closes
    fun _ _ is => asksOnce_of_kind (is ▸ other)

/-- The statements that ask for the repeatable place of a node are bounded. -/
theorem isSound_node {openBlock closeBlock : Step} {kind : ConstructKind}
    (opens : ∀ {before opened statement},
      openBlock before statement = .ok opened →
        ∃ frame, opened.IsNodeOf kind frame ∧ before.Opens opened [frame])
    (closes : ∀ {inner after statement},
      closeBlock inner statement = .ok after → inner.Closes after)
    (checked : kind.asking? ≠ none → ∀ {before opened statement},
      openBlock before statement = .ok opened →
        Cardinality.check statement = .ok ())
    (bounded : ∀ asking, kind.asking? = some asking →
      (asking, .one) ∈ Cardinality.allRules keyword ∨
        (asking, .maxOne) ∈ Cardinality.allRules keyword) :
    (Role.block openBlock closeBlock).IsSound keyword :=
  isSound_block shared (fun _ opened => opened.IsNodeOf kind) opens closes
    fun known opening is => is.asksOnce fun asking found => by
      subst known
      exact Cardinality.count_le_one (checked (by simp [found]) opening)
        (bounded asking found)

theorem isSound_unit {construct : Construct} (bare : construct.IsBare)
    (named : construct.kind ≠ .typedef)
    (silent : construct.kind.asking? = none)
    (whole : construct.missingTarget? = none) :
    (Role.block (openUnit construct) closeUnit).IsSound keyword := by
  refine .block shared fun _ opening inside closing => ?_
  obtain ⟨frame, ⟨unopened, isRoot, known⟩, opened⟩ :=
    openUnit_opens bare named whole opening
  have becomes := inside.follows.stack
  rw [opened.stack, unopened] at becomes
  obtain ⟨frames, stack, becomes⟩ := becomes.of_append (by simp)
  cases becomes with
  | top filled =>
      have isNode : IsNodeOf _ construct.kind frame := ⟨rootId, isRoot, known⟩
      exact (follows_of_block opened inside.follows
        (closeUnit_closes stack closing)
        (isNode.asksOnce (by simp [silent]))).asking _

theorem isSound_definition {accepts : ConstructKind → Bool}
    {category : NameCategory} {construct : Construct}
    (bare : construct.IsBare) (named : construct.kind ≠ .typedef)
    (bounded : ∀ asking, construct.kind.asking? = some asking →
      (asking, .one) ∈ Cardinality.allRules keyword ∨
        (asking, .maxOne) ∈ Cardinality.allRules keyword)
    (whole : construct.missingTarget? = none) :
    (Role.block (openDefinition accepts category construct)
      closePlainNode).IsSound keyword :=
  isSound_node shared
    (openDefinition_opens bare (fun is => absurd is named) whole)
    closePlainNode_closes (fun _ => openDefinition_checked) bounded

theorem isSound_dataNode {accepts : ConstructKind → Bool}
    {construct : Config → Construct} {kind : ConstructKind} {closeBlock : Step}
    (isKind : ∀ config, (construct config).kind = kind)
    (named : kind ≠ .typedef) (bare : ∀ config, (construct config).IsBare)
    (bounded : ∀ asking, kind.asking? = some asking →
      (asking, .one) ∈ Cardinality.allRules keyword ∨
        (asking, .maxOne) ∈ Cardinality.allRules keyword)
    (whole : ∀ config, (construct config).missingTarget? = none)
    (closes : ∀ {inner after statement},
      closeBlock inner statement = .ok after → inner.Closes after) :
    (Role.block (openDataNode accepts construct) closeBlock).IsSound keyword :=
  isSound_node shared (openDataNode_opens isKind named bare whole) closes
    (fun _ => openDataNode_checked) bounded

theorem isSound_entry {write : Step}
    (follows : ∀ {draft result statement},
      write draft statement = .ok result → draft.Follows result) :
    (Role.entry write).IsSound keyword := by
  refine .entry fun known ok => .of_follows ((follows ok).asking _) ?_
  rw [known]
  exact shared

end

theorem role_isSound (keyword : Keyword) : (role keyword).IsSound keyword := by
  cases keyword with
  | module | submodule =>
      exact isSound_unit (by decide) (Construct.isBare_of_check rfl)
        (by decide) (by decide) rfl
  | yangVersion => exact isSound_entry (by decide) readYangVersion_follows
  | namespaceUri => exact isSound_entry (by decide) readNamespace_follows
  | prefixName => exact isSound_entry (by decide) readQualifier_follows
  | importModule =>
      exact isSound_frame (by decide) (by decide) openImport_opens closeImport_closes
  | includeSubmodule =>
      exact isSound_frame (by decide) (by decide) openInclude_opens closeInclude_closes
  | revisionDate => exact isSound_entry (by decide) readRevisionDate_follows
  | belongsTo =>
      exact isSound_frame (by decide) (by decide) openBelongsTo_opens closeBelongsTo_closes
  | organization => exact isSound_entry (by decide) readOrganization_follows
  | contact => exact isSound_entry (by decide) readContact_follows
  | description | reference =>
      exact isSound_entry (by decide) readDocumentation_follows
  | revision =>
      exact isSound_frame (by decide) (by decide) openRevision_opens closeRevision_closes
  | extensionDefinition | identity | feature | grouping | case | rpc
    | notification =>
      exact isSound_definition (by decide) (Construct.isBare_of_check rfl)
        (by decide) (by decide) rfl
  | argument =>
      exact isSound_frame (by decide) (by decide) openArgument_opens closeArgument_closes
  | yinElement => exact isSound_entry (by decide) readYinElement_follows
  | base => exact .entry readBase_reads
  | ifFeature => exact isSound_entry (by decide) readIfFeature_follows
  | typedef =>
      exact isSound_node (by decide) openTypedef_opens closeTypedef_closes
        (fun _ => openTypedef_checked) (by decide)
  | type => exact .block (by decide) fun _ => type_follows
  | units => exact isSound_entry (by decide) readUnits_follows
  | default => exact isSound_entry (by decide) readDefault_follows
  | status => exact isSound_entry (by decide) readStatus_follows
  | config => exact isSound_entry (by decide) readConfig_follows
  | mandatory => exact isSound_entry (by decide) readMandatory_follows
  | presence => exact isSound_entry (by decide) readPresence_follows
  | orderedBy => exact isSound_entry (by decide) readOrderedBy_follows
  | must => exact isSound_frame (by decide) (by decide) openMust_opens closeMust_closes
  | errorMessage => exact isSound_entry (by decide) readErrorMessage_follows
  | errorAppTag => exact isSound_entry (by decide) readErrorAppTag_follows
  | minElements => exact isSound_entry (by decide) readMinElements_follows
  | maxElements => exact isSound_entry (by decide) readMaxElements_follows
  | value => exact isSound_entry (by decide) readValue_follows
  | container | anyxml =>
      exact isSound_dataNode (by decide) (fun _ => rfl) (by decide)
        (fun _ => Construct.isBare_of_check rfl) (by decide) (fun _ => rfl)
        closePlainNode_closes
  | leaf =>
      exact isSound_dataNode (by decide) (fun _ => rfl) (by decide)
        (fun _ => Construct.isBare_of_check rfl) (by decide) (fun _ => rfl)
        closeLeaf_closes
  | leafList =>
      exact isSound_dataNode (by decide) (fun _ => rfl) (by decide)
        (fun _ => Construct.isBare_of_check rfl) (by decide) (fun _ => rfl)
        closeLeafList_closes
  | list =>
      exact isSound_dataNode (by decide) (fun _ => rfl) (by decide)
        (fun _ => Construct.isBare_of_check rfl) (by decide) (fun _ => rfl)
        closeList_closes
  | key => exact isSound_entry (by decide) readKey_follows
  | unique => exact isSound_entry (by decide) readUnique_follows
  | choice =>
      exact isSound_dataNode (by decide) (fun _ => rfl) (by decide)
        (fun _ => Construct.isBare_of_check rfl) (by decide) (fun _ => rfl)
        closeChoice_closes
  | uses =>
      exact isSound_node (by decide) openUses_opens closePlainNode_closes
        (absurd rfl) (by decide)
  | refine =>
      exact isSound_frame (by decide) (by decide) openRefine_opens closeRefine_closes
  | augment =>
      exact isSound_node (by decide) openAugment_opens closeAugment_closes
        (absurd rfl) (by decide)
  | when => exact isSound_frame (by decide) (by decide) openWhen_opens closeWhen_closes
  | input | output =>
      exact isSound_node (by decide)
        (openRpcPart_opens (Construct.isBare_of_check rfl) (by decide) rfl)
        closePlainNode_closes (absurd rfl) (by decide)
  | range =>
      exact isSound_frame (by decide) (by decide) openRange_opens closeRange_closes
  | length =>
      exact isSound_frame (by decide) (by decide) openLength_opens closeLength_closes
  | pattern =>
      exact isSound_frame (by decide) (by decide) openPattern_opens closePattern_closes
  | enum => exact isSound_frame (by decide) (by decide) openEnum_opens closeEnum_closes
  | bit => exact isSound_frame (by decide) (by decide) openBit_opens closeBit_closes
  | position => exact isSound_entry (by decide) readPosition_follows
  | path => exact .entry readPath_reads
  | requireInstance => exact isSound_entry (by decide) readRequireInstance_follows
  | fractionDigits => exact .entry readFractionDigits_reads
  | deviation | deviate => exact .refused unsupportedStatement
  | extensionInstance => exact .foreign (by decide)
  | unknown => exact .refused unknownStatement

namespace Progress

variable {progress : Progress} {next : Draft → Progress}

theorem andThen_error (whole : (progress.andThen next).error = none) :
    progress.error = none ∧ (next progress.draft).error = none ∧
      progress.andThen next = next progress.draft := by
  obtain ⟨draft, error⟩ := progress
  cases error with
  | none => exact ⟨rfl, whole, rfl⟩
  | some error => simp [andThen] at whole

theorem ofStep_error {step : Except StatementError Draft}
    (whole : (ofStep draft step).error = none) :
    step = .ok (ofStep draft step).draft := by
  cases step with
  | error error => simp [ofStep] at whole
  | ok next => rfl

theorem andThen_assoc (progress : Progress) (next more : Draft → Progress) :
    (progress.andThen next).andThen more =
      progress.andThen fun draft => (next draft).andThen more := by
  obtain ⟨draft, error⟩ := progress
  cases error <;> rfl

/-- An error ends the first part, or the second one behind it. -/
theorem andThen_stops {error : StatementError}
    (stops : (progress.andThen next).error = some error) :
    progress.error = some error ∨ progress.error = none ∧
      (next progress.draft).error = some error := by
  obtain ⟨draft, failure⟩ := progress
  cases failure with
  | none => exact .inr ⟨rfl, stops⟩
  | some failure => exact .inl stops

theorem ofStep_stops {step : Except StatementError Draft}
    {error : StatementError}
    (stops : (ofStep draft step).error = some error) : step = .error error := by
  cases step with
  | ok next => cases stops
  | error failure => exact congrArg _ (Option.some.inj stops)

end Progress

theorem passOver_eq (draft : Draft) (statement : Statement) :
    ∃ warnings, draft.passOver statement = { draft with warnings } := by
  unfold passOver
  dsimp only
  split
  · exact ⟨draft.warnings, rfl⟩
  · exact ⟨_, rfl⟩

theorem tree_passOver (draft : Draft) (statement : Statement) :
    (draft.passOver statement).tree = draft.tree := by
  obtain ⟨warnings, passed⟩ := passOver_eq draft statement
  rw [passed]

theorem asUnit_passOver (draft : Draft) (statement : Statement) :
    (draft.passOver statement).asUnit = draft.asUnit := by
  obtain ⟨warnings, passed⟩ := passOver_eq draft statement
  rw [passed]
  rfl

theorem IsUnlinked.passOver (unlinked : draft.IsUnlinked)
    (statement : Statement) : (draft.passOver statement).IsUnlinked := by
  obtain ⟨warnings, passed⟩ := passOver_eq draft statement
  rw [passed]
  exact { unlinked with }

/-- What reading a statement does is up to the role of its keyword. -/
theorem read_eq (draft : Draft) (statement : Statement) :
    read draft statement =
      match role statement.known with
      | .block openBlock closeBlock =>
          (Progress.ofStep draft (openBlock draft statement)).andThen
            fun draft =>
              (readAll draft statement.substatements).andThen fun draft =>
                .ofStep draft (closeBlock draft statement)
      | .entry write =>
          (Progress.ofStep draft (write draft statement)).andThen
            fun draft => readForeign statement draft statement.substatements
      | .foreign => ⟨draft.passOver statement, none⟩
      | .refused error => ⟨draft, some (error statement)⟩ := by
  obtain ⟨keyword, argument, span, block, substatements⟩ := statement
  unfold read
  rfl

theorem read_of_extension {statement : Statement}
    (known : statement.known = .extensionInstance) :
    read draft statement = ⟨draft.passOver statement, none⟩ := by
  rw [read_eq, known, role]

theorem passOver_follows (draft : Draft) (statement : Statement) :
    draft.Follows (draft.passOver statement) := by
  unfold passOver
  dsimp only
  split
  · exact .refl draft
  · refine ⟨fun sound => ?_, .refl draft.stack, .refl draft.tree,
      fun _ _ unlinked => { unlinked with },
      fun _ _ unlinked => .of_queue unlinked rfl⟩
    refine sound.of_same rfl rfl (fun _ => id) fun warning member => ?_
    obtain member | last := List.mem_append.mp member
    · exact .inl member
    · obtain rfl := List.mem_singleton.mp last
      exact .inr rfl

theorem readForeign_follows {holder : Statement} {draft : Draft}
    {statements : List Statement}
    (whole : (readForeign holder draft statements).error = none) :
    draft.Follows (readForeign holder draft statements).draft := by
  induction statements generalizing draft with
  | nil => exact .refl draft
  | cons statement rest ih =>
      unfold readForeign at whole ⊢
      split
      next known =>
        simp only [known] at whole
        exact (passOver_follows draft statement).trans (ih whole)
      next known => simp [known] at whole
      next => simp_all

mutual

/-- A statement that has been read without an error. -/
theorem read_reads {draft : Draft} : {statement : Statement} →
    (read draft statement).error = none →
      draft.Reads [statement] (read draft statement).draft
  | ⟨keyword, argument, span, block, substatements⟩, whole => by
      unfold read at whole ⊢
      dsimp only at whole ⊢
      have sound := role_isSound
        (⟨keyword, argument, span, block, substatements⟩ : Statement).known
      split at whole
      next openBlock closeBlock isBlock =>
        simp only [isBlock] at sound ⊢
        cases sound with
        | block shared follows =>
            obtain ⟨opened, whole, same⟩ := Progress.andThen_error whole
            obtain ⟨inside, closed, same'⟩ := Progress.andThen_error whole
            rw [same, same']
            refine .of_follows (follows rfl (Progress.ofStep_error opened) ?_
              (Progress.ofStep_error closed)) shared
            exact readAll_reads inside
      next write isEntry =>
        simp only [isEntry] at sound ⊢
        cases sound with
        | entry reads =>
            obtain ⟨written, whole, same⟩ := Progress.andThen_error whole
            rw [same]
            exact .cons (reads rfl (Progress.ofStep_error written))
              ⟨readForeign_follows whole, by simp⟩
      next isForeign =>
        simp only [isForeign] at sound ⊢
        cases sound with
        | foreign shared =>
            exact .of_follows ((passOver_follows _ _).asking _) shared
      next isRefused => simp at whole

/-- Statements that have been read without an error. -/
theorem readAll_reads {draft : Draft} : {statements : List Statement} →
    (readAll draft statements).error = none →
      draft.Reads statements (readAll draft statements).draft
  | [], _ => .nil draft
  | statement :: rest, whole => by
      unfold readAll at whole ⊢
      obtain ⟨first, others, same⟩ := Progress.andThen_error whole
      rw [same]
      exact .cons (read_reads first) (readAll_reads others)

end

/-- What stands at the top level asks for no place of its holder. -/
theorem follows_of_read_topLevel {draft : Draft} {statement : Statement}
    (whole : (read draft statement).error = none)
    (topLevel : statement.known ∈
      [Keyword.module, .submodule, .extensionInstance]) :
    draft.Follows (read draft statement).draft := by
  refine (read_reads whole).follows.mono fun id => ?_
  unfold allowance
  split
  · split
    next keyword asking =>
      obtain ⟨kind, -, asking⟩ := Option.bind_eq_some_iff.mp asking
      have other : statement.known ≠ keyword := by
        rintro rfl
        cases kind <;> simp only [ConstructKind.asking?, Option.some.injEq,
          reduceCtorEq] at asking
        all_goals simp [← asking] at topLevel
      simp [other]
    · exact Nat.le_refl 0
  · exact Nat.le_refl 0

theorem readTopLevel_follows {draft : Draft} {seen : Bool}
    {statements : List Statement}
    (whole : (readTopLevel draft seen statements).error = none) :
    draft.Follows (readTopLevel draft seen statements).draft := by
  induction statements generalizing draft seen with
  | nil => exact .refl draft
  | cons statement rest ih =>
      unfold readTopLevel at whole ⊢
      dsimp only at whole ⊢
      split at whole
      case h_4 => simp at whole
      case h_3 =>
        obtain ⟨first, others, same⟩ := Progress.andThen_error whole
        rw [same]
        exact (follows_of_read_topLevel first (by simp [*])).trans (ih others)
      all_goals
        split at whole
        · simp at whole
        · obtain ⟨first, others, same⟩ := Progress.andThen_error whole
          rw [if_neg ‹_›, same]
          exact (follows_of_read_topLevel first (by simp [*])).trans (ih others)

theorem IsSound.empty (source : SourceId) : (Draft.empty source).IsSound where
  accounts gap := by
    cases gap <;> simp_all [Draft.empty, SchemaTree.empty, SchemaTree.node?]
  nodes found := by
    simp [Draft.empty, SchemaTree.empty, SchemaTree.node?] at found
  frames := by simp [Draft.empty]
  unblocked := by simp [Draft.empty]
  nested := .empty source
  known := by simp [Draft.empty]
  warned := by simp [Draft.empty]

end Draft

/-- A source that has been read without an error leaves a sound draft. -/
theorem Analysis.ofStatements_isSound {source : SourceId}
    {statements : List Statement}
    (whole : (ofStatements source statements).failed = false) :
    ∃ draft : Draft, draft.IsSound ∧ draft.tree.source = source ∧
      (ofStatements source statements).tree = draft.tree ∧
      (ofStatements source statements).queue = draft.queue := by
  have follows := Draft.readTopLevel_follows (by simpa [ofStatements] using whole)
  exact ⟨_, follows.sound (.empty source), follows.source, rfl, rfl⟩

end YangSchema
