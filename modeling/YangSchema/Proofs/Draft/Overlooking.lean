import YangSchema.Draft.Reading
import YangSchema.Proofs.Draft.Alike

/-!
# What no step looks at

No step looks at the warnings of its draft, and none at the instances of
extensions among the sub-statements of its statement.  So a step comes to the
same with other warnings and without such instances.
-/

namespace YangSchema

namespace Draft

open Statement (AreAlike)

/-- The draft with other warnings. -/
def withWarnings (draft : Draft) (warnings : Diagnostics) : Draft :=
  { draft with warnings }

/-- A step that makes nothing of warnings and of instances of extensions. -/
structure Overlooks (step : Step) : Prop where
  foreign : ∀ (draft : Draft) {statement : Statement}
    {substatements : List Statement},
    AreAlike statement.substatements substatements →
      step draft { statement with substatements } = step draft statement
  warnings : ∀ (draft : Draft) (warnings : Diagnostics)
    (statement : Statement), step (draft.withWarnings warnings) statement =
      (·.withWarnings warnings) <$> step draft statement

/-! ## Warnings are looked at by no step -/

section

variable (draft : Draft) (warnings : Diagnostics) (statement : Statement)

@[simp]
theorem tree_withWarnings :
    (draft.withWarnings warnings).tree = draft.tree :=
  rfl

@[simp]
theorem stack_withWarnings :
    (draft.withWarnings warnings).stack = draft.stack :=
  rfl

@[simp]
theorem queue_withWarnings :
    (draft.withWarnings warnings).queue = draft.queue :=
  rfl

@[simp]
theorem deferredKeys_withWarnings :
    (draft.withWarnings warnings).deferredKeys = draft.deferredKeys :=
  rfl

@[simp]
theorem nextId_withWarnings :
    (draft.withWarnings warnings).nextId = draft.nextId :=
  rfl

@[simp]
theorem push_withWarnings (frame : Frame) :
    (draft.withWarnings warnings).push frame =
      (draft.push frame).withWarnings warnings :=
  rfl

@[simp]
theorem openNode_withWarnings (parent : NodeId) (construct : Construct)
    (name : String) :
    (draft.withWarnings warnings).openNode statement parent construct name =
      (draft.openNode statement parent construct name).withWarnings warnings :=
  rfl

@[simp]
theorem modifyConstruct_withWarnings (id : NodeId)
    (change : Construct → Construct) :
    (draft.withWarnings warnings).modifyConstruct id change =
      (draft.modifyConstruct id change).withWarnings warnings :=
  rfl

@[simp]
theorem modifyMetadata_withWarnings (id : NodeId)
    (change : Metadata → Metadata) :
    (draft.withWarnings warnings).modifyMetadata id change =
      (draft.modifyMetadata id change).withWarnings warnings :=
  rfl

@[simp]
theorem modifyHeader_withWarnings (id : NodeId)
    (change : ModuleHeader → ModuleHeader) :
    (draft.withWarnings warnings).modifyHeader id change =
      (draft.modifyHeader id change).withWarnings warnings :=
  rfl

@[simp]
theorem enqueue_withWarnings (kind : ReferenceKind) (text : String)
    (consumer : NodeId) :
    (draft.withWarnings warnings).enqueue statement kind text consumer =
      (draft.enqueue statement kind text consumer).withWarnings warnings :=
  rfl

@[simp]
theorem invalidHolder_withWarnings :
    (draft.withWarnings warnings).invalidHolder statement =
      draft.invalidHolder statement :=
  rfl

@[simp]
theorem nodeHolder_withWarnings (accepts : ConstructKind → Bool) :
    (draft.withWarnings warnings).nodeHolder statement accepts =
      draft.nodeHolder statement accepts :=
  rfl

@[simp]
theorem rootHolder_withWarnings :
    (draft.withWarnings warnings).rootHolder statement =
      draft.rootHolder statement :=
  rfl

@[simp]
theorem typeHolder_withWarnings (accepts : BuiltinType → Bool)
    (derived : Bool) :
    (draft.withWarnings warnings).typeHolder statement accepts derived =
      draft.typeHolder statement accepts derived :=
  rfl

@[simp]
theorem configWithin_withWarnings (parent : NodeId) :
    (draft.withWarnings warnings).configWithin statement parent =
      draft.configWithin statement parent :=
  rfl

@[simp]
theorem isTemplate_withWarnings (id : NodeId) :
    (draft.withWarnings warnings).isTemplate id = draft.isTemplate id :=
  rfl

@[simp]
theorem isInChoice_withWarnings :
    (draft.withWarnings warnings).isInChoice = draft.isInChoice :=
  rfl

@[simp]
theorem checkQualifiers_withWarnings :
    (draft.withWarnings warnings).checkQualifiers = draft.checkQualifiers :=
  rfl

@[simp]
theorem fill_withWarnings (frame : Frame → Option Frame)
    (construct : Construct → Option Construct) :
    (draft.withWarnings warnings).fill statement frame construct =
      (·.withWarnings warnings) <$> draft.fill statement frame construct := by
  simp only [fill, map_bind, stack_withWarnings, tree_withWarnings]
  refine bind_congr fun top => ?_
  split
  · split <;> rfl
  · split <;> rfl

@[simp]
theorem annotate_withWarnings (frame : Frame → Option Frame)
    (accepts : ConstructKind → Bool) (change : Metadata → Metadata) :
    (draft.withWarnings warnings).annotate statement frame accepts change =
      (·.withWarnings warnings) <$>
        draft.annotate statement frame accepts change := by
  simp only [annotate, map_bind, stack_withWarnings, tree_withWarnings]
  refine bind_congr fun top => ?_
  split
  · exact ite_eq_map rfl rfl
  · split <;> rfl

@[simp]
theorem fillHeader_withWarnings (change : ModuleHeader → ModuleHeader) :
    (draft.withWarnings warnings).fillHeader statement change =
      (·.withWarnings warnings) <$> draft.fillHeader statement change := by
  simp [fillHeader]

@[simp]
theorem fillType_withWarnings (change : TypeUse → TypeUse) :
    (draft.withWarnings warnings).fillType statement change =
      (·.withWarnings warnings) <$> draft.fillType statement change := by
  simp [fillType]

@[simp]
theorem closeFrame_withWarnings {α : Type} (expected : FrameKind)
    (content? : Frame → Option α) :
    (draft.withWarnings warnings).closeFrame statement expected content? =
      (fun (content, draft) => (content, draft.withWarnings warnings)) <$>
        draft.closeFrame statement expected content? := by
  simp only [closeFrame, map_bind, stack_withWarnings]
  rfl

@[simp]
theorem closeNode_withWarnings :
    (draft.withWarnings warnings).closeNode statement =
      (fun (id, draft) => (id, draft.withWarnings warnings)) <$>
        draft.closeNode statement := by
  simp only [closeNode, map_bind, stack_withWarnings]
  refine bind_congr fun top => ?_
  split
  next id =>
    have name : (draft.withWarnings warnings).holderName (.node id) =
      draft.holderName (.node id) := rfl
    simp only [name]
    refine ite_eq_map rfl ?_
    rw [map_bind]
    rfl
  · rfl

@[simp]
theorem closeMembers_withWarnings :
    (draft.withWarnings warnings).closeMembers statement =
      (·.withWarnings warnings) <$> draft.closeMembers statement := by
  simp only [closeMembers, map_bind, stack_withWarnings, tree_withWarnings]
  refine bind_congr fun top => ?_
  split
  · refine ite_eq_map ?_ rfl
    rw [map_bind]
    rfl
  · rfl

@[simp]
theorem linkInside_withWarnings :
    (draft.withWarnings warnings).linkInside =
      draft.linkInside.withWarnings warnings := by
  simp only [linkInside, tree_withWarnings, queue_withWarnings,
    deferredKeys_withWarnings]
  split <;> rfl

end

/-! ## What the steps overlook -/

/-- A step that opens a frame for a part of its holder. -/
theorem overlooks_part {α β : Type}
    {argument : Statement → Except StatementError α}
    {holder : Draft → Statement → Except StatementError β}
    {frame : α → Statement → Frame}
    (reads : ∀ statement substatements,
      argument { statement with substatements } = argument statement)
    (holds : ∀ draft statement substatements,
      holder draft { statement with substatements } = holder draft statement)
    (held : ∀ draft warnings statement,
      holder (withWarnings draft warnings) statement = holder draft statement)
    (starts : ∀ content statement substatements,
      frame content { statement with substatements } =
        frame content statement) :
    Overlooks fun draft statement => do
      let content ← argument statement
      Cardinality.check statement
      let _ ← holder draft statement
      return draft.push (frame content statement) where
  foreign _ _ _ alike := by
    simp only [reads, holds, starts, Cardinality.check_alike alike]
  warnings _ _ _ := by simp [held]

/-- A step that looks at no sub-statements at all. -/
theorem overlooks_entry {step : Step}
    (foreign : ∀ draft statement substatements,
      step draft { statement with substatements } = step draft statement)
    (warnings : ∀ draft warnings statement,
      step (withWarnings draft warnings) statement =
        (·.withWarnings warnings) <$> step draft statement) :
    Overlooks step :=
  ⟨fun draft {_ _} _ => foreign draft _ _, warnings⟩

theorem closePlainNode_overlooks : Overlooks closePlainNode where
  foreign _ _ _ _ := rfl
  warnings _ _ _ := by simp [closePlainNode]

theorem openUnit_overlooks (construct : Construct) :
    Overlooks (openUnit construct) where
  foreign _ _ _ alike := by
    simp only [openUnit, Cardinality.check_alike alike]
    rfl
  warnings draft warnings statement := by
    simp only [openUnit, map_bind]
    refine bind_congr fun name => bind_congr fun _ => ?_
    simp only [stack_withWarnings, tree_withWarnings]
    exact ite_eq_map rfl rfl

theorem closeUnit_overlooks : Overlooks closeUnit where
  foreign _ _ _ _ := rfl
  warnings draft warnings statement := by
    simp only [closeUnit, map_bind, stack_withWarnings,
      checkQualifiers_withWarnings]
    refine bind_congr fun _ => bind_congr fun stack => ?_
    exact congrArg pure
      (linkInside_withWarnings { draft with stack } warnings)

theorem openDefinition_overlooks (accepts : ConstructKind → Bool)
    (category : NameCategory) (construct : Construct) :
    Overlooks (openDefinition accepts category construct) where
  foreign _ _ _ alike := by
    simp only [openDefinition, Cardinality.check_alike alike]
    rfl
  warnings _ _ _ := by simp [openDefinition]

theorem openDataNode_overlooks (accepts : ConstructKind → Bool)
    (construct : Config → Construct) :
    Overlooks (openDataNode accepts construct) where
  foreign draft _ _ alike := by
    simp only [openDataNode, Cardinality.check_alike alike,
      draft.configWithin_alike alike]
    rfl
  warnings draft warnings statement := by
    simp only [openDataNode, map_bind]
    refine bind_congr fun name => bind_congr fun _ =>
      bind_congr fun parent => ?_
    simp only [tree_withWarnings]
    split <;> simp

theorem openTypedef_overlooks : Overlooks openTypedef where
  foreign draft statement _ alike := by
    have opens := (openDefinition_overlooks holdsScopedDefinitions .typedef
      (.typedef ⟨none, none, none⟩)).foreign draft alike
    simp only [openTypedef, opens]
    rfl
  warnings draft warnings statement := by
    have opens := (openDefinition_overlooks holdsScopedDefinitions .typedef
      (.typedef ⟨none, none, none⟩)).warnings draft warnings statement
    simp only [openTypedef, map_bind, opens]
    exact bind_congr fun name => ite_eq_map rfl rfl

theorem closeTypedef_overlooks : Overlooks closeTypedef where
  foreign _ _ _ _ := rfl
  warnings draft warnings statement := by
    simp only [closeTypedef, map_bind, closeNode_withWarnings, bind_map_left]
    refine bind_congr fun closed => ?_
    simp only [tree_withWarnings]
    split
    · exact ite_eq_map rfl rfl
    · rfl

theorem openType_overlooks : Overlooks openType where
  foreign _ _ _ alike := by
    simp only [openType, Cardinality.check_alike alike]
    rfl
  warnings draft warnings statement := by
    simp only [openType, map_bind]
    refine bind_congr fun name => bind_congr fun _ =>
      bind_congr fun holder => ?_
    split <;> rfl

theorem closeType_overlooks : Overlooks closeType where
  foreign draft _ _ alike := by
    simp only [closeType, checkTypeBody_alike alike]
    rfl
  warnings draft warnings statement := by
    simp only [closeType, map_bind, closeMembers_withWarnings,
      closeFrame_withWarnings, bind_map_left]
    refine bind_congr fun within => bind_congr fun closed =>
      bind_congr fun _ => bind_congr fun top => ?_
    split
    next holder =>
      simp only [tree_withWarnings]
      generalize (closed.2.tree.construct? holder).bind (placeType closed.1) =
        placed
      cases placed with
      | none => rfl
      | some placed =>
          simp only [modifyConstruct_withWarnings, isTemplate_withWarnings,
            tree_withWarnings]
          refine ite_eq_map rfl ?_
          split <;> rfl
    · rfl

theorem openMust_overlooks : Overlooks openMust where
  foreign _ _ _ alike := by
    simp only [openMust, Cardinality.check_alike alike]
    rfl
  warnings draft warnings statement := by
    simp only [openMust, map_bind]
    refine bind_congr fun condition => bind_congr fun _ =>
      bind_congr fun top => ?_
    split
    · rfl
    · simp

theorem closeMust_overlooks : Overlooks closeMust where
  foreign _ _ _ _ := rfl
  warnings draft warnings statement := by
    simp only [closeMust, map_bind, closeFrame_withWarnings, bind_map_left]
    refine bind_congr fun closed => bind_congr fun top => ?_
    split <;> rfl

theorem closeWhen_overlooks : Overlooks closeWhen where
  foreign _ _ _ _ := rfl
  warnings draft warnings statement := by
    simp only [closeWhen, map_bind, closeFrame_withWarnings, bind_map_left]
    refine bind_congr fun closed => bind_congr fun top => ?_
    split <;> rfl

theorem closeArgument_overlooks : Overlooks closeArgument where
  foreign _ _ _ _ := rfl
  warnings draft warnings statement := by
    simp only [closeArgument, map_bind, closeFrame_withWarnings, bind_map_left]
    refine bind_congr fun closed => bind_congr fun top => ?_
    split <;> rfl

theorem closeRefine_overlooks : Overlooks closeRefine where
  foreign _ _ _ _ := rfl
  warnings draft warnings statement := by
    simp only [closeRefine, map_bind, closeFrame_withWarnings, bind_map_left]
    refine bind_congr fun closed => ?_
    split
    · simp only [map_bind]
      refine bind_congr fun _ => bind_congr fun top => ?_
      split <;> rfl
    · rw [map_bind]
      refine bind_congr fun top => ?_
      split <;> rfl

theorem closeLeaf_overlooks : Overlooks closeLeaf where
  foreign _ _ _ _ := rfl
  warnings draft warnings statement := by
    simp only [closeLeaf, map_bind, closeNode_withWarnings, bind_map_left]
    refine bind_congr fun closed => ?_
    simp only [tree_withWarnings]
    split
    · exact ite_eq_map rfl rfl
    · rfl

theorem closeLeafList_overlooks : Overlooks closeLeafList where
  foreign _ _ _ _ := rfl
  warnings draft warnings statement := by
    simp only [closeLeafList, map_bind, closeNode_withWarnings, bind_map_left]
    refine bind_congr fun closed => ?_
    simp only [tree_withWarnings]
    split
    · simp
    · rfl

theorem closeList_overlooks : Overlooks closeList where
  foreign _ _ _ _ := rfl
  warnings draft warnings statement := by
    simp only [closeList, map_bind, closeNode_withWarnings, bind_map_left]
    refine bind_congr fun closed => ?_
    simp only [tree_withWarnings]
    split
    next body _ =>
      refine ite_eq_map rfl ?_
      rw [map_bind]
      refine bind_congr fun _ => ite_eq_map (ite_eq_map rfl rfl) ?_
      refine ite_eq_map rfl ?_
      rw [map_bind]
      rfl
    · rfl

theorem closeChoice_overlooks : Overlooks closeChoice where
  foreign _ _ _ _ := rfl
  warnings draft warnings statement := by
    simp only [closeChoice, map_bind, closeNode_withWarnings, bind_map_left]
    refine bind_congr fun closed => ?_
    simp only [tree_withWarnings]
    split
    · split
      · rfl
      · exact ite_eq_map rfl (ite_eq_map rfl rfl)
    · rfl

theorem closeAugment_overlooks : Overlooks closeAugment where
  foreign _ _ _ _ := rfl
  warnings draft warnings statement := by
    simp only [closeAugment, map_bind, closeNode_withWarnings, bind_map_left]
    refine bind_congr fun closed => ?_
    simp only [tree_withWarnings]
    exact ite_eq_map rfl rfl

theorem closeEnum_overlooks : Overlooks closeEnum where
  foreign _ _ _ _ := rfl
  warnings draft warnings statement := by
    simp only [closeEnum, map_bind, closeFrame_withWarnings, bind_map_left]
    refine bind_congr fun closed => bind_congr fun parent => ?_
    simp only [tree_withWarnings]
    split <;> simp

theorem closeBit_overlooks : Overlooks closeBit where
  foreign _ _ _ _ := rfl
  warnings draft warnings statement := by
    simp only [closeBit, map_bind, closeFrame_withWarnings, bind_map_left]
    refine bind_congr fun closed => bind_congr fun parent => ?_
    simp only [tree_withWarnings]
    split <;> simp

theorem readBase_overlooks : Overlooks readBase where
  foreign _ _ _ _ := rfl
  warnings draft warnings statement := by
    simp only [readBase, map_bind]
    refine bind_congr fun base => bind_congr fun top => ?_
    split <;> simp

theorem readDefault_overlooks : Overlooks readDefault where
  foreign _ _ _ _ := rfl
  warnings draft warnings statement := by
    simp only [readDefault, map_bind]
    refine bind_congr fun base => ?_
    simp only [isInChoice_withWarnings]
    refine ite_eq_map ?_ ?_
    · simp
    · simp

theorem closeImport_overlooks : Overlooks closeImport :=
  overlooks_entry (fun _ _ _ => rfl) fun _ _ _ => by simp [closeImport]

theorem closeInclude_overlooks : Overlooks closeInclude :=
  overlooks_entry (fun _ _ _ => rfl) fun _ _ _ => by simp [closeInclude]

theorem closeBelongsTo_overlooks : Overlooks closeBelongsTo :=
  overlooks_entry (fun _ _ _ => rfl) fun _ _ _ => by simp [closeBelongsTo]

theorem closeRevision_overlooks : Overlooks closeRevision :=
  overlooks_entry (fun _ _ _ => rfl) fun _ _ _ => by simp [closeRevision]

theorem closeRange_overlooks : Overlooks closeRange :=
  overlooks_entry (fun _ _ _ => rfl) fun _ _ _ => by simp [closeRange]

theorem closeLength_overlooks : Overlooks closeLength :=
  overlooks_entry (fun _ _ _ => rfl) fun _ _ _ => by simp [closeLength]

theorem closePattern_overlooks : Overlooks closePattern :=
  overlooks_entry (fun _ _ _ => rfl) fun _ _ _ => by simp [closePattern]

theorem openRpcPart_overlooks (construct : Construct) :
    Overlooks (openRpcPart construct) :=
  overlooks_entry (fun _ _ _ => rfl) fun _ _ _ => by simp [openRpcPart]

theorem openImport_overlooks : Overlooks openImport :=
  overlooks_part (fun _ _ => rfl) (fun _ _ _ => rfl) (fun _ _ _ => rfl)
    fun _ _ _ => rfl

theorem openInclude_overlooks : Overlooks openInclude :=
  overlooks_part (fun _ _ => rfl) (fun _ _ _ => rfl) (fun _ _ _ => rfl)
    fun _ _ _ => rfl

theorem openBelongsTo_overlooks : Overlooks openBelongsTo :=
  overlooks_part (fun _ _ => rfl) (fun _ _ _ => rfl) (fun _ _ _ => rfl)
    fun _ _ _ => rfl

theorem openRevision_overlooks : Overlooks openRevision :=
  overlooks_part (fun _ _ => rfl) (fun _ _ _ => rfl) (fun _ _ _ => rfl)
    fun _ _ _ => rfl

theorem openArgument_overlooks : Overlooks openArgument :=
  overlooks_part (fun _ _ => rfl) (fun _ _ _ => rfl) (fun _ _ _ => rfl)
    fun _ _ _ => rfl

theorem openWhen_overlooks : Overlooks openWhen :=
  overlooks_part (fun _ _ => rfl) (fun _ _ _ => rfl) (fun _ _ _ => rfl)
    fun _ _ _ => rfl

theorem openRange_overlooks : Overlooks openRange :=
  overlooks_part (fun _ _ => rfl) (fun _ _ _ => rfl) (fun _ _ _ => rfl)
    fun _ _ _ => rfl

theorem openLength_overlooks : Overlooks openLength :=
  overlooks_part (fun _ _ => rfl) (fun _ _ _ => rfl) (fun _ _ _ => rfl)
    fun _ _ _ => rfl

theorem openPattern_overlooks : Overlooks openPattern :=
  overlooks_part (fun _ _ => rfl) (fun _ _ _ => rfl) (fun _ _ _ => rfl)
    fun _ _ _ => rfl

theorem openUses_overlooks : Overlooks openUses where
  foreign _ _ _ alike := by
    simp only [openUses, Cardinality.check_alike alike]
    rfl
  warnings _ _ _ := by simp [openUses]

theorem openRefine_overlooks : Overlooks openRefine where
  foreign _ _ _ alike := by
    simp only [openRefine, Cardinality.check_alike alike]
    rfl
  warnings _ _ _ := by simp [openRefine]

theorem openAugment_overlooks : Overlooks openAugment where
  foreign _ _ _ alike := by
    simp only [openAugment, Cardinality.check_alike alike]
    rfl
  warnings _ _ _ := by simp [openAugment]

theorem openEnum_overlooks : Overlooks openEnum where
  foreign _ _ _ alike := by
    simp only [openEnum, Cardinality.check_alike alike]
    rfl
  warnings _ _ _ := by simp [openEnum]

theorem openBit_overlooks : Overlooks openBit where
  foreign _ _ _ alike := by
    simp only [openBit, Cardinality.check_alike alike]
    rfl
  warnings _ _ _ := by simp [openBit]

theorem readValue_overlooks : Overlooks readValue := by
  refine overlooks_entry (fun _ _ _ => rfl) fun draft warnings statement => ?_
  simp only [readValue, map_bind]
  exact bind_congr fun number => ite_eq_map rfl (by simp)

theorem readPosition_overlooks : Overlooks readPosition := by
  refine overlooks_entry (fun _ _ _ => rfl) fun draft warnings statement => ?_
  simp only [readPosition, map_bind]
  exact bind_congr fun number => ite_eq_map rfl (by simp)

theorem readKey_overlooks : Overlooks readKey := by
  refine overlooks_entry (fun draft statement substatements => ?_)
    fun _ _ _ => by simp [readKey]
  simp only [readKey, Statement.keyListArgument, Statement.keyNames_with]
  rfl

/-- What a statement does depends neither on warnings nor on the instances of
extensions among its sub-statements. -/
def Role.Overlooks : Role → Prop
  | .block openBlock closeBlock =>
      Draft.Overlooks openBlock ∧ Draft.Overlooks closeBlock
  | .entry write => Draft.Overlooks write
  | .foreign => True
  | .refused error =>
      ∀ statement substatements,
        error { statement with substatements } = error statement

theorem role_overlooks (keyword : Keyword) : (role keyword).Overlooks := by
  have closesPlain := closePlainNode_overlooks
  cases keyword with
  | module | submodule => exact ⟨openUnit_overlooks _, closeUnit_overlooks⟩
  | yangVersion | namespaceUri | organization | contact =>
      refine overlooks_entry (fun _ _ _ => rfl) fun _ _ _ => ?_
      simp [readYangVersion, readNamespace, readOrganization, readContact]
  | prefixName | revisionDate | yinElement =>
      refine overlooks_entry (fun _ _ _ => rfl) fun _ _ _ => ?_
      simp [readQualifier, readRevisionDate, readYinElement]
  | importModule => exact ⟨openImport_overlooks, closeImport_overlooks⟩
  | includeSubmodule => exact ⟨openInclude_overlooks, closeInclude_overlooks⟩
  | belongsTo => exact ⟨openBelongsTo_overlooks, closeBelongsTo_overlooks⟩
  | revision => exact ⟨openRevision_overlooks, closeRevision_overlooks⟩
  | argument => exact ⟨openArgument_overlooks, closeArgument_overlooks⟩
  | extensionDefinition | identity | feature | grouping | case | rpc
  | notification =>
      exact ⟨openDefinition_overlooks _ _ _, closesPlain⟩
  | input | output => exact ⟨openRpcPart_overlooks _, closesPlain⟩
  | container | anyxml => exact ⟨openDataNode_overlooks _ _, closesPlain⟩
  | leaf => exact ⟨openDataNode_overlooks _ _, closeLeaf_overlooks⟩
  | leafList => exact ⟨openDataNode_overlooks _ _, closeLeafList_overlooks⟩
  | list => exact ⟨openDataNode_overlooks _ _, closeList_overlooks⟩
  | choice => exact ⟨openDataNode_overlooks _ _, closeChoice_overlooks⟩
  | uses => exact ⟨openUses_overlooks, closesPlain⟩
  | refine => exact ⟨openRefine_overlooks, closeRefine_overlooks⟩
  | augment => exact ⟨openAugment_overlooks, closeAugment_overlooks⟩
  | must => exact ⟨openMust_overlooks, closeMust_overlooks⟩
  | when => exact ⟨openWhen_overlooks, closeWhen_overlooks⟩
  | typedef => exact ⟨openTypedef_overlooks, closeTypedef_overlooks⟩
  | type => exact ⟨openType_overlooks, closeType_overlooks⟩
  | range => exact ⟨openRange_overlooks, closeRange_overlooks⟩
  | length => exact ⟨openLength_overlooks, closeLength_overlooks⟩
  | pattern => exact ⟨openPattern_overlooks, closePattern_overlooks⟩
  | enum => exact ⟨openEnum_overlooks, closeEnum_overlooks⟩
  | bit => exact ⟨openBit_overlooks, closeBit_overlooks⟩
  | path | requireInstance | fractionDigits =>
      refine overlooks_entry (fun _ _ _ => rfl) fun _ _ _ => ?_
      simp [readPath, readRequireInstance, readFractionDigits]
  | description | reference | status | errorMessage | errorAppTag =>
      refine overlooks_entry (fun _ _ _ => rfl) fun _ _ _ => ?_
      simp [readDocumentation, readStatus, readErrorMessage, readErrorAppTag]
  | units | config | mandatory | presence =>
      refine overlooks_entry (fun _ _ _ => rfl) fun _ _ _ => ?_
      simp [readUnits, readConfig, readMandatory, readPresence]
  | minElements | maxElements | orderedBy | unique =>
      refine overlooks_entry (fun _ _ _ => rfl) fun _ _ _ => ?_
      simp [readMinElements, readMaxElements, readOrderedBy, readUnique]
  | ifFeature =>
      refine overlooks_entry (fun _ _ _ => rfl) fun _ _ _ => ?_
      simp [readIfFeature]
  | key => exact readKey_overlooks
  | base => exact readBase_overlooks
  | default => exact readDefault_overlooks
  | value => exact readValue_overlooks
  | position => exact readPosition_overlooks
  | deviation | deviate | unknown => exact fun _ _ => rfl
  | extensionInstance => trivial

end Draft

end YangSchema
