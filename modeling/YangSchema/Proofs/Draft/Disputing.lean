import YangSchema.Proofs.Draft.Naming
import YangSchema.Proofs.Draft.Refusing

/-!
# Statements that dispute a name

A statement that introduces a name is opened only if the name is free inside the
node on top of the stack.  Each keyword is gone through once:  those that
introduce a name complain about a name only if it is taken, and all others spare
names.  At the end of a unit, imports that share a prefix are complained about,
which is no matter of names.
-/

namespace YangSchema

namespace FrameStack

variable (stack : FrameStack) (statement : Statement)

@[simp]
theorem take_spares {α : Type} (expected : FrameKind)
    (content? : Frame → Option α) :
    SparesNames (stack.take statement expected content?) := by
  unfold take
  split
  · simp
  · split <;> simp

@[simp]
theorem popNode_spares (id : NodeId) :
    SparesNames (stack.popNode statement id) := by
  unfold popNode
  split
  · simp
  · split <;> simp

end FrameStack

namespace Draft

variable (draft : Draft) (statement : Statement)

@[simp]
theorem closeNode_spares : SparesNames (draft.closeNode statement) := by
  refine raises_bind_iff.mpr ⟨by simp, fun top _ => ?_⟩
  split <;> simp

@[simp]
theorem closeFrame_spares {α : Type} (expected : FrameKind)
    (content? : Frame → Option α) :
    SparesNames (draft.closeFrame statement expected content?) := by
  simp [closeFrame]

@[simp]
theorem closeMembers_spares : SparesNames (draft.closeMembers statement) := by
  refine raises_bind_iff.mpr ⟨by simp, fun top _ => ?_⟩
  split <;> simp

end Draft

namespace Draft

variable {draft opened : Draft} {statement : Statement}

/-- A statement introduces a name inside the node on top of the stack. -/
structure Names (draft : Draft) (statement : Statement) (holder : NodeId)
    (kind : ConstructKind) (category : NameCategory) (name : String) :
    Prop where
  top : draft.stack.head? = some (.node holder)
  isKind : draft.tree.kind? holder = some kind
  names : statement.Names kind category name

/-- A statement is refused since the name that it introduces is taken. -/
def Disputes (draft : Draft) (statement : Statement) (error : StatementError) :
    Prop :=
  ∃ holder kind category name,
    draft.Names statement holder kind category name ∧
      NameCategory.checkFresh draft.tree holder statement name category =
        .error error

/-- A statement that introduces a name introduces one that is free. -/
def GrantsName (draft : Draft) (statement : Statement) : Prop :=
  ∀ holder kind category, draft.stack.head? = some (.node holder) →
    draft.tree.kind? holder = some kind →
    statement.known.category? kind = some category →
      ∃ name, statement.argumentValue = some name ∧
        ¬ NameCategory.IsTaken draft.tree holder statement.position name
          category

/-- A step that complains about names only where one is taken. -/
abbrev DisputesNames {α : Type} (draft : Draft) (statement : Statement)
    (step : Except StatementError α) : Prop :=
  Raises (fun error => error.SparesNames ∨ draft.Disputes statement error) step

theorem disputes_of_spares {α : Type} {step : Except StatementError α}
    (spares : SparesNames step) : draft.DisputesNames statement step :=
  spares.imp fun _ => .inl

/-- What a role has to do with names. -/
inductive Role.Disputes (keyword : Keyword) : Role → Prop
  | block {openBlock closeBlock : Step}
      (opening : ∀ {draft : Draft} {statement}, statement.known = keyword →
        draft.DisputesNames statement (openBlock draft statement))
      (opens : ∀ {draft : Draft} {opened statement},
        statement.known = keyword → openBlock draft statement = .ok opened →
          draft.GrantsName statement)
      (closing : ∀ draft statement, SparesNames (closeBlock draft statement)) :
      Disputes keyword (.block openBlock closeBlock)
  | entry {write : Step} (silent : ∀ holder, keyword.category? holder = none)
      (writing : ∀ draft statement, SparesNames (write draft statement)) :
      Disputes keyword (.entry write)
  | foreign (silent : ∀ holder, keyword.category? holder = none) :
      Disputes keyword .foreign
  | refused {error : Statement → StatementError}
      (spares : ∀ statement, (error statement).SparesNames) :
      Disputes keyword (.refused error)

/-! ## Statements that introduce a name -/

section

variable {category : NameCategory} {holder : NodeId} {name : String}
  {accepts : ConstructKind → Bool}

theorem disputes_checkFresh
    (held : draft.nodeHolder statement accepts = .ok holder)
    (argument : statement.argumentValue = some name)
    (own : ∀ kind, draft.tree.kind? holder = some kind →
      statement.known.category? kind = some category) :
    draft.DisputesNames statement
      (NameCategory.checkFresh draft.tree holder statement name category) := by
  intro error refused
  obtain ⟨kind, rest, stack, isKind, -⟩ := nodeHolder_eq_ok held
  exact .inr ⟨holder, kind, category, name,
    ⟨by rw [stack, List.head?_cons], isKind, own kind isKind, argument⟩,
    refused⟩

theorem grantsName_of_checkFresh
    (held : draft.nodeHolder statement accepts = .ok holder)
    (argument : statement.argumentValue = some name)
    (fresh : ∀ kind category, draft.tree.kind? holder = some kind →
      statement.known.category? kind = some category →
        NameCategory.checkFresh draft.tree holder statement name category =
          .ok ()) :
    draft.GrantsName statement := by
  intro top kind category isTop isKind own
  obtain ⟨_, rest, stack, -, -⟩ := nodeHolder_eq_ok held
  obtain rfl : holder = top := by simpa [stack] using isTop
  exact ⟨name, argument,
    NameCategory.checkFresh_eq_ok_iff.mp (fresh kind category isKind own)⟩

end

section

variable {keyword : Keyword} {accepts : ConstructKind → Bool}

section

variable {category : NameCategory} {construct : Construct}
  (own : ∀ holder, keyword.category? holder = some category)
  (known : statement.known = keyword)
include own known

theorem openDefinition_disputes :
    draft.DisputesNames statement
      (openDefinition accepts category construct draft statement) := by
  subst known
  simp only [openDefinition, raises_bind_iff]
  refine ⟨disputes_of_spares (by simp), fun name read =>
    ⟨disputes_of_spares (by simp), fun _ _ =>
      ⟨disputes_of_spares (by simp), fun holder held => ⟨?_, by simp⟩⟩⟩⟩
  exact disputes_checkFresh held (Statement.identifierArgument_eq_ok read)
    fun kind _ => own kind

theorem openDefinition_grantsName
    (ok : openDefinition accepts category construct draft statement =
      .ok opened) : draft.GrantsName statement := by
  subst known
  simp only [openDefinition, bind_eq_ok_iff] at ok
  obtain ⟨name, read, _, _, holder, held, _, fresh, _⟩ := ok
  refine grantsName_of_checkFresh held
    (Statement.identifierArgument_eq_ok read) fun kind category' _ own' => ?_
  obtain rfl := Option.some.inj ((own kind).symm.trans own')
  exact fresh

end

theorem disputes_definition {category : NameCategory} {construct : Construct}
    {closeBlock : Step}
    (own : ∀ holder, keyword.category? holder = some category)
    (closing : ∀ draft statement, SparesNames (closeBlock draft statement)) :
    (Role.block (openDefinition accepts category construct)
      closeBlock).Disputes keyword :=
  .block (openDefinition_disputes own)
    (fun known ok => openDefinition_grantsName own known ok) closing

/-- The category of a data node depends on the node that it stands in. -/
theorem disputes_dataNode {construct : Config → Construct} {closeBlock : Step}
    (own : ∀ holder, keyword.category? holder =
      NameCategory.of? (construct ⟨true, false⟩).kind holder)
    (closing : ∀ draft statement, SparesNames (closeBlock draft statement)) :
    (Role.block (openDataNode accepts construct) closeBlock).Disputes
      keyword := by
  refine .block (fun {draft statement} known => ?_)
    (fun {draft opened statement} known ok => ?_) closing
  · subst known
    simp only [openDataNode, raises_bind_iff]
    refine ⟨disputes_of_spares (by simp), fun name read =>
      ⟨disputes_of_spares (by simp), fun _ _ =>
        ⟨disputes_of_spares (by simp), fun holder held => ?_⟩⟩⟩
    have argument := Statement.identifierArgument_eq_ok read
    split
    next category found =>
      refine raises_bind_iff.mpr
        ⟨disputes_checkFresh held argument fun kind isKind => ?_, fun _ _ =>
          raises_bind_iff.mpr ⟨disputes_of_spares (by simp), by simp⟩⟩
      rw [own, ← found, isKind, Option.bind_some]
    · exact raises_bind_iff.mpr ⟨disputes_of_spares (by simp), by simp⟩
  · subst known
    simp only [openDataNode, bind_eq_ok_iff] at ok
    obtain ⟨name, read, _, _, holder, held, ok⟩ := ok
    refine grantsName_of_checkFresh held
      (Statement.identifierArgument_eq_ok read)
      fun kind category isKind own' => ?_
    have found : (draft.tree.kind? holder).bind
        (NameCategory.of? (construct ⟨true, false⟩).kind) = some category := by
      rw [isKind, Option.bind_some, ← own, own']
    rw [found] at ok
    obtain ⟨_, fresh, _⟩ := bind_eq_ok_iff.mp ok
    exact fresh

end

theorem disputes_enum (closing : ∀ draft statement,
    SparesNames (closeEnum draft statement)) :
    (Role.block openEnum closeEnum).Disputes .enum := by
  refine .block (fun {draft statement} known => ?_)
    (fun {draft opened statement} known ok => ?_) closing
  · simp only [openEnum, raises_bind_iff]
    refine ⟨disputes_of_spares (by simp),
      fun name read => ⟨disputes_of_spares (by simp), fun _ _ =>
        ⟨disputes_of_spares (by simp), fun holder held => ⟨?_, by simp⟩⟩⟩⟩
    exact disputes_checkFresh held (Statement.enumNameArgument_eq_ok read)
      fun kind _ => by rw [known, Keyword.category?]
  · simp only [openEnum, bind_eq_ok_iff] at ok
    obtain ⟨name, read, _, _, holder, held, _, fresh, _⟩ := ok
    refine grantsName_of_checkFresh held
      (Statement.enumNameArgument_eq_ok read) fun kind category _ own => ?_
    rw [known] at own
    obtain rfl := Option.some.inj own
    exact fresh

theorem disputes_bit (closing : ∀ draft statement,
    SparesNames (closeBit draft statement)) :
    (Role.block openBit closeBit).Disputes .bit := by
  refine .block (fun {draft statement} known => ?_)
    (fun {draft opened statement} known ok => ?_) closing
  · simp only [openBit, raises_bind_iff]
    refine ⟨disputes_of_spares (by simp),
      fun name read => ⟨disputes_of_spares (by simp), fun _ _ =>
        ⟨disputes_of_spares (by simp), fun holder held => ⟨?_, by simp⟩⟩⟩⟩
    exact disputes_checkFresh held (Statement.identifierArgument_eq_ok read)
      fun kind _ => by rw [known, Keyword.category?]
  · simp only [openBit, bind_eq_ok_iff] at ok
    obtain ⟨name, read, _, _, holder, held, _, fresh, _⟩ := ok
    refine grantsName_of_checkFresh held
      (Statement.identifierArgument_eq_ok read) fun kind category _ own => ?_
    rw [known] at own
    obtain rfl := Option.some.inj own
    exact fresh

/-- The name of a built-in type is refused before it is looked up. -/
theorem disputes_typedef (closing : ∀ draft statement,
    SparesNames (closeTypedef draft statement)) :
    (Role.block openTypedef closeTypedef).Disputes .typedef := by
  refine .block (fun {draft statement} known => ?_)
    (fun {draft opened statement} known ok => ?_) closing
  · simp only [openTypedef, raises_bind_iff]
    refine ⟨disputes_of_spares (by simp), fun name _ => ?_⟩
    split
    · exact disputes_of_spares (by simp)
    · exact openDefinition_disputes (fun _ => rfl) known
  · simp only [openTypedef, bind_eq_ok_iff] at ok
    obtain ⟨name, _, ok⟩ := ok
    split at ok
    · simp at ok
    · exact openDefinition_grantsName (fun _ => rfl) known ok

/-! ## Statements that introduce no name -/

theorem disputes_silent {keyword : Keyword} {openBlock closeBlock : Step}
    (silent : ∀ holder, keyword.category? holder = none)
    (opening : ∀ draft statement, SparesNames (openBlock draft statement))
    (closing : ∀ draft statement, SparesNames (closeBlock draft statement)) :
    (Role.block openBlock closeBlock).Disputes keyword := by
  refine .block (fun _ => disputes_of_spares (opening _ _))
    (fun known _ _ kind _ _ _ own => ?_) closing
  rw [known, silent] at own
  cases own

theorem closeType_spares (draft : Draft) (statement : Statement) :
    SparesNames (closeType draft statement) := by
  simp only [closeType, raises_bind_iff]
  refine ⟨by simp, fun _ _ => ⟨by simp, fun closed _ => ⟨by simp, fun _ _ =>
    ⟨by simp, fun top _ => ?_⟩⟩⟩⟩
  split
  · split
    · simp
    · split
      · simp
      · split <;> simp
  · simp

theorem closeEnum_spares (draft : Draft) (statement : Statement) :
    SparesNames (closeEnum draft statement) := by
  simp only [closeEnum, raises_bind_iff]
  refine ⟨by simp, fun closed _ => ⟨by simp, fun parent _ => ?_⟩⟩
  split <;> simp

theorem closeBit_spares (draft : Draft) (statement : Statement) :
    SparesNames (closeBit draft statement) := by
  simp only [closeBit, raises_bind_iff]
  refine ⟨by simp, fun closed _ => ⟨by simp, fun parent _ => ?_⟩⟩
  split <;> simp

theorem closeTypedef_spares (draft : Draft) (statement : Statement) :
    SparesNames (closeTypedef draft statement) := by
  refine raises_bind_iff.mpr ⟨by simp, fun closed _ => ?_⟩
  dsimp only
  split
  · split <;> simp
  · simp

theorem closeLeaf_spares (draft : Draft) (statement : Statement) :
    SparesNames (closeLeaf draft statement) := by
  refine raises_bind_iff.mpr ⟨by simp, fun closed _ => ?_⟩
  dsimp only
  split <;> simp

theorem closeLeafList_spares (draft : Draft) (statement : Statement) :
    SparesNames (closeLeafList draft statement) := by
  refine raises_bind_iff.mpr ⟨by simp, fun closed _ => ?_⟩
  dsimp only
  split <;> simp

theorem closeList_spares (draft : Draft) (statement : Statement) :
    SparesNames (closeList draft statement) := by
  refine raises_bind_iff.mpr ⟨by simp, fun closed _ => ?_⟩
  dsimp only
  split <;> simp

theorem closeChoice_spares (draft : Draft) (statement : Statement) :
    SparesNames (closeChoice draft statement) := by
  refine raises_bind_iff.mpr ⟨by simp, fun closed _ => ?_⟩
  dsimp only
  split
  · split <;> simp
  · simp

theorem closeRefine_spares (draft : Draft) (statement : Statement) :
    SparesNames (closeRefine draft statement) := by
  refine raises_bind_iff.mpr ⟨by simp, fun closed _ => ?_⟩
  dsimp only
  split
  · refine raises_bind_iff.mpr ⟨by simp, fun _ _ =>
      raises_bind_iff.mpr ⟨by simp, fun top _ => ?_⟩⟩
    split <;> simp
  · refine raises_bind_iff.mpr ⟨by simp, fun top _ => ?_⟩
    split <;> simp

theorem closeMust_spares (draft : Draft) (statement : Statement) :
    SparesNames (closeMust draft statement) := by
  refine raises_bind_iff.mpr ⟨by simp, fun closed _ =>
    raises_bind_iff.mpr ⟨by simp, fun top _ => ?_⟩⟩
  split <;> simp

theorem closeWhen_spares (draft : Draft) (statement : Statement) :
    SparesNames (closeWhen draft statement) := by
  refine raises_bind_iff.mpr ⟨by simp, fun closed _ =>
    raises_bind_iff.mpr ⟨by simp, fun top _ => ?_⟩⟩
  split <;> simp

theorem closeArgument_spares (draft : Draft) (statement : Statement) :
    SparesNames (closeArgument draft statement) := by
  refine raises_bind_iff.mpr ⟨by simp, fun closed _ =>
    raises_bind_iff.mpr ⟨by simp, fun top _ => ?_⟩⟩
  split <;> simp

/-! ## All keywords -/

theorem role_disputes (keyword : Keyword) :
    (role keyword).Disputes keyword := by
  cases keyword with
  | module | submodule =>
      exact disputes_silent (fun _ => rfl) (fun _ _ => by simp [openUnit])
        fun _ _ => by simp [closeUnit]
  | yangVersion =>
      exact .entry (fun _ => rfl) fun _ _ => by simp [readYangVersion]
  | namespaceUri =>
      exact .entry (fun _ => rfl) fun _ _ => by simp [readNamespace]
  | prefixName => exact .entry (fun _ => rfl) fun _ _ => by simp [readQualifier]
  | importModule =>
      exact disputes_silent (fun _ => rfl) (fun _ _ => by simp [openImport])
        fun _ _ => by simp [closeImport]
  | includeSubmodule =>
      exact disputes_silent (fun _ => rfl) (fun _ _ => by simp [openInclude])
        fun _ _ => by simp [closeInclude]
  | revisionDate =>
      exact .entry (fun _ => rfl) fun _ _ => by simp [readRevisionDate]
  | belongsTo =>
      exact disputes_silent (fun _ => rfl) (fun _ _ => by simp [openBelongsTo])
        fun _ _ => by simp [closeBelongsTo]
  | organization =>
      exact .entry (fun _ => rfl) fun _ _ => by simp [readOrganization]
  | contact => exact .entry (fun _ => rfl) fun _ _ => by simp [readContact]
  | description | reference =>
      exact .entry (fun _ => rfl) fun _ _ => by simp [readDocumentation]
  | revision =>
      exact disputes_silent (fun _ => rfl) (fun _ _ => by simp [openRevision])
        fun _ _ => by simp [closeRevision]
  | extensionDefinition | identity | feature | grouping | case | rpc
    | notification =>
      exact disputes_definition (fun _ => rfl) fun _ _ => by
        simp [closePlainNode]
  | argument =>
      exact disputes_silent (fun _ => rfl) (fun _ _ => by simp [openArgument])
        closeArgument_spares
  | yinElement =>
      exact .entry (fun _ => rfl) fun _ _ => by simp [readYinElement]
  | base => exact .entry (fun _ => rfl) fun _ _ => by simp
  | ifFeature => exact .entry (fun _ => rfl) fun _ _ => by simp [readIfFeature]
  | typedef => exact disputes_typedef closeTypedef_spares
  | type =>
      exact disputes_silent (fun _ => rfl) (fun _ _ => by simp)
        closeType_spares
  | units => exact .entry (fun _ => rfl) fun _ _ => by simp [readUnits]
  | default => exact .entry (fun _ => rfl) fun _ _ => by simp [readDefault]
  | status => exact .entry (fun _ => rfl) fun _ _ => by simp [readStatus]
  | config => exact .entry (fun _ => rfl) fun _ _ => by simp [readConfig]
  | mandatory => exact .entry (fun _ => rfl) fun _ _ => by simp [readMandatory]
  | presence => exact .entry (fun _ => rfl) fun _ _ => by simp [readPresence]
  | orderedBy => exact .entry (fun _ => rfl) fun _ _ => by simp [readOrderedBy]
  | must =>
      exact disputes_silent (fun _ => rfl) (fun _ _ => by simp)
        closeMust_spares
  | errorMessage =>
      exact .entry (fun _ => rfl) fun _ _ => by simp [readErrorMessage]
  | errorAppTag =>
      exact .entry (fun _ => rfl) fun _ _ => by simp [readErrorAppTag]
  | minElements =>
      exact .entry (fun _ => rfl) fun _ _ => by simp [readMinElements]
  | maxElements =>
      exact .entry (fun _ => rfl) fun _ _ => by simp [readMaxElements]
  | value => exact .entry (fun _ => rfl) fun _ _ => by simp [readValue]
  | container | anyxml =>
      exact disputes_dataNode (fun _ => rfl) fun _ _ => by simp [closePlainNode]
  | leaf => exact disputes_dataNode (fun _ => rfl) closeLeaf_spares
  | leafList => exact disputes_dataNode (fun _ => rfl) closeLeafList_spares
  | list => exact disputes_dataNode (fun _ => rfl) closeList_spares
  | key => exact .entry (fun _ => rfl) fun _ _ => by simp [readKey]
  | unique => exact .entry (fun _ => rfl) fun _ _ => by simp [readUnique]
  | choice => exact disputes_dataNode (fun _ => rfl) closeChoice_spares
  | uses =>
      exact disputes_silent (fun _ => rfl) (fun _ _ => by simp [openUses])
        fun _ _ => by simp [closePlainNode]
  | refine =>
      exact disputes_silent (fun _ => rfl) (fun _ _ => by simp [openRefine])
        closeRefine_spares
  | augment =>
      exact disputes_silent (fun _ => rfl) (fun _ _ => by simp [openAugment])
        fun _ _ => by simp [closeAugment]
  | when =>
      exact disputes_silent (fun _ => rfl) (fun _ _ => by simp [openWhen])
        closeWhen_spares
  | input | output =>
      exact disputes_silent (fun _ => rfl) (fun _ _ => by simp [openRpcPart])
        fun _ _ => by simp [closePlainNode]
  | range =>
      exact disputes_silent (fun _ => rfl) (fun _ _ => by simp [openRange])
        fun _ _ => by simp [closeRange]
  | length =>
      exact disputes_silent (fun _ => rfl) (fun _ _ => by simp [openLength])
        fun _ _ => by simp [closeLength]
  | pattern =>
      exact disputes_silent (fun _ => rfl) (fun _ _ => by simp [openPattern])
        fun _ _ => by simp [closePattern]
  | enum => exact disputes_enum closeEnum_spares
  | bit => exact disputes_bit closeBit_spares
  | position => exact .entry (fun _ => rfl) fun _ _ => by simp [readPosition]
  | path => exact .entry (fun _ => rfl) fun _ _ => by simp [readPath]
  | requireInstance =>
      exact .entry (fun _ => rfl) fun _ _ => by simp [readRequireInstance]
  | fractionDigits =>
      exact .entry (fun _ => rfl) fun _ _ => by simp [readFractionDigits]
  | deviation | deviate =>
      exact .refused fun _ => StatementError.sparesNames_of (by decide)
  | extensionInstance => exact .foreign fun _ => rfl
  | unknown => exact .refused sparesNames_unknown

end Draft

end YangSchema
