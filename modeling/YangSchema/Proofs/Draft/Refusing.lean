import YangSchema.Draft.Reading
import YangSchema.Proofs.Except

/-!
# What a step raises

Everything that a step raises is an error, since only an extension that is passed
over causes a warning, and that ends nothing.  The errors about the stack of open
frames itself are none that a step should raise:  where something is open, a step
that opens a block or writes into its holder blames the source for what it
raises.  Besides, only steps that introduce a name complain about names.  Most
steps are gone through once for both.
-/

namespace YangSchema

namespace StatementError

/-- An error of a kind that is no warning. -/
def IsSevere (error : StatementError) : Prop :=
  error.kind.severity = .error

/-- An error that is no warning and that is about what has been written, not
about the stack of open frames. -/
def BlamesSource (error : StatementError) : Prop :=
  error.IsSevere ∧ error.kind.isEngineError = false

/-- An error that is not about a name, or that is about the prefix of an
import. -/
def SparesNames (error : StatementError) : Prop :=
  error.kind = .duplicateIdentifier → error.keyword = "import"

/-- An error about something else than a name, for which the source is to blame
under some condition. -/
structure IsComplaint (condition : Prop) (error : StatementError) : Prop where
  spares : error.SparesNames
  blames : condition → error.BlamesSource

/-- All that is complained about under some condition is allowed. -/
def Admits (condition : Prop) (allowed : StatementError → Prop) : Prop :=
  ∀ error : StatementError, error.IsComplaint condition → allowed error

variable {condition condition' : Prop}

@[simp]
theorem admits_sparesNames : Admits condition SparesNames :=
  fun _ complaint => complaint.spares

@[simp]
theorem admits_blamesSource (holds : condition) :
    Admits condition BlamesSource :=
  fun _ complaint => complaint.blames holds

@[simp]
theorem admits_isComplaint (stronger : condition' → condition) :
    Admits condition (IsComplaint condition') :=
  fun _ complaint => ⟨complaint.spares, fun holds =>
    complaint.blames (stronger holds)⟩

theorem IsSevere.isError_toDiagnostic {error : StatementError}
    (severe : error.IsSevere) (source : SourceId) :
    (error.toDiagnostic source).isError = true :=
  beq_iff_eq.mpr severe

end StatementError

open StatementError (Admits IsComplaint)

/-- A step that fails only with errors for which the source is to blame. -/
abbrev Refuses {α : Type} (step : Except StatementError α) : Prop :=
  Raises StatementError.BlamesSource step

/-- A step that does not complain about a name. -/
abbrev SparesNames {α : Type} (step : Except StatementError α) : Prop :=
  Raises StatementError.SparesNames step

namespace StatementError

variable {kind : DiagnosticKind} {phase : Phase} {detail : String}
  {condition : Prop}

@[simp]
theorem blamesSource_of {statement : Statement} :
    (of kind statement phase detail).BlamesSource ↔
      kind.severity = .error ∧ kind.isEngineError = false :=
  .rfl

@[simp]
theorem sparesNames_of {statement : Statement}
    (other : kind ≠ .duplicateIdentifier) :
    (of kind statement phase detail).SparesNames :=
  fun is => absurd is other

section

variable {keyword : String} {argument : Option String} {position : Position}
  {span : Span}

@[simp]
theorem isSevere_atPlace :
    (atPlace kind keyword argument position span detail).IsSevere ↔
      kind.severity = .error :=
  .rfl

@[simp]
theorem blamesSource_atPlace :
    (atPlace kind keyword argument position span detail).BlamesSource ↔
      kind.severity = .error ∧ kind.isEngineError = false :=
  .rfl

@[simp]
theorem sparesNames_atPlace :
    (atPlace kind keyword argument position span detail).SparesNames ↔
      (kind = .duplicateIdentifier → keyword = "import") :=
  .rfl

end

variable {error : StatementError}

@[simp]
theorem isSevere_withHint {hint : String} :
    (error.withHint hint).IsSevere ↔ error.IsSevere :=
  .rfl

@[simp]
theorem blamesSource_withRelated {message : String} {span : Span} :
    (error.withRelated message span).BlamesSource ↔ error.BlamesSource :=
  .rfl

@[simp]
theorem blamesSource_inPhase :
    (error.inPhase phase).BlamesSource ↔ error.BlamesSource :=
  .rfl

@[simp]
theorem sparesNames_inPhase :
    (error.inPhase phase).SparesNames ↔ error.SparesNames :=
  .rfl

@[simp]
theorem blamesSource_withHint {hint : String} :
    (error.withHint hint).BlamesSource ↔ error.BlamesSource :=
  .rfl

@[simp]
theorem sparesNames_withHint {hint : String} :
    (error.withHint hint).SparesNames ↔ error.SparesNames :=
  .rfl

@[simp]
theorem isComplaint_iff :
    error.IsComplaint condition ↔
      error.SparesNames ∧ (condition → error.BlamesSource) :=
  ⟨fun ⟨spares, blames⟩ => ⟨spares, blames⟩,
    fun ⟨spares, blames⟩ => ⟨spares, blames⟩⟩

end StatementError

attribute [simp] DiagnosticKind.severity DiagnosticKind.isEngineError

/-! ## Errors about a statement -/

namespace Statement

variable (statement : Statement) (detail : String)

@[simp]
theorem blamesSource_violation : (statement.violation detail).BlamesSource :=
  ⟨rfl, rfl⟩

@[simp]
theorem sparesNames_violation : (statement.violation detail).SparesNames :=
  StatementError.sparesNames_of (by decide)

@[simp]
theorem blamesSource_invalidArgument :
    (statement.invalidArgument detail).BlamesSource :=
  ⟨rfl, rfl⟩

@[simp]
theorem sparesNames_invalidArgument :
    (statement.invalidArgument detail).SparesNames :=
  StatementError.sparesNames_of (by decide)

end Statement

@[simp]
theorem FrameStack.sparesNames_emptyError (statement : Statement)
    (phase : Phase) : (emptyError statement phase).SparesNames :=
  StatementError.sparesNames_of (by decide)

@[simp]
theorem FrameStack.sparesNames_mismatch (statement : Statement)
    (detail : String) : (mismatch statement detail).SparesNames :=
  StatementError.sparesNames_of (by decide)

namespace Draft

variable (draft : Draft) (statement : Statement)

@[simp]
theorem blamesSource_invalidHolder {draft : Draft} (held : draft.stack ≠ [])
    (statement : Statement) : (draft.invalidHolder statement).BlamesSource := by
  unfold invalidHolder
  split
  next empty => exact absurd empty held
  · simp

@[simp]
theorem sparesNames_invalidHolder :
    (draft.invalidHolder statement).SparesNames := by
  unfold invalidHolder
  split <;> simp

@[simp]
theorem blamesSource_outOfRange (what : String) (number : Int)
    (range : String) : (outOfRange statement what number range).BlamesSource :=
  ⟨rfl, rfl⟩

@[simp]
theorem sparesNames_outOfRange (what : String) (number : Int)
    (range : String) : (outOfRange statement what number range).SparesNames :=
  StatementError.sparesNames_of (by decide)

@[simp]
theorem blamesSource_unsupported :
    (unsupportedStatement statement).BlamesSource :=
  ⟨rfl, rfl⟩

@[simp]
theorem blamesSource_unknown : (unknownStatement statement).BlamesSource := by
  unfold unknownStatement
  dsimp only
  split <;> exact ⟨rfl, rfl⟩

@[simp]
theorem sparesNames_unknown : (unknownStatement statement).SparesNames := by
  unfold unknownStatement
  dsimp only
  split <;> simp

end Draft

/-! ## Arguments and checks -/

variable {allowed : StatementError → Prop}

theorem StatementError.Admits.raises {condition : Prop} {α : Type}
    {step : Except StatementError α} (admits : Admits condition allowed)
    (complains : Raises (IsComplaint condition) step) : Raises allowed step :=
  complains.imp admits

section

variable (admits : Admits True allowed) (statement : Statement)
include admits

namespace Statement

@[simp]
theorem requiredArgument_raises :
    Raises allowed statement.requiredArgument := by
  refine admits.raises ?_
  unfold requiredArgument
  split <;> simp

@[simp]
theorem requireNoArgument_raises :
    Raises allowed statement.requireNoArgument := by
  refine admits.raises ?_
  unfold requireNoArgument
  split <;> simp

@[simp]
theorem readArgument_raises {α : Type} (read? : String → Option α)
    (complaint : String) :
    Raises allowed (statement.readArgument read? complaint) := by
  refine admits.raises (raises_bind_iff.mpr ⟨by simp, fun argument _ => ?_⟩)
  split <;> simp

@[simp]
theorem identifierArgument_raises :
    Raises allowed statement.identifierArgument :=
  readArgument_raises admits statement _ _

@[simp]
theorem nameArgument_raises : Raises allowed statement.nameArgument :=
  readArgument_raises admits statement _ _

@[simp]
theorem booleanArgument_raises : Raises allowed statement.booleanArgument :=
  readArgument_raises admits statement _ _

@[simp]
theorem nonNegativeArgument_raises :
    Raises allowed statement.nonNegativeArgument :=
  readArgument_raises admits statement _ _

@[simp]
theorem integerArgument_raises : Raises allowed statement.integerArgument :=
  readArgument_raises admits statement _ _

@[simp]
theorem dateArgument_raises : Raises allowed statement.dateArgument :=
  readArgument_raises admits statement _ _

@[simp]
theorem uriArgument_raises : Raises allowed statement.uriArgument :=
  readArgument_raises admits statement _ _

@[simp]
theorem statusArgument_raises : Raises allowed statement.statusArgument :=
  readArgument_raises admits statement _ _

@[simp]
theorem orderedByArgument_raises : Raises allowed statement.orderedByArgument :=
  readArgument_raises admits statement _ _

@[simp]
theorem maxElementsArgument_raises :
    Raises allowed statement.maxElementsArgument :=
  readArgument_raises admits statement _ _

@[simp]
theorem enumNameArgument_raises : Raises allowed statement.enumNameArgument :=
  readArgument_raises admits statement _ _

@[simp]
theorem yangVersionArgument_raises :
    Raises allowed statement.yangVersionArgument :=
  admits.raises (by simp [yangVersionArgument])

@[simp]
theorem fractionDigitsArgument_raises :
    Raises allowed statement.fractionDigitsArgument :=
  admits.raises (by simp [fractionDigitsArgument])

@[simp]
theorem intervalsArgument_raises (kind : IntervalKind) :
    Raises allowed (statement.intervalsArgument kind) := by
  refine admits.raises (raises_bind_iff.mpr ⟨by simp, fun argument _ => ?_⟩)
  split <;> simp

@[simp]
theorem patternArgument_raises :
    Raises allowed statement.patternArgument := by
  refine admits.raises (raises_bind_iff.mpr ⟨by simp, fun argument _ => ?_⟩)
  split <;> simp

@[simp]
theorem leafrefPathArgument_raises :
    Raises allowed statement.leafrefPathArgument := by
  refine admits.raises (raises_bind_iff.mpr ⟨by simp, fun argument _ => ?_⟩)
  split <;> simp

@[simp]
theorem schemaNodeIdArgument_raises (absolute : Bool) :
    Raises allowed (statement.schemaNodeIdArgument absolute) := by
  refine admits.raises (raises_bind_iff.mpr ⟨by simp, fun argument _ => ?_⟩)
  split <;> simp

theorem keyNames_raises (keys : List (List Char)) (read : List String) :
    Raises allowed (statement.keyNames read keys) := by
  refine admits.raises ?_
  induction keys generalizing read with
  | nil => simp [keyNames]
  | cons key rest ih =>
      unfold keyNames
      split
      · simp
      · split
        · simp
        · exact ih _

@[simp]
theorem keyListArgument_raises :
    Raises allowed statement.keyListArgument := by
  exact admits.raises (by simp [keyListArgument, keyNames_raises])

theorem uniquePath_raises (part : List Char) :
    Raises allowed (statement.uniquePath part) := by
  refine admits.raises ?_
  unfold uniquePath
  dsimp only
  split <;> simp

@[simp]
theorem uniqueListArgument_raises :
    Raises allowed statement.uniqueListArgument := by
  have paths : ∀ part, Raises (IsComplaint True) (statement.uniquePath part) :=
    uniquePath_raises (by simp) statement
  exact admits.raises (by simp [uniqueListArgument, raises_mapM paths])

@[simp]
theorem checkElementBounds_raises (least : Nat) (most : MaxElements) :
    Raises allowed (statement.checkElementBounds least most) := by
  refine admits.raises ?_
  unfold checkElementBounds
  split <;> simp

end Statement

theorem Cardinality.checkOne_raises (rule : Rule) :
    Raises allowed (checkOne statement rule) := by
  refine admits.raises ?_
  unfold checkOne
  dsimp only
  split <;> simp

@[simp]
theorem Cardinality.check_raises : Raises allowed (check statement) := by
  refine admits.raises (raises_bind_iff.mpr
    ⟨raises_forM (checkOne_raises (by simp) statement) _, fun _ _ => ?_⟩)
  unfold checkFamilies
  split <;> simp

namespace Draft

@[simp]
theorem configWithin_raises (draft : Draft) (parent : NodeId) :
    Raises allowed (draft.configWithin statement parent) := by
  refine admits.raises ?_
  unfold configWithin
  dsimp only
  split <;> simp

@[simp]
theorem appendMember_raises (numbering : Numbering)
    (members : List NumberedMember) (member : NumberedMember) :
    Raises allowed (appendMember statement numbering members member) :=
  admits.raises (raises_mapError (by simp))

/-- What imports share is a prefix. -/
@[simp]
theorem checkQualifiers_raises (draft : Draft) :
    Raises allowed draft.checkQualifiers := by
  refine admits.raises ?_
  unfold checkQualifiers
  split
  · simp
  · split <;> simp

@[simp]
theorem checkKeys_raises (tree : SchemaTree) (list : NodeId)
    (body : ListBody) : Raises allowed (checkKeys tree statement list body) := by
  refine admits.raises ?_
  unfold checkKeys
  dsimp only
  split <;> simp

@[simp]
theorem checkWithin_raises (keyword : String) (builtin : BuiltinType)
    (restriction : Option IntervalRestriction) (natural : Option Intervals) :
    Raises allowed (checkWithin keyword builtin restriction natural) := by
  refine admits.raises ?_
  unfold checkWithin
  split
  · split <;> simp
  · simp

@[simp]
theorem checkTypeBody_raises (use : TypeUse) :
    Raises allowed (checkTypeBody statement use) := by
  refine admits.raises ?_
  unfold checkTypeBody
  split
  · simp
  · dsimp only
    split <;> simp [Cardinality.checkOne_raises]

end Draft

end

/-! ## Steps that look at the open frames -/

@[simp]
theorem FrameStack.top_raises {stack : FrameStack}
    (admits : Admits (stack ≠ []) allowed) (statement : Statement)
    (phase : Phase) : Raises allowed (stack.top statement phase) := by
  refine admits.raises ?_
  unfold top
  split <;> simp

section

variable {draft : Draft} (admits : Admits (draft.stack ≠ []) allowed)
  (statement : Statement)
include admits

namespace Draft

@[simp]
theorem nodeHolder_raises (accepts : ConstructKind → Bool) :
    Raises allowed (draft.nodeHolder statement accepts) := by
  refine admits.raises (raises_bind_iff.mpr ⟨by simp, fun top _ => ?_⟩)
  split <;> simp +contextual

@[simp]
theorem rootHolder_raises : Raises allowed (draft.rootHolder statement) :=
  nodeHolder_raises admits statement _

@[simp]
theorem typeHolder_raises (accepts : BuiltinType → Bool) (derived : Bool) :
    Raises allowed (draft.typeHolder statement accepts derived) := by
  refine admits.raises (raises_bind_iff.mpr ⟨by simp, fun top _ => ?_⟩)
  split <;> simp +contextual

@[simp]
theorem fill_raises (frame : Frame → Option Frame)
    (construct : Construct → Option Construct) :
    Raises allowed (draft.fill statement frame construct) := by
  refine admits.raises (raises_bind_iff.mpr ⟨by simp, fun top _ => ?_⟩)
  split <;> split <;> simp +contextual

@[simp]
theorem annotate_raises (frame : Frame → Option Frame)
    (accepts : ConstructKind → Bool) (change : Metadata → Metadata) :
    Raises allowed (draft.annotate statement frame accepts change) := by
  refine admits.raises (raises_bind_iff.mpr ⟨by simp, fun top _ => ?_⟩)
  split <;> split <;> simp +contextual

@[simp]
theorem fillHeader_raises (change : ModuleHeader → ModuleHeader) :
    Raises allowed (draft.fillHeader statement change) :=
  admits.raises (by simp [fillHeader])

@[simp]
theorem fillType_raises (change : TypeUse → TypeUse) :
    Raises allowed (draft.fillType statement change) :=
  fill_raises admits statement _ _

@[simp]
theorem openRpcPart_raises (construct : Construct) :
    Raises allowed (openRpcPart construct draft statement) :=
  admits.raises (by simp [openRpcPart])

@[simp]
theorem openMust_raises : Raises allowed (openMust draft statement) := by
  refine admits.raises ?_
  simp only [openMust, raises_bind_iff]
  refine ⟨by simp, fun _ _ => ⟨by simp, fun _ _ => ⟨by simp, fun top _ => ?_⟩⟩⟩
  split <;> simp +contextual

@[simp]
theorem openType_raises : Raises allowed (openType draft statement) := by
  refine admits.raises ?_
  simp only [openType, raises_bind_iff]
  refine ⟨by simp, fun _ _ => ⟨by simp, fun _ _ => ⟨by simp, fun _ _ => ?_⟩⟩⟩
  split <;> simp

@[simp]
theorem readBase_raises : Raises allowed (readBase draft statement) := by
  refine admits.raises ?_
  simp only [readBase, raises_bind_iff]
  refine ⟨by simp, fun _ _ => ⟨by simp, fun top _ => ?_⟩⟩
  split <;> simp +contextual

end Draft

end

/-! ## Steps that introduce a name or a unit -/

@[simp]
theorem NameCategory.checkFresh_refuses (tree : SchemaTree) (parent : NodeId)
    (statement : Statement) (name : String) (category : NameCategory) :
    Refuses (checkFresh tree parent statement name category) := by
  unfold checkFresh
  split
  · simp
  · dsimp only
    split <;> simp

namespace Draft

section

variable {draft : Draft} (held : draft.stack ≠ []) (statement : Statement)
include held

@[simp]
theorem openDefinition_refuses (accepts : ConstructKind → Bool)
    (category : NameCategory) (construct : Construct) :
    Refuses (openDefinition accepts category construct draft statement) := by
  simp [openDefinition, held]

@[simp]
theorem openDataNode_refuses (accepts : ConstructKind → Bool)
    (construct : Config → Construct) :
    Refuses (openDataNode accepts construct draft statement) := by
  simp only [openDataNode, raises_bind_iff]
  refine ⟨by simp, fun name _ => ⟨by simp, fun _ _ => ⟨by simp [held],
    fun parent _ => ?_⟩⟩⟩
  split <;> simp

end

/-- Where nothing is open, only a first node can be a unit. -/
theorem openUnit_refuses {draft : Draft}
    (vacant : draft.stack = [] → draft.tree.isEmpty = true)
    (construct : Construct) (statement : Statement) :
    Refuses (openUnit construct draft statement) := by
  simp only [openUnit, raises_bind_iff]
  refine ⟨by simp, fun _ _ => ⟨by simp, fun _ _ => ?_⟩⟩
  split
  next occupied =>
    have held : draft.stack ≠ [] := fun empty => by
      simp [empty, vacant empty] at occupied
    simp [held]
  · simp

end Draft

end YangSchema
