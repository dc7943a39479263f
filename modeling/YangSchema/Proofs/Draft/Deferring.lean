import YangSchema.Proofs.Draft.Mirrored

/-!
# Which steps defer the check of keys

The end of a list is the only step that notes a list whose keys are to be checked
later; all other steps leave the notes as they are.
-/

namespace YangSchema

namespace Draft

variable {draft after : Draft} {statement : Statement} {keyword : Keyword}

/-- Whatever draft a computation yields, it has the same lists noted. -/
def KeepsNotes (draft : Draft) (computation : Except StatementError Draft) :
    Prop :=
  ∀ after, computation = .ok after → after.deferredKeys = draft.deferredKeys

theorem keepsNotes_pure (same : after.deferredKeys = draft.deferredKeys) :
    draft.KeepsNotes (pure after) := by
  intro _ ok
  rwa [← pure_eq_ok_iff.mp ok]

theorem keepsNotes_throw (error : StatementError) :
    draft.KeepsNotes (throw error) := by
  simp [KeepsNotes]

theorem keepsNotes_throw_bind {α : Type} (error : StatementError)
    (next : α → Except StatementError Draft) :
    draft.KeepsNotes (throw error >>= next) := by
  simp [KeepsNotes]

theorem keepsNotes_bind {α : Type} {computation : Except StatementError α}
    {next : α → Except StatementError Draft}
    (each : ∀ value, draft.KeepsNotes (next value)) :
    draft.KeepsNotes (computation >>= next) := by
  intro after ok
  obtain ⟨value, -, ok⟩ := bind_eq_ok_iff.mp ok
  exact each value after ok

theorem KeepsNotes.bind {computation : Except StatementError Draft}
    {next : Draft → Except StatementError Draft}
    (first : draft.KeepsNotes computation)
    (rest : ∀ middle : Draft, middle.KeepsNotes (next middle)) :
    draft.KeepsNotes (computation >>= next) := by
  intro after ok
  obtain ⟨middle, isMiddle, ok⟩ := bind_eq_ok_iff.mp ok
  exact (rest middle after ok).trans (first middle isMiddle)

/-- Taking a frame off the stack leaves the notes as they are. -/
theorem keepsNotes_closeFrame {α : Type} {expected : FrameKind}
    {content? : Frame → Option α}
    {next : α × Draft → Except StatementError Draft}
    (each : ∀ content rest,
      draft.KeepsNotes (next (content, { draft with stack := rest }))) :
    draft.KeepsNotes (draft.closeFrame statement expected content? >>= next) := by
  intro after ok
  obtain ⟨⟨content, popped⟩, closed, ok⟩ := bind_eq_ok_iff.mp ok
  obtain ⟨_, rest, -, -, rfl⟩ := closeFrame_eq_ok closed
  exact each content rest after ok

theorem keepsNotes_closeNode
    {next : NodeId × Draft → Except StatementError Draft}
    (each : ∀ id rest,
      draft.KeepsNotes (next (id, { draft with stack := rest }))) :
    draft.KeepsNotes (draft.closeNode statement >>= next) := by
  intro after ok
  obtain ⟨⟨id, popped⟩, closed, ok⟩ := bind_eq_ok_iff.mp ok
  obtain ⟨rest, -, rfl⟩ := closeNode_eq_ok closed
  exact each id rest after ok

/-- What is done to the node that has been closed does not matter, as long as
only checks are made. -/
theorem keepsNotes_of_closeNode {closeBlock : Step}
    (closes : ∀ {after}, closeBlock draft statement = .ok after →
      ∃ id, draft.closeNode statement = .ok (id, after)) :
    draft.KeepsNotes (closeBlock draft statement) := by
  intro after ok
  obtain ⟨id, closed⟩ := closes ok
  obtain ⟨rest, -, rfl⟩ := closeNode_eq_ok closed
  rfl

section

variable (frame : Frame → Option Frame)

theorem keepsNotes_fill (construct : Construct → Option Construct) :
    draft.KeepsNotes (draft.fill statement frame construct) := by
  refine keepsNotes_bind fun top => ?_
  split <;> split <;>
    first
    | exact keepsNotes_throw _
    | exact keepsNotes_pure rfl

theorem keepsNotes_annotate (accepts : ConstructKind → Bool)
    (change : Metadata → Metadata) :
    draft.KeepsNotes (draft.annotate statement frame accepts change) := by
  refine keepsNotes_bind fun top => ?_
  split <;> split <;>
    first
    | exact keepsNotes_throw _
    | exact keepsNotes_pure rfl

end

theorem keepsNotes_fillHeader (change : ModuleHeader → ModuleHeader) :
    draft.KeepsNotes (draft.fillHeader statement change) :=
  keepsNotes_bind fun _ => keepsNotes_pure rfl

/-! ## Entries -/

/-- An entry notes nothing. -/
theorem keepsNotes_of_entry {write : Step}
    (isEntry : role keyword = .entry write) :
    draft.KeepsNotes (write draft statement) := by
  cases keyword
  case yangVersion | organization | contact =>
    obtain rfl := Role.entry.inj isEntry
    exact keepsNotes_bind fun _ => keepsNotes_fillHeader _
  case namespaceUri | ifFeature =>
    obtain rfl := Role.entry.inj isEntry
    exact keepsNotes_bind fun _ => keepsNotes_bind fun _ => keepsNotes_pure rfl
  case description | reference | status =>
    obtain rfl := Role.entry.inj isEntry
    exact keepsNotes_bind fun _ => keepsNotes_annotate _ _ _
  case default =>
    obtain rfl := Role.entry.inj isEntry
    refine keepsNotes_bind fun value => ?_
    dsimp only
    split
    · exact keepsNotes_bind fun _ => keepsNotes_fill _ _
    · exact keepsNotes_fill _ _
  case value | position =>
    obtain rfl := Role.entry.inj isEntry
    refine keepsNotes_bind fun number => ?_
    dsimp only
    split
    · exact keepsNotes_throw_bind _ _
    · exact keepsNotes_fill _ _
  case base =>
    obtain rfl := Role.entry.inj isEntry
    refine keepsNotes_bind fun base => keepsNotes_bind fun top => ?_
    split
    · exact keepsNotes_bind fun _ => keepsNotes_fill _ _
    · exact keepsNotes_bind fun _ => keepsNotes_pure rfl
  case path =>
    obtain rfl := Role.entry.inj isEntry
    exact keepsNotes_bind fun _ => keepsNotes_bind fun _ =>
      keepsNotes_bind fun _ => keepsNotes_fill _ _
  case requireInstance | fractionDigits =>
    obtain rfl := Role.entry.inj isEntry
    exact keepsNotes_bind fun _ => keepsNotes_bind fun _ => keepsNotes_fill _ _
  all_goals
    first
    | (cases isEntry; done)
    | obtain rfl := Role.entry.inj isEntry
      exact keepsNotes_bind fun _ => keepsNotes_fill _ _

/-! ## Blocks -/

theorem keepsNotes_openDataNode (accepts : ConstructKind → Bool)
    (construct : Config → Construct) :
    draft.KeepsNotes (openDataNode accepts construct draft statement) := by
  intro after ok
  obtain ⟨_, _, _, -, -, -, -, rfl⟩ := openDataNode_eq_ok ok
  rfl

theorem keepsNotes_openDefinition (accepts : ConstructKind → Bool)
    (category : NameCategory) (construct : Construct) :
    draft.KeepsNotes
      (openDefinition accepts category construct draft statement) :=
  keepsNotes_bind fun _ => keepsNotes_bind fun _ => keepsNotes_bind fun _ =>
    keepsNotes_bind fun _ => keepsNotes_pure rfl

theorem keepsNotes_openTypedef :
    draft.KeepsNotes (openTypedef draft statement) := by
  refine keepsNotes_bind fun name => ?_
  dsimp only
  split
  · exact keepsNotes_throw_bind _ _
  · exact keepsNotes_openDefinition _ _ _

theorem keepsNotes_openType : draft.KeepsNotes (openType draft statement) := by
  refine keepsNotes_bind fun name => keepsNotes_bind fun _ =>
    keepsNotes_bind fun holder => ?_
  dsimp only
  split <;> exact keepsNotes_pure rfl

theorem keepsNotes_openUnit (construct : Construct) :
    draft.KeepsNotes (openUnit construct draft statement) := by
  refine keepsNotes_bind fun name => keepsNotes_bind fun _ => ?_
  dsimp only
  split
  · exact keepsNotes_throw_bind _ _
  · exact keepsNotes_pure rfl

/-- The beginning of a block notes nothing. -/
theorem keepsNotes_of_opening {openBlock closeBlock : Step}
    (isBlock : role keyword = .block openBlock closeBlock) :
    draft.KeepsNotes (openBlock draft statement) := by
  cases keyword
  case module | submodule =>
    obtain ⟨rfl, -⟩ := Role.block.inj isBlock
    exact keepsNotes_openUnit _
  case extensionDefinition | identity | feature | grouping | case | rpc |
      notification =>
    obtain ⟨rfl, -⟩ := Role.block.inj isBlock
    exact keepsNotes_openDefinition _ _ _
  case container | list | leaf | leafList | choice | anyxml =>
    obtain ⟨rfl, -⟩ := Role.block.inj isBlock
    exact keepsNotes_openDataNode _ _
  case typedef =>
    obtain ⟨rfl, -⟩ := Role.block.inj isBlock
    exact keepsNotes_openTypedef
  case type =>
    obtain ⟨rfl, -⟩ := Role.block.inj isBlock
    exact keepsNotes_openType
  case must =>
    obtain ⟨rfl, -⟩ := Role.block.inj isBlock
    refine keepsNotes_bind fun condition => keepsNotes_bind fun _ =>
      keepsNotes_bind fun top => ?_
    dsimp only
    split
    · exact keepsNotes_pure rfl
    · exact keepsNotes_bind fun _ => keepsNotes_pure rfl
  -- What is left opens a frame or a node after some checks.
  all_goals
    first
    | (cases isBlock; done)
    | obtain ⟨rfl, -⟩ := Role.block.inj isBlock
      repeat refine keepsNotes_bind fun _ => ?_
      exact keepsNotes_pure rfl

theorem keepsNotes_closeMembers :
    draft.KeepsNotes (draft.closeMembers statement) := by
  refine keepsNotes_bind fun top => ?_
  split
  · split
    · exact keepsNotes_bind fun _ => keepsNotes_pure rfl
    · exact keepsNotes_pure rfl
  · exact keepsNotes_pure rfl

theorem keepsNotes_closeType :
    draft.KeepsNotes (closeType draft statement) := by
  refine keepsNotes_closeMembers.bind fun middle =>
    keepsNotes_closeFrame fun use rest => keepsNotes_bind fun _ =>
      keepsNotes_bind fun top => ?_
  split
  · split
    · exact keepsNotes_throw _
    · dsimp only
      split
      · exact keepsNotes_pure rfl
      · split <;> exact keepsNotes_pure rfl
  · exact keepsNotes_throw _

theorem keepsNotes_closeUnit :
    draft.KeepsNotes (closeUnit draft statement) := by
  refine keepsNotes_bind fun _ => keepsNotes_bind fun stack =>
    keepsNotes_pure ?_
  rw [linkInside]
  dsimp only
  split <;> rfl

/-- The end of a block notes nothing, unless it is that of a list. -/
theorem keepsNotes_of_closing {openBlock closeBlock : Step}
    (isBlock : role keyword = .block openBlock closeBlock)
    (other : keyword ≠ .list) :
    draft.KeepsNotes (closeBlock draft statement) := by
  cases keyword
  case list => exact absurd rfl other
  case module | submodule =>
    obtain ⟨-, rfl⟩ := Role.block.inj isBlock
    exact keepsNotes_closeUnit
  case importModule | includeSubmodule | belongsTo | revision =>
    obtain ⟨-, rfl⟩ := Role.block.inj isBlock
    exact keepsNotes_closeFrame fun _ _ => keepsNotes_fillHeader _
  case range | length | pattern =>
    obtain ⟨-, rfl⟩ := Role.block.inj isBlock
    exact keepsNotes_closeFrame fun _ _ => keepsNotes_fill _ _
  case typedef =>
    obtain ⟨-, rfl⟩ := Role.block.inj isBlock
    exact keepsNotes_of_closeNode closeTypedef_eq_ok
  case leaf =>
    obtain ⟨-, rfl⟩ := Role.block.inj isBlock
    exact keepsNotes_of_closeNode closeLeaf_eq_ok
  case leafList =>
    obtain ⟨-, rfl⟩ := Role.block.inj isBlock
    exact keepsNotes_of_closeNode closeLeafList_eq_ok
  case choice =>
    obtain ⟨-, rfl⟩ := Role.block.inj isBlock
    exact keepsNotes_of_closeNode closeChoice_eq_ok
  case augment =>
    obtain ⟨-, rfl⟩ := Role.block.inj isBlock
    exact keepsNotes_of_closeNode closeAugment_eq_ok
  case type =>
    obtain ⟨-, rfl⟩ := Role.block.inj isBlock
    exact keepsNotes_closeType
  case argument | must | when =>
    obtain ⟨-, rfl⟩ := Role.block.inj isBlock
    refine keepsNotes_closeFrame fun content rest =>
      keepsNotes_bind fun top => ?_
    split <;> exact keepsNotes_pure rfl
  case enum | bit =>
    obtain ⟨-, rfl⟩ := Role.block.inj isBlock
    refine keepsNotes_closeFrame fun member rest =>
      keepsNotes_bind fun parent => ?_
    split
    · exact keepsNotes_bind fun _ => keepsNotes_pure rfl
    · exact keepsNotes_pure rfl
  case refine =>
    obtain ⟨-, rfl⟩ := Role.block.inj isBlock
    refine keepsNotes_closeFrame fun refine rest => ?_
    dsimp only
    split
    · refine keepsNotes_bind fun _ => keepsNotes_bind fun top => ?_
      split <;> exact keepsNotes_pure rfl
    · refine keepsNotes_bind fun top => ?_
      split <;> exact keepsNotes_pure rfl
  all_goals
    first
    | (cases isBlock; done)
    | obtain ⟨-, rfl⟩ := Role.block.inj isBlock
      exact keepsNotes_closeNode fun _ _ => keepsNotes_pure rfl

end Draft

end YangSchema
