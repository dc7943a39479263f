import YangSchema.Proofs.Compilation.Mirrors

/-!
# Inherited config

Containers, lists, leaves, choices and their like have a config.  It is settled
when the node is opened, from a sub-statement that has not been read yet and from
the nodes around, which may have none themselves.  What the statements inside a
statement inherit can be told from the statements alone, and a source in which
`config true` stands where false is inherited cannot be read without an error.
-/

namespace YangSchema

/-- Whether a keyword introduces a node that has a config. -/
def Keyword.bearsConfig (keyword : Keyword) : Bool :=
  keyword.introduces?.any (·.bearsConfig)

theorem Construct.isSome_config? (construct : Construct) :
    construct.config?.isSome = construct.kind.bearsConfig := by
  cases construct <;> rfl

namespace Statement

variable {statement : Statement} {inherited : Bool} {config : Config}

theorem bearsConfig_of_introduces? {around : Option Surrounding}
    {earlier : List Statement} {kind : ConstructKind} {name : String}
    (introduced : statement.introduces? around earlier = some (kind, name)) :
    kind.bearsConfig = statement.known.bearsConfig := by
  unfold introduces? at introduced
  split at introduced
  next known =>
    obtain ⟨⟨member, ending⟩, isMember, same⟩ :=
      Option.map_eq_some_iff.mp introduced
    obtain ⟨rfl, -⟩ := Prod.mk.inj same
    rw [known]
    unfold memberNode? at isMember
    grind [ConstructKind.bearsConfig, Keyword.bearsConfig, Keyword.introduces?]
  next known =>
    obtain ⟨rfl, -⟩ := Prod.mk.inj (Option.some.inj introduced)
    rw [known]
    rfl
  next known =>
    obtain ⟨rfl, -⟩ := Prod.mk.inj (Option.some.inj introduced)
    rw [known]
    rfl
  next =>
    obtain ⟨kind', introduces, same⟩ := Option.map_eq_some_iff.mp introduced
    obtain ⟨rfl, -⟩ := Prod.mk.inj same
    rw [Keyword.bearsConfig, introduces, Option.any_some]

theorem bearsConfig_of_bare {around : Option Surrounding}
    {earlier : List Statement}
    (bare : statement.introduces? around earlier = none) :
    statement.known.bearsConfig = false := by
  unfold introduces? at bare
  split at bare
  next known =>
    rw [known]
    rfl
  · cases bare
  · cases bare
  next =>
    rw [Keyword.bearsConfig, Option.map_eq_none_iff.mp bare, Option.any_none]

/-- The config that is inherited inside a statement. -/
def configBelow (statement : Statement) (inherited : Bool) : Bool :=
  if statement.known.bearsConfig then
    match statement.find? .config with
    | some declared => declared.argumentValue == some "true"
    | none => inherited
  else
    inherited

/-- Somewhere in a statement `config true` is declared for a node that inherits
false. -/
inductive Contradicts : Bool → Statement → Prop
  | here {statement declared : Statement}
      (bears : statement.known.bearsConfig = true)
      (inside : declared ∈ statement.substatements)
      (known : declared.known = .config)
      (argument : declared.argumentValue = some "true") :
      Contradicts false statement
  | inside {inherited : Bool} {statement part : Statement}
      (known : statement.known ≠ .extensionInstance)
      (inside : part ∈ statement.substatements)
      (contradicts : Contradicts (statement.configBelow inherited) part) :
      Contradicts inherited statement

theorem booleanArgument_eq_ok {value : Bool}
    (read : statement.booleanArgument = .ok value) :
    statement.argumentValue = some (if value then "true" else "false") := by
  obtain ⟨argument, found, parsed⟩ := readArgument_eq_ok read
  unfold Literal.boolean? at parsed
  grind

/-- The declaration by which a node is configured. -/
theorem Configures.declaration {declared : Statement}
    (configures : statement.Configures inherited config)
    (single : statement.findAll .config = [declared]) :
    declared ∈ statement.substatements ∧ declared.known = .config ∧
      declared.argumentValue =
        some (if config.value then "true" else "false") := by
  have listed : declared ∈ statement.findAll .config := by simp [single]
  obtain ⟨inside, known⟩ := List.mem_filter.mp listed
  have known : declared.known = .config := by simpa using known
  simp only [Configures, single] at configures
  have read : declared.booleanArgument.toOption = some config.value := by
    simpa [attribute?, known] using configures.1
  exact ⟨inside, known, booleanArgument_eq_ok (toOption_eq_some_iff.mp read)⟩

/-- What a node is configured to is what is inherited inside of it. -/
theorem configBelow_of_configures (bears : statement.known.bearsConfig = true)
    (configures : statement.Configures inherited config) :
    statement.configBelow inherited = config.value := by
  have first : statement.find? .config =
      (statement.findAll .config).head? := List.head?_filter.symm
  rw [configBelow, if_pos bears, first]
  cases all : statement.findAll .config with
  | nil =>
      simp only [Configures, all] at configures
      rw [configures]
      rfl
  | cons declared rest =>
      cases rest with
      | nil =>
          obtain ⟨-, -, argument⟩ := configures.declaration all
          cases is : config.value <;> simp [argument, is]
      | cons other rest => simp [Configures, all] at configures

/-- A node that is configured to true where false is inherited contradicts it. -/
theorem contradicts_of_configures (bears : statement.known.bearsConfig = true)
    (configures : statement.Configures false config)
    (value : config.value = true) : statement.Contradicts false := by
  cases all : statement.findAll .config with
  | nil =>
      simp only [Configures, all] at configures
      simp [configures] at value
  | cons declared rest =>
      cases rest with
      | nil =>
          obtain ⟨inside, known, argument⟩ := configures.declaration all
          exact .here bears inside known (by simpa [value] using argument)
      | cons other rest => simp [Configures, all] at configures

theorem configBelow_of_bare (bare : statement.known.bearsConfig = false) :
    statement.configBelow inherited = inherited := by
  rw [configBelow, bare]
  rfl

theorem not_contradicts_of_extension
    (extension : statement.known = .extensionInstance) :
    ¬ statement.Contradicts inherited := by
  rintro (⟨bears, -, -, -⟩ | ⟨known, -, -⟩)
  · rw [extension] at bears
    exact absurd bears (by decide)
  · exact known extension

end Statement

namespace Draft

variable {before opened inner after : Draft} {statement : Statement}
  {inherited : Bool}

/-- What is opened next inherits some config if it is in a node. -/
def Imposes (draft : Draft) (inherited : Bool) : Prop :=
  ∀ id, draft.stack.head? = some (.node id) →
    draft.tree.configAmong (id :: draft.tree.ancestors id) = inherited

theorem imposes_of_frame {frame : Frame} {rest : FrameStack}
    (stack : opened.stack = frame :: rest) (other : frame.kind ≠ .node)
    (inherited : Bool) : opened.Imposes inherited := by
  intro id top
  obtain rfl : frame = .node id := by simpa [stack] using top
  exact absurd rfl other

/-- Statements that have been read impose nothing on those behind them. -/
theorem Writes.imposes {statements : List Statement}
    (writes : before.Writes statements after) (open' : before.stack ≠ [])
    (nested : before.tree.IsNested)
    (known : ∀ id, .node id ∈ before.stack → id < before.tree.size)
    (imposes : before.Imposes inherited) : after.Imposes inherited := by
  intro id top
  rw [writes.head? open'] at top
  have old : id < before.tree.size := known id (List.mem_of_mem_head? top)
  have found : before.tree.node? id = some before.tree.nodes[id] :=
    Array.getElem?_eq_getElem old
  obtain ⟨node', found', head, -⟩ := writes.nodes id _ found
  have ancestors : after.tree.ancestors id = before.tree.ancestors id := by
    simp [SchemaTree.ancestors, found, found', head.ancestors]
  rw [ancestors]
  refine (SchemaTree.configAmong_congr fun around listed => ?_).trans
    (imposes id top)
  refine writes.config? ?_
  obtain rfl | listed := List.mem_cons.mp listed
  · exact old
  · exact Nat.lt_trans (nested.lt_of_mem_ancestors listed).1 old

/-- Inside a node its own config is inherited, if it has one. -/
theorem OpensNode.imposes {parent : NodeId} {construct : Construct}
    {name : String} {rest : FrameStack}
    (opens : before.OpensNode statement parent construct name opened)
    (stack : opened.stack = .node before.tree.size :: rest)
    (bears : construct.kind.bearsConfig = statement.known.bearsConfig)
    (sound : before.IsSound) (imposes : before.Imposes inherited) :
    opened.Imposes (statement.configBelow inherited) := by
  obtain ⟨below, held⟩ := opens.held
  have around : before.tree.configAmong
      (parent :: before.tree.ancestors parent) = inherited :=
    imposes parent (by simp [held])
  have inTree : parent < before.tree.size := sound.known parent (by simp [held])
  have found := opens.node? before.tree.size
  rw [if_pos rfl] at found
  have own : opened.tree.config? before.tree.size = construct.config? := by
    simp [SchemaTree.config?, SchemaTree.construct?, found, SchemaNode.ofConstruct]
  have old : opened.tree.configAmong (parent :: before.tree.ancestors parent) =
      inherited := by
    rw [← around]
    refine SchemaTree.configAmong_congr fun id listed => ?_
    have old : id < before.tree.size := by
      obtain rfl | listed := List.mem_cons.mp listed
      · exact inTree
      · exact Nat.lt_trans (sound.nested.lt_of_mem_ancestors listed).1 inTree
    simp only [SchemaTree.config?, SchemaTree.construct?, opens.node?,
      if_neg (Nat.ne_of_lt old)]
  intro id top
  obtain rfl : before.tree.size = id := by simpa [stack] using top
  have ancestors : opened.tree.ancestors before.tree.size =
      parent :: before.tree.ancestors parent := by
    rw [SchemaTree.ancestors, found]
  have isSome := construct.isSome_config?
  rw [bears] at isSome
  rw [ancestors, SchemaTree.configAmong, List.findSome?_cons, own]
  cases declared : construct.config? with
  | none =>
      rw [declared] at isSome
      rw [Statement.configBelow_of_bare isSome.symm]
      exact old
  | some config =>
      rw [declared] at isSome
      have configures := opens.config config declared
      rw [around] at configures
      exact (Statement.configBelow_of_configures isSome.symm configures).symm

theorem role_of_bearsConfig {keyword : Keyword}
    (bears : keyword.bearsConfig = true) :
    ∃ accepts construct closeBlock,
      role keyword = .block (openDataNode accepts construct) closeBlock ∧
        Cardinality.boundsOnce keyword .config = true := by
  cases keyword
  case container | list | leaf | leafList | choice | anyxml =>
    exact ⟨_, _, _, rfl, by decide⟩
  all_goals exact absurd bears (by decide)

/-- A node that declares `config true` is opened only where true is inherited. -/
theorem inherited_of_openDataNode {accepts : ConstructKind → Bool}
    {construct : Config → Construct} {declared : Statement}
    (single : Cardinality.boundsOnce statement.known .config = true)
    (ok : openDataNode accepts construct before statement = .ok opened)
    (imposes : before.Imposes inherited)
    (inside : declared ∈ statement.substatements)
    (known : declared.known = .config)
    (argument : declared.argumentValue = some "true") : inherited = true := by
  obtain ⟨name, parent, config, -, checked, held, settled, -⟩ :=
    openDataNode_eq_ok ok
  obtain ⟨_, rest, stack, -, -⟩ := nodeHolder_eq_ok held
  have around : before.inheritedConfig parent = inherited :=
    imposes parent (by simp [stack])
  -- There is no other declaration, so this is the one that has been looked for.
  have listed : declared ∈ statement.findAll .config :=
    List.mem_filter.mpr ⟨inside, by simp [known]⟩
  have found : statement.find? .config = some declared := by
    obtain ⟨first, only⟩ := List.length_eq_one_iff.mp <| Nat.le_antisymm
      (Cardinality.findAll_le_one checked single)
      (List.length_pos_of_mem listed)
    obtain rfl : declared = first := by simpa [only] using listed
    have head : statement.find? .config =
        (statement.findAll .config).head? := List.head?_filter.symm
    rw [head, only, List.head?_cons]
  simp only [configWithin, found, bind_eq_ok_iff, around] at settled
  obtain ⟨value, read, settled⟩ := settled
  have text := Statement.booleanArgument_eq_ok read
  cases value with
  | false => simp [argument] at text
  | true =>
      split at settled
      · simp at settled
      next other => simpa using other

/-- What is inherited inside a statement that has been opened. -/
theorem imposes_of_opening {openBlock closeBlock : Step}
    (isBlock : role statement.known = .block openBlock closeBlock)
    (ok : openBlock before statement = .ok opened) (sound : before.IsSound)
    (open' : before.stack ≠ []) (imposes : before.Imposes inherited) :
    opened.Imposes (statement.configBelow inherited) := by
  have shape := role_shape statement.known
  rw [isBlock] at shape
  cases shape with
  | unit =>
      obtain ⟨_, -, -, unopened, -⟩ := openUnit_eq_ok ok
      exact absurd unopened open'
  | part isPart =>
      obtain ⟨frame, rfl, -, -, other, -⟩ := isPart.opens rfl ok
      exact imposes_of_frame rfl other _
  | node isNode =>
      obtain ⟨parent, construct, name, opens, stack, introduced⟩ :=
        isNode.opens rfl ok
      exact opens.imposes stack
        (Statement.bearsConfig_of_introduces? (introduced none [])) sound imposes
  | type isType =>
      obtain ⟨use, rfl | ⟨holder, construct, name, opens, stack, -, configless⟩⟩ :=
        openType_cases ok
      · exact imposes_of_frame rfl (by simp [Frame.kind]) _
      · have bears := construct.isSome_config?
        rw [configless] at bears
        refine opens.imposes stack ?_ sound imposes
        rw [← bears, isType]
        rfl

mutual

/-- A statement that is read without an error does not contradict what it
inherits. -/
theorem read_agrees {draft : Draft} {inherited : Bool} (sound : draft.IsSound)
    (open' : draft.stack ≠ []) (imposes : draft.Imposes inherited) :
    {statement : Statement} → (read draft statement).error = none →
      ¬ statement.Contradicts inherited
  | ⟨keyword, argument, span, block, substatements⟩, whole => by
      unfold read at whole
      dsimp only at whole
      generalize is :
        (⟨keyword, argument, span, block, substatements⟩ : Statement) =
          statement at whole ⊢
      have unwinds := role_unwinds statement.known
      have mirrors := role_mirrors statement.known
      split at whole
      next openBlock closeBlock isBlock =>
        obtain ⟨opening, whole, same⟩ := Progress.andThen_error whole
        obtain ⟨inside, closing, same'⟩ := Progress.andThen_error whole
        have ok := Progress.ofStep_error opening
        rw [isBlock] at unwinds
        cases unwinds with
        | block _ opens _ =>
        obtain ⟨frames, isOpening, pushed⟩ := opens rfl ok
        have agrees := readAll_agrees (pushed.sound sound)
          (pushed.held isOpening.ne_nil)
          (imposes_of_opening isBlock ok sound open' imposes) inside
        subst is
        rintro (⟨bears, declared, known, argument⟩ | ⟨-, listed, contradicts⟩)
        · obtain ⟨accepts, construct, close, isData, single⟩ :=
            role_of_bearsConfig bears
          obtain ⟨rfl, -⟩ := Role.block.inj (isBlock.symm.trans isData)
          exact absurd (inherited_of_openDataNode single ok imposes declared
            known argument) (by simp)
        · exact agrees _ listed contradicts
      next write isEntry =>
        obtain ⟨written, whole, same⟩ := Progress.andThen_error whole
        have extensions := (readForeign_eq whole).1
        subst is
        rintro (⟨bears, -, -, -⟩ | ⟨-, listed, contradicts⟩)
        · obtain ⟨accepts, construct, close, isData, -⟩ :=
            role_of_bearsConfig bears
          cases isEntry.symm.trans isData
        · exact Statement.not_contradicts_of_extension (extensions _ listed)
            contradicts
      next isForeign =>
        rw [isForeign] at mirrors
        cases mirrors with
        | foreign extension =>
            exact Statement.not_contradicts_of_extension extension
      next isRefused => simp at whole

theorem readAll_agrees {draft : Draft} {inherited : Bool}
    (sound : draft.IsSound) (open' : draft.stack ≠ [])
    (imposes : draft.Imposes inherited) : {statements : List Statement} →
    (readAll draft statements).error = none →
      ∀ statement ∈ statements, ¬ statement.Contradicts inherited
  | [], _ => List.forall_mem_nil _
  | statement :: rest, whole => by
      unfold readAll at whole
      obtain ⟨first, others, same⟩ := Progress.andThen_error whole
      have follows := (read_reads first).follows
      have sound' := follows.sound sound
      have writes := (read_mirrors sound open' first).toWrites
      exact List.forall_mem_cons.mpr ⟨read_agrees sound open' imposes first,
        readAll_agrees sound' (follows.held.mpr open')
          (writes.imposes open' sound.nested sound.known imposes) others⟩

end

/-- In a unit true is inherited. -/
theorem imposes_of_openUnit {construct : Construct}
    (silent : construct.config? = none)
    (ok : openUnit construct before statement = .ok opened) :
    opened.Imposes true := by
  obtain ⟨name, -, -, -, empty, rfl⟩ := openUnit_eq_ok ok
  intro id top
  obtain rfl : rootId = id := by simpa [push] using top
  have found := before.tree.node?_addRoot
    (.ofConstruct construct name statement.position statement.headSpan) rootId
  rw [if_pos empty.symm] at found
  generalize before.tree.addRoot _ = tree at found
  have ancestors : tree.ancestors rootId = [] := by
    rw [SchemaTree.ancestors, found]
  have config : tree.config? rootId = none := by
    rw [SchemaTree.config?, SchemaTree.construct?, found]
    exact silent
  show tree.configAmong (rootId :: tree.ancestors rootId) = true
  simp [ancestors, SchemaTree.configAmong, config]

theorem read_unit_agrees {draft : Draft}
    (unit : statement.known ∈ [Keyword.module, .submodule])
    (sound : draft.IsSound) (whole : (read draft statement).error = none) :
    ¬ statement.Contradicts true := by
  obtain ⟨construct, isBlock, bare, named, -, complete⟩ := role_unit unit
  obtain ⟨construct', isUnit, introduces, -, silent, -⟩ :=
    role_unit_isInitial unit
  obtain ⟨same, -⟩ := Role.block.inj (isBlock.symm.trans isUnit)
  rw [read_of_block isBlock] at whole
  obtain ⟨opening, whole, -⟩ := Progress.andThen_error whole
  obtain ⟨inside, -, -⟩ := Progress.andThen_error whole
  have ok := Progress.ofStep_error opening
  generalize (Progress.ofStep draft (openUnit construct draft statement)).draft =
    opened at ok inside
  obtain ⟨frame, -, opens⟩ := openUnit_opens bare named complete ok
  have bears : statement.known.bearsConfig = false := by
    rw [Keyword.bearsConfig, introduces, Option.any_some,
      ← construct'.isSome_config?, silent]
    rfl
  have agrees := readAll_agrees (opens.sound sound) (by simp [opens.stack])
    (imposes_of_openUnit silent (same ▸ ok)) inside
  intro contradicts
  generalize isTrue : true = inherited at contradicts
  obtain ⟨-, -, -, -⟩ | ⟨-, listed, contradicts⟩ := contradicts
  · cases isTrue
  · rw [Statement.configBelow_of_bare bears, ← isTrue] at contradicts
    exact agrees _ listed contradicts

/-- A file that is read without an error contradicts nothing. -/
theorem readTopLevel_agrees {draft : Draft} {statements : List Statement}
    (sound : draft.IsSound) (unlinked : draft.IsUnlinked)
    (whole : (readTopLevel draft false statements).error = none) :
    ∀ statement ∈ statements, ¬ statement.Contradicts true := by
  obtain ⟨before, unit, reads⟩ := exists_readsUnit sound unlinked whole
  obtain ⟨front, back, rfl, foreign⟩ := reads.around
  obtain ⟨inFront, behind⟩ := List.forall_mem_append.mp foreign
  refine List.forall_mem_append.mpr ⟨fun statement listed => ?_,
    List.forall_mem_cons.mpr ⟨?_, fun statement listed => ?_⟩⟩
  · exact Statement.not_contradicts_of_extension (inFront statement listed)
  · exact read_unit_agrees reads.isUnit reads.sound reads.whole
  · exact Statement.not_contradicts_of_extension (behind statement listed)

end Draft

end YangSchema
