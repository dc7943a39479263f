import YangSchema.Proofs.Draft.Parts
import YangSchema.Proofs.Text.Pieces

/-!
# Statements that introduce nodes

Which statements introduce a node, and what it is called, can be read off the
statements alone:  definitions, data nodes and operations do, and so does a type
whose members are declared in it.  Listing the introductions in the order of the
statements numbers the nodes.  What is inside an instance of an extension is
passed over.

A statement that opens a node adds the one that it introduces behind the others.
-/

namespace YangSchema

/-- The innermost node around a statement. -/
structure Surrounding where
  node : NodeId
  name : String
  kind : ConstructKind
  deriving DecidableEq

/-- A statement that introduces a node. -/
structure Introduction where
  statement : Statement
  kind : ConstructKind
  name : String
  /-- The number of the innermost node around it. -/
  parent : Option NodeId

/-- The nodes that are introduced by a keyword. -/
def Keyword.introduces? : Keyword → Option ConstructKind
  | .module => some .module
  | .submodule => some .submodule
  | .container => some .container
  | .list => some .list
  | .leaf => some .leaf
  | .leafList => some .leafList
  | .choice => some .choice
  | .case => some .case
  | .anyxml => some .anyxml
  | .grouping => some .grouping
  | .uses => some .uses
  | .augment => some .augment
  | .typedef => some .typedef
  | .identity => some .identity
  | .extensionDefinition => some .extension
  | .feature => some .feature
  | .rpc => some .rpc
  | .input => some .input
  | .output => some .output
  | .notification => some .notification
  | _ => none

namespace Statement

/-- The node for the members of a type, and what its name ends in. -/
def memberNode? (statement : Statement) : Option (ConstructKind × String) :=
  if statement.argumentValue = some "enumeration" then
    some (.enumeration, "_enum")
  else if statement.argumentValue = some "bits" then
    some (.bits, "_bits")
  else if statement.argumentValue = some "union" then
    some (.union, "_union")
  else
    none

/-- A node for members is named after the node around it.  In a union, the number
of the type among its member types follows. -/
def memberNodeName (around : Option Surrounding) (earlier : List Statement)
    (ending : String) : String :=
  match around with
  | some holder =>
      if holder.kind = .union then
        let number := (earlier.filter (·.known == .type)).length + 1
        s!"{holder.name}{ending}{number}"
      else
        holder.name ++ ending
  | none => ending

/-- The node that a statement behind some `earlier` ones introduces:  its kind
and its name. -/
def introduces? (statement : Statement) (around : Option Surrounding)
    (earlier : List Statement) : Option (ConstructKind × String) :=
  match statement.known with
  | .type =>
      statement.memberNode?.map fun (kind, ending) =>
        (kind, memberNodeName around earlier ending)
  | .input => some (.input, statement.keywordText)
  | .output => some (.output, statement.keywordText)
  | keyword =>
      keyword.introduces?.map fun kind =>
        (kind, statement.argumentValue.getD "")

mutual

/-- The introductions of a statement and of what it contains, if the next node
gets some number. -/
def introductions (around : Option Surrounding) (earlier : List Statement)
    (next : NodeId) : Statement → List Introduction
  | ⟨keyword, argument, span, block, substatements⟩ =>
      let statement : Statement :=
        ⟨keyword, argument, span, block, substatements⟩
      if statement.known = .extensionInstance then
        []
      else
        match statement.introduces? around earlier with
        | some (kind, name) =>
            ⟨statement, kind, name, around.map (·.node)⟩ ::
              introductionsAll (some ⟨next, name, kind⟩) [] (next + 1)
                substatements
        | none => introductionsAll around [] next substatements

/-- The introductions of statements in their order. -/
def introductionsAll (around : Option Surrounding) (earlier : List Statement)
    (next : NodeId) : List Statement → List Introduction
  | [] => []
  | statement :: rest =>
      let first := introductions around earlier next statement
      first ++ introductionsAll around (earlier ++ [statement])
        (next + first.length) rest

end

variable {statement : Statement} {around : Option Surrounding}
  {earlier : List Statement} {next : NodeId}

theorem introductions_of_extension
    (known : statement.known = .extensionInstance) :
    introductions around earlier next statement = [] := by
  cases statement
  unfold introductions
  exact if_pos known

theorem introductions_of_some {kind : ConstructKind} {name : String}
    (introduced : statement.introduces? around earlier = some (kind, name)) :
    introductions around earlier next statement =
      ⟨statement, kind, name, around.map (·.node)⟩ ::
        introductionsAll (some ⟨next, name, kind⟩) [] (next + 1)
          statement.substatements := by
  have other : statement.known ≠ .extensionInstance := fun known => by
    simp [introduces?, known, Keyword.introduces?] at introduced
  cases statement
  unfold introductions
  simp only [if_neg other, introduced]

theorem introductions_of_none (other : statement.known ≠ .extensionInstance)
    (introduced : statement.introduces? around earlier = none) :
    introductions around earlier next statement =
      introductionsAll around [] next statement.substatements := by
  cases statement
  unfold introductions
  simp only [if_neg other, introduced]

/-- Extensions introduce nothing, so what follows is the first to do so. -/
theorem introductionsAll_behind {front rest : List Statement}
    (known : ∀ statement ∈ front, statement.known = .extensionInstance) :
    introductionsAll around earlier next (front ++ rest) =
      introductionsAll around (earlier ++ front) next rest := by
  induction front generalizing earlier with
  | nil => rw [List.nil_append, List.append_nil]
  | cons statement front ih =>
      obtain ⟨first, others⟩ := List.forall_mem_cons.mp known
      rw [List.cons_append, introductionsAll, introductions_of_extension first,
        List.nil_append, List.append_cons earlier statement front]
      exact ih others

theorem introductionsAll_of_extensions {statements : List Statement}
    (known : ∀ statement ∈ statements, statement.known = .extensionInstance) :
    introductionsAll around earlier next statements = [] := by
  rw [← List.append_nil statements, introductionsAll_behind known,
    introductionsAll]

theorem requiredArgument_eq_ok {argument : String}
    (read : statement.requiredArgument = .ok argument) :
    statement.argumentValue = some argument := by
  unfold requiredArgument at read
  split at read
  next found => rw [found, Except.ok.inj read]
  · simp at read

theorem readArgument_eq_ok {α : Type} {read? : String → Option α}
    {complaint : String} {value : α}
    (read : readArgument read? complaint statement = .ok value) :
    ∃ argument, statement.argumentValue = some argument ∧
      read? argument = some value := by
  simp only [readArgument, bind_eq_ok_iff] at read
  obtain ⟨argument, required, read⟩ := read
  refine ⟨argument, requiredArgument_eq_ok required, ?_⟩
  split at read
  next found => rw [found, pure_eq_ok_iff.mp read]
  · simp at read

/-- An argument that is only accepted is kept as it is. -/
theorem acceptedArgument_eq_ok {accepts : List Char → Bool}
    {complaint name : String}
    (read : readArgument (accepted? accepts) complaint statement = .ok name) :
    statement.argumentValue = some name := by
  obtain ⟨argument, found, accepted⟩ := readArgument_eq_ok read
  unfold accepted? at accepted
  split at accepted
  · rw [found, accepted]
  · simp at accepted

theorem identifierArgument_eq_ok {name : String}
    (read : statement.identifierArgument = .ok name) :
    statement.argumentValue = some name :=
  acceptedArgument_eq_ok read

theorem enumNameArgument_eq_ok {name : String}
    (read : statement.enumNameArgument = .ok name) :
    statement.argumentValue = some name :=
  acceptedArgument_eq_ok read

end Statement

/-- A qualified name is written as it was read. -/
theorem QualifiedName.text_of_parse? {text : String} {name : QualifiedName}
    (parsed : parse? text = some name) : name.text = text := by
  unfold parse? ofCharacters? at parsed
  split at parsed
  next qualifier own cut =>
    split at parsed
    · obtain rfl := Option.some.inj parsed
      have whole := congrArg String.ofList (Text.of_cutAt cut)
      rw [String.ofList_toList] at whole
      rw [whole, QualifiedName.text, ← String.toList_inj]
      simp
    · simp at parsed
  · split at parsed
    · obtain rfl := Option.some.inj parsed
      simp [QualifiedName.text]
    · simp at parsed

theorem Statement.nameArgument_eq_ok {statement : Statement}
    {name : QualifiedName} (read : statement.nameArgument = .ok name) :
    statement.argumentValue = some name.text := by
  obtain ⟨argument, found, parsed⟩ := readArgument_eq_ok read
  rw [found, QualifiedName.text_of_parse? parsed]

/-- Whether a statement of some keyword may have a sub-statement once at most. -/
def Cardinality.boundsOnce (keyword part : Keyword) : Bool :=
  (allRules keyword).contains (part, .one) ||
    (allRules keyword).contains (part, .maxOne)

theorem Cardinality.findAll_le_one {statement : Statement} {part : Keyword}
    (checked : check statement = .ok ())
    (bounded : boundsOnce statement.known part = true) :
    (statement.findAll part).length ≤ 1 := by
  have count := count_le_one checked <| by
    simpa only [boundsOnce, Bool.or_eq_true, List.contains_iff_mem] using bounded
  rw [List.count_eq_countP, List.countP_map, List.countP_eq_length_filter]
    at count
  exact count

/-- The config that a statement gives its node where some config is inherited. -/
def Statement.Configures (statement : Statement) (inherited : Bool)
    (config : Config) : Prop :=
  match statement.findAll .config with
  | [] => config = ⟨inherited, false⟩
  | [declared] =>
      declared.attribute? = some (.flag config.value) ∧ config.explicit = true
  | _ => False

namespace SchemaTree

def config? (tree : SchemaTree) (id : NodeId) : Option Config :=
  (tree.construct? id).bind (·.config?)

/-- The config of the first node that has one, and true if none has. -/
def configAmong (tree : SchemaTree) (ids : List NodeId) : Bool :=
  match ids.findSome? tree.config? with
  | some config => config.value
  | none => true

end SchemaTree

namespace Draft

variable {draft before opened : Draft} {statement : Statement}

theorem configWithin_configures {parent : NodeId} {config : Config}
    (single : (statement.findAll .config).length ≤ 1)
    (ok : draft.configWithin statement parent = .ok config) :
    statement.Configures
      (draft.tree.configAmong (parent :: draft.tree.ancestors parent))
      config := by
  have first : statement.find? .config =
      (statement.findAll .config).head? := List.head?_filter.symm
  unfold configWithin at ok
  dsimp only at ok
  unfold Statement.Configures
  split at ok
  next absent =>
    rw [first, List.head?_eq_none_iff] at absent
    rw [absent]
    exact (pure_eq_ok_iff.mp ok).symm
  next declared found =>
    rw [first] at found
    obtain ⟨rest, found⟩ := List.head?_eq_some_iff.mp found
    obtain rfl : rest = [] := by simpa [found] using single
    have known : declared.known = .config := by
      have listed : declared ∈ statement.findAll .config := by simp [found]
      simpa using (List.mem_filter.mp listed).2
    simp only [bind_eq_ok_iff] at ok
    obtain ⟨value, read, ok⟩ := ok
    split at ok
    · simp at ok
    · obtain rfl := pure_eq_ok_iff.mp ok
      rw [found]
      exact ⟨by simp [Statement.attribute?, known, read, Except.toOption], rfl⟩

/-- A statement adds a node inside the one on top of the stack, in which nothing
has been stored yet. -/
structure OpensNode (before : Draft) (statement : Statement) (parent : NodeId)
    (construct : Construct) (name : String) (opened : Draft) : Prop where
  held : ∃ rest, before.stack = .node parent :: rest
  tree : opened.tree = before.tree.addChild parent
    (.ofConstruct construct name statement.position statement.headSpan)
  initial : construct.attributes.IsInitial
  bounded : ∀ keyword ∈ (construct.attributes.append
      (Metadata.empty.attributes construct.kind)).singleKeywords,
    (statement.findAll keyword).length ≤ 1
  config : ∀ config, construct.config? = some config →
    statement.Configures
      (before.tree.configAmong (parent :: before.tree.ancestors parent)) config

/-- Closing the block of a node changes no node. -/
def ClosesNode (closeBlock : Step) : Prop :=
  ∀ inner after statement id rest, closeBlock inner statement = .ok after →
    inner.stack = .node id :: rest → after.tree = inner.tree ∧ after.stack = rest

/-- A block whose statement introduces a node of its own. -/
structure IsNodeBlock (keyword : Keyword) (openBlock closeBlock : Step) :
    Prop where
  opens : ∀ {before opened statement}, statement.known = keyword →
    openBlock before statement = .ok opened →
      ∃ parent construct name,
        before.OpensNode statement parent construct name opened ∧
        opened.stack = .node before.tree.size :: before.stack ∧
        ∀ around earlier, statement.introduces? around earlier =
          some (construct.kind, name)
  closes : ClosesNode closeBlock
  placeless : keyword ∉ attributeKeywords

theorem opensNode_of_checked {parent : NodeId} {construct : Construct}
    {name : String} {rest : FrameStack} {queue : ReferenceQueue}
    (stack : before.stack = .node parent :: rest)
    (checked : Cardinality.check statement = .ok ())
    (initial : construct.attributes.IsInitial)
    (bounded : (construct.attributes.append
      (Metadata.empty.attributes construct.kind)).singleKeywords.all
        (Cardinality.boundsOnce statement.known) = true)
    (config : ∀ config, construct.config? = some config →
      statement.Configures
        (before.tree.configAmong (parent :: before.tree.ancestors parent))
        config) :
    before.OpensNode statement parent construct name
      { before.openNode statement parent construct name with queue } where
  held := ⟨rest, stack⟩
  tree := rfl
  initial := initial
  bounded keyword listed :=
    Cardinality.findAll_le_one checked (List.all_eq_true.mp bounded keyword listed)
  config := config

theorem introduces?_of_argument {keyword : Keyword} {kind : ConstructKind}
    (introduces : keyword.introduces? = some kind)
    (known : statement.known = keyword)
    (named : keyword ∉ [Keyword.input, .output]) {name : String}
    (argument : statement.argumentValue = some name)
    (around : Option Surrounding) (earlier : List Statement) :
    statement.introduces? around earlier = some (kind, name) := by
  subst known
  have type : statement.known ≠ .type := fun is => by
    simp [is, Keyword.introduces?] at introduces
  unfold Statement.introduces?
  split <;> simp_all

theorem isInitial_of_check {attributes : Attributes}
    (values : attributes.values.all
      (fun place => decide (place.stored = place.initial)) = true)
    (singles : attributes.singles.all (·.2.isNone) = true)
    (lists : attributes.lists.all (·.2.isEmpty) = true) :
    attributes.IsInitial where
  values place listed := of_decide_eq_true (List.all_eq_true.mp values place listed)
  singles single listed :=
    Option.isNone_iff_eq_none.mp (List.all_eq_true.mp singles single listed)
  lists list listed :=
    List.isEmpty_iff.mp (List.all_eq_true.mp lists list listed)

theorem closesNode_of_closeNode {closeBlock : Step}
    (closes : ∀ {inner after statement}, closeBlock inner statement = .ok after →
      ∃ id, inner.closeNode statement = .ok (id, after)) :
    ClosesNode closeBlock := by
  intro inner after statement id rest ok stack
  obtain ⟨id', closed⟩ := closes ok
  obtain ⟨rest', stack', rfl⟩ := closeNode_eq_ok closed
  exact ⟨rfl, (List.cons.inj (stack'.symm.trans stack)).2⟩

theorem closePlainNode_closesNode : ClosesNode closePlainNode :=
  closesNode_of_closeNode fun ok => by
    simp only [closePlainNode, bind_eq_ok_iff, pure_eq_ok_iff] at ok
    obtain ⟨⟨id, popped⟩, closed, rfl⟩ := ok
    exact ⟨id, closed⟩

theorem closeList_closesNode : ClosesNode closeList := by
  intro inner after statement id rest ok stack
  obtain ⟨id', popped, closed, same⟩ := closeList_eq_ok ok
  obtain ⟨rest', stack', rfl⟩ := closeNode_eq_ok closed
  have below : rest' = rest := (List.cons.inj (stack'.symm.trans stack)).2
  obtain rfl | ⟨-, rfl⟩ := same <;> exact ⟨rfl, below⟩

section

variable {keyword : Keyword} {kind : ConstructKind} {closeBlock : Step}
  (introduces : keyword.introduces? = some kind)
  (placeless : keyword ∉ attributeKeywords)
  (closes : ClosesNode closeBlock)
include introduces placeless closes

theorem definition_isNodeBlock {accepts : ConstructKind → Bool}
    {category : NameCategory} {construct : Construct}
    (named : keyword ∉ [Keyword.input, .output])
    (isKind : construct.kind = kind)
    (initial : construct.attributes.IsInitial)
    (bounded : (construct.attributes.append
      (Metadata.empty.attributes construct.kind)).singleKeywords.all
        (Cardinality.boundsOnce keyword) = true)
    (silent : construct.config? = none) :
    IsNodeBlock keyword (openDefinition accepts category construct)
      closeBlock where
  opens known ok := by
    simp only [openDefinition, bind_eq_ok_iff, pure_eq_ok_iff] at ok
    obtain ⟨name, read, _, checked, parent, held, _, _, rfl⟩ := ok
    obtain ⟨_, rest, stack, -, -⟩ := nodeHolder_eq_ok held
    refine ⟨parent, construct, name, opensNode_of_checked stack checked initial
      (known ▸ bounded) (by simp [silent]), rfl, ?_⟩
    rw [isKind]
    exact introduces?_of_argument introduces known named
      (Statement.identifierArgument_eq_ok read)
  closes := closes
  placeless := placeless

theorem dataNode_isNodeBlock {accepts : ConstructKind → Bool}
    {construct : Config → Construct}
    (named : keyword ∉ [Keyword.input, .output])
    (isKind : ∀ config, (construct config).kind = kind)
    (initial : ∀ config, (construct config).attributes.IsInitial)
    (bounded : ∀ config, ((construct config).attributes.append
      (Metadata.empty.attributes (construct config).kind)).singleKeywords.all
        (Cardinality.boundsOnce keyword) = true)
    (single : Cardinality.boundsOnce keyword .config = true)
    (bears : ∀ config, (construct config).config? = some config) :
    IsNodeBlock keyword (openDataNode accepts construct) closeBlock where
  opens known ok := by
    obtain ⟨name, parent, config, read, checked, held, settled, rfl⟩ :=
      openDataNode_eq_ok ok
    obtain ⟨_, rest, stack, -, -⟩ := nodeHolder_eq_ok held
    refine ⟨parent, construct config, name, opensNode_of_checked stack checked
      (initial config) (known ▸ bounded config) ?_, rfl, ?_⟩
    · intro config' declared
      obtain rfl : config = config' := by simpa [bears] using declared
      exact configWithin_configures
        (Cardinality.findAll_le_one checked (known ▸ single)) settled
    · rw [isKind]
      exact introduces?_of_argument introduces known named
        (Statement.identifierArgument_eq_ok read)
  closes := closes
  placeless := placeless

end

/-- A typedef has no name of a built-in type. -/
theorem typedef_isNodeBlock :
    IsNodeBlock .typedef openTypedef closeTypedef where
  opens known ok := by
    simp only [openTypedef, bind_eq_ok_iff] at ok
    obtain ⟨name, _, ok⟩ := ok
    split at ok
    · simp at ok
    · exact (definition_isNodeBlock rfl (by decide)
        (closesNode_of_closeNode closeTypedef_eq_ok) (by decide) rfl
        (isInitial_of_check rfl rfl rfl) rfl rfl).opens known ok
  closes := closesNode_of_closeNode closeTypedef_eq_ok
  placeless := by decide

/-- The input or output of an operation is called after its keyword. -/
theorem rpcPart_isNodeBlock {keyword : Keyword} {construct : Construct}
    (part : keyword = .input ∧ construct = .input ∨
      keyword = .output ∧ construct = .output) :
    IsNodeBlock keyword (openRpcPart construct) closePlainNode where
  opens known ok := by
    simp only [openRpcPart, bind_eq_ok_iff, pure_eq_ok_iff] at ok
    obtain ⟨_, _, parent, held, rfl⟩ := ok
    obtain ⟨_, rest, stack, -, -⟩ := nodeHolder_eq_ok held
    obtain ⟨rfl, rfl⟩ | ⟨rfl, rfl⟩ := part
    all_goals
      exact ⟨parent, _, _, ⟨⟨rest, stack⟩, rfl, isInitial_of_check rfl rfl rfl,
        fun _ listed => absurd listed List.not_mem_nil, by
          simp [Construct.config?]⟩, rfl, fun _ _ => by
          simp [Statement.introduces?, known, Construct.kind]⟩
  closes := closePlainNode_closesNode
  placeless := by
    obtain ⟨rfl, -⟩ | ⟨rfl, -⟩ := part <;> decide

/-- A `uses` is called after its grouping. -/
theorem uses_isNodeBlock : IsNodeBlock .uses openUses closePlainNode where
  opens known ok := by
    simp only [openUses, bind_eq_ok_iff, pure_eq_ok_iff] at ok
    obtain ⟨grouping, read, _, checked, parent, held, rfl⟩ := ok
    obtain ⟨_, rest, stack, -, -⟩ := nodeHolder_eq_ok held
    exact ⟨parent, .uses ⟨grouping, none, []⟩, grouping.text,
      opensNode_of_checked stack checked (isInitial_of_check rfl rfl rfl)
        (known ▸ rfl) (by simp [Construct.config?]), rfl,
      introduces?_of_argument rfl known (by decide)
        (Statement.nameArgument_eq_ok read)⟩
  closes := closePlainNode_closesNode
  placeless := by decide

/-- An `augment` is called after its path. -/
theorem augment_isNodeBlock :
    IsNodeBlock .augment openAugment closeAugment where
  opens known ok := by
    simp only [openAugment, bind_eq_ok_iff, pure_eq_ok_iff] at ok
    obtain ⟨path, read, parent, held, _, _, _, checked, rfl⟩ := ok
    obtain ⟨_, rest, stack, -, -⟩ := nodeHolder_eq_ok held
    exact ⟨parent, .augment ⟨path, none⟩, path,
      opensNode_of_checked stack checked (isInitial_of_check rfl rfl rfl)
        (known ▸ rfl) (by simp [Construct.config?]), rfl,
      introduces?_of_argument rfl known (by decide)
        (Statement.requiredArgument_eq_ok read)⟩
  closes := closesNode_of_closeNode closeAugment_eq_ok
  placeless := by decide

end Draft

end YangSchema
