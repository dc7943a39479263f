import YangSchema.Proofs.Draft.Naming
import YangSchema.Proofs.Draft.Numbering
import YangSchema.Proofs.Draft.Reading
import YangSchema.Proofs.SyntaxTree.Leaves

/-!
# Reading the members of a type

The type `enumeration` has a node for its values, and the type `bits` one for its
bits.  Each member is read into a frame of its own that takes a declared number,
and is appended to the node with its number when its statement ends.  So the
members at the node stand in their written order.
-/

namespace YangSchema

/-- The two kinds of types whose members are numbered. -/
inductive MemberKind where
  | enum
  | bit

namespace MemberKind

/-- The keyword of a member. -/
def keyword : MemberKind → Keyword
  | enum => .enum
  | bit => .bit

/-- The keyword of the number of a member. -/
def numberKeyword : MemberKind → Keyword
  | enum => .value
  | bit => .position

def numbering : MemberKind → Numbering
  | enum => .values
  | bit => .positions

/-- The least number that a member can have. -/
def least : MemberKind → Int
  | enum => -2147483648
  | bit => 0

/-- The greatest number that a member can have. -/
def greatest : MemberKind → Int
  | enum => 2147483647
  | bit => 4294967295

def builtin : MemberKind → BuiltinType
  | enum => .enumeration
  | bit => .bits

def category : MemberKind → NameCategory
  | enum => .enumMember
  | bit => .bitMember

/-- The node of a type with some members. -/
def construct : MemberKind → List NumberedMember → Construct
  | enum => .enumeration
  | bit => .bits

def frame : MemberKind → NumberedMember → Frame
  | enum => .enum
  | bit => .bit

/-- What is read as a number. -/
def write : MemberKind → Draft.Step
  | enum => Draft.readValue
  | bit => Draft.readPosition

def openBlock : MemberKind → Draft.Step
  | enum => Draft.openEnum
  | bit => Draft.openBit

def closeBlock : MemberKind → Draft.Step
  | enum => Draft.closeEnum
  | bit => Draft.closeBit

/-- The names of values have no blanks around them, those of bits are
identifiers. -/
def IsName : MemberKind → String → Prop
  | enum, name => name ≠ "" ∧ Text.trim name.toList = name.toList
  | bit, name => Identifier.isValid name.toList = true

instance (kind : MemberKind) (name : String) : Decidable (kind.IsName name) :=
  match kind with
  | enum => inferInstanceAs (Decidable (name ≠ "" ∧ _))
  | bit => inferInstanceAs (Decidable (_ = true))

theorem admitsFrom_iff (kind : MemberKind) {declared : List (Option Int)} :
    kind.numbering.AdmitsFrom none declared ↔
      Numbering.Accepts kind.least kind.greatest declared := by
  cases kind <;> exact Numbering.admitsFrom_iff_accepts (by decide)

instance (kind : MemberKind) (declared : List (Option Int)) :
    Decidable (Numbering.Accepts kind.least kind.greatest declared) :=
  decidable_of_iff _ kind.admitsFrom_iff

end MemberKind

namespace Statement

variable {kind : MemberKind} {statement : Statement} {name : String}

/-- A statement declares a number and has no sub-statements. -/
structure DeclaresNumber (kind : MemberKind) (statement : Statement)
    (number : Int) : Prop where
  known : statement.known = kind.numberKeyword
  numeral : ∃ text, statement.argumentValue = some text ∧
    Literal.Denotes text.toList number
  bare : statement.substatements = []

/-- A statement declares a member that has a good name, and its number or
nothing else. -/
structure DeclaresMember (kind : MemberKind) (statement : Statement)
    (declared : String × Option Int) : Prop where
  known : statement.known = kind.keyword
  argument : statement.argumentValue = some declared.1
  named : kind.IsName declared.1
  parts : List.Forall₂ (DeclaresNumber kind) statement.substatements
    declared.2.toList

theorem readArgument_eq_ok_iff {α : Type} {read? : String → Option α}
    {complaint argument : String} {value : α}
    (found : statement.argumentValue = some argument) :
    readArgument read? complaint statement = .ok value ↔
      read? argument = some value := by
  simp only [readArgument, requiredArgument, found, bind_eq_ok_iff,
    Except.ok.injEq, exists_eq_left']
  cases read? argument <;> simp

end Statement

namespace Cardinality

/-- Sub-statements that may appear once and do so pass the check, if they do not
belong to different families. -/
theorem check_of_few {statement : Statement} {keyword : Keyword}
    (known : statement.known = keyword)
    (once : ∀ rule ∈ allRules keyword, rule.2 = .maxOne ∧
      (statement.findAll rule.1).length ≤ 1)
    (family : ((families keyword).filterMap fun family =>
      family.find? statement.has).length ≤ 1) :
    check statement = .ok () := by
  subst known
  have passed : (allRules statement.known).forM (checkOne statement) = .ok () := by
    generalize allRules statement.known = rules at once
    induction rules with
    | nil => rfl
    | cons rule rest ih =>
        obtain ⟨⟨maxOne, few⟩, once⟩ := List.forall_mem_cons.mp once
        have checked : checkOne statement rule = .ok () := by
          obtain ⟨keyword, _⟩ := rule
          obtain rfl : _ = Cardinality.maxOne := maxOne
          unfold checkOne
          dsimp only at few ⊢
          split <;> simp_all
        show (checkOne statement rule >>= fun _ =>
          rest.forM (checkOne statement)) = .ok ()
        rw [checked]
        exact ih once
  have single : checkFamilies statement = .ok () := by
    unfold checkFamilies presentFamilies
    split
    next two => simp [two] at family
    · rfl
  simp only [check, passed, single]
  rfl

end Cardinality

theorem SchemaTree.ext_node? {first second : SchemaTree}
    (source : first.source = second.source)
    (nodes : ∀ id, first.node? id = second.node? id) : first = second := by
  obtain ⟨_, nodes₁⟩ := first
  obtain ⟨_, nodes₂⟩ := second
  obtain rfl : _ = _ := source
  exact congrArg _ (Array.ext_getElem? nodes)

namespace Draft

variable {draft after : Draft} {kind : MemberKind} {statement : Statement}
  {members : List NumberedMember} {id : NodeId} {rest : FrameStack}

theorem Progress.ofStep_eq_iff {step : Except StatementError Draft} :
    Progress.ofStep draft step = ⟨after, none⟩ ↔ step = .ok after := by
  cases step <;> simp [Progress.ofStep]

theorem Progress.andThen_eq_iff {progress : Progress} {next : Draft → Progress} :
    progress.andThen next = ⟨after, none⟩ ↔
      ∃ middle, progress = ⟨middle, none⟩ ∧ next middle = ⟨after, none⟩ := by
  obtain ⟨middle, error⟩ := progress
  cases error <;> simp [Progress.andThen]

/-- What takes the number of an enum. -/
theorem readValue_eq_ok_iff {member : NumberedMember} {number : Int}
    (stack : draft.stack = .enum member :: rest)
    (declares : statement.DeclaresNumber .enum number) :
    readValue draft statement = .ok after ↔
      Numbering.values.admits number = true ∧
        { draft with
          stack := .enum { member with number, explicit := true } :: rest } =
            after := by
  obtain ⟨text, argument, denotes⟩ := declares.numeral
  have reads {result : Int} :
      statement.integerArgument = .ok result ↔
        (-(Nat.pow 2 127 : Int) ≤ number ∧ number < (Nat.pow 2 127 : Int)) ∧
          number = result := by
    rw [Statement.integerArgument, Statement.readArgument_eq_ok_iff argument,
      Literal.integer?_of_denotes denotes]
    simp
  simp only [readValue, bind_eq_ok_iff, reads, and_assoc]
  by_cases fits : Numbering.values.admits number = true
  · have within := Numbering.admits_values.mp fits
    have power : (Nat.pow 2 127 : Int) = 170141183460469231731687303715884105728 := rfl
    have small : -(Nat.pow 2 127 : Int) ≤ number ∧ number < (Nat.pow 2 127 : Int) := by
      omega
    simp only [small.1, small.2, fits, true_and, exists_eq_left']
    simp [fill, stack, FrameStack.top]
  · simp [fits]

theorem readPosition_eq_ok_iff {member : NumberedMember} {number : Int}
    (stack : draft.stack = .bit member :: rest)
    (declares : statement.DeclaresNumber .bit number) :
    readPosition draft statement = .ok after ↔
      Numbering.positions.admits number = true ∧
        { draft with
          stack := .bit { member with number, explicit := true } :: rest } =
            after := by
  obtain ⟨text, argument, denotes⟩ := declares.numeral
  have reads {result : Nat} :
      statement.nonNegativeArgument = .ok result ↔
        number < (Nat.pow 2 64 : Int) ∧ result = number := by
    rw [Statement.nonNegativeArgument, Statement.readArgument_eq_ok_iff argument,
      Literal.nonNegative?_of_denotes denotes]
    grind
  simp only [readPosition, bind_eq_ok_iff, reads, and_assoc]
  by_cases fits : Numbering.positions.admits number = true
  · have within := Numbering.admits_positions.mp fits
    obtain ⟨natural, rfl⟩ := Int.eq_ofNat_of_zero_le within.1
    have power : (Nat.pow 2 64 : Int) = 18446744073709551616 := rfl
    have small : (natural : Int) < (Nat.pow 2 64 : Int) := by omega
    simp only [small, fits, true_and, Int.natCast_inj, exists_eq_left]
    simp [fill, stack, FrameStack.top]
  · constructor
    · rintro ⟨natural, -, same, done⟩
      simp [same, fits] at done
    · exact fun done => absurd done.1 fits

/-- A member takes a number that fits its type. -/
theorem read_number_iff {member : NumberedMember} {number : Int}
    (stack : draft.stack = kind.frame member :: rest)
    (declares : statement.DeclaresNumber kind number) :
    read draft statement = ⟨after, none⟩ ↔
      kind.numbering.admits number = true ∧
        { draft with
          stack := kind.frame { member with number, explicit := true } :: rest } =
            after := by
  have isEntry : role statement.known = .entry kind.write := by
    rw [declares.known]
    cases kind <;> rfl
  rw [read_eq, isEntry]
  simp only [declares.bare, readForeign, Progress.andThen_eq_iff,
    Progress.ofStep_eq_iff, Progress.mk.injEq, and_true, exists_eq_right]
  cases kind with
  | enum => exact readValue_eq_ok_iff stack declares
  | bit => exact readPosition_eq_ok_iff stack declares

/-- What a member is that has been read with a number. -/
def numberedMember (statement : Statement) (declared : String × Option Int)
    (number : Int) : NumberedMember :=
  { newMember statement declared.1 with number, explicit := declared.2.isSome }

/-- The parts of a member that is open. -/
theorem readAll_numbers_iff {declared : String × Option Int}
    (stack : draft.stack = kind.frame (newMember statement declared.1) :: rest)
    (parts : List.Forall₂ (Statement.DeclaresNumber kind) statement.substatements
      declared.2.toList) :
    readAll draft statement.substatements = ⟨after, none⟩ ↔
      (∀ number ∈ declared.2, kind.numbering.admits number = true) ∧
        { draft with
          stack := kind.frame
            (numberedMember statement declared (declared.2.getD 0)) :: rest } =
              after := by
  obtain ⟨name, number⟩ := declared
  generalize statement.substatements = inside at parts
  cases number with
  | none =>
      cases parts
      have same : { draft with
          stack := kind.frame (newMember statement name) :: rest } = draft := by
        rw [← stack]
      simpa [readAll, numberedMember, newMember] using same ▸ Iff.rfl
  | some number =>
      obtain ⟨part, others, declares, none, rfl⟩ :=
        List.forall₂_cons_right_iff.mp parts
      cases none
      simp [readAll, numberedMember, newMember, Progress.andThen_eq_iff,
        read_number_iff stack declares]

/-- A member may have its number once. -/
theorem check_member {declared : String × Option Int}
    (declares : statement.DeclaresMember kind declared) :
    Cardinality.check statement = .ok () := by
  have few (keyword : Keyword) : (statement.findAll keyword).length ≤ 1 := by
    refine Nat.le_trans (List.length_filter_le ..) ?_
    rw [declares.parts.length_eq]
    cases declared.2 <;> simp
  refine Cardinality.check_of_few declares.known (fun rule listed => ⟨?_, few _⟩) ?_
  · revert rule
    cases kind <;> decide
  · cases kind <;> simp [MemberKind.keyword, Cardinality.families]

theorem openMember_eq_ok_iff {declared : String × Option Int} {opened : Draft}
    (stack : draft.stack = .node id :: rest)
    (isNode : draft.tree.construct? id = some (kind.construct members))
    (declares : statement.DeclaresMember kind declared) :
    kind.openBlock draft statement = .ok opened ↔
      (∀ member ∈ members, member.position.before statement.position = true →
        member.name ≠ declared.1) ∧
      draft.push (kind.frame (newMember statement declared.1)) = opened := by
  obtain ⟨name, number⟩ := declared
  have checked := check_member declares
  obtain ⟨node, found, is⟩ := SchemaTree.construct?_eq_some_iff.mp isNode
  have argument := declares.argument
  have named := declares.named
  have fresh (category : NameCategory) (own : category = kind.category) :
      NameCategory.checkFresh draft.tree id statement name category = .ok () ↔
        ∀ member ∈ members, member.position.before statement.position = true →
          member.name ≠ name := by
    rw [NameCategory.checkFresh_eq_ok_iff, ← NameCategory.earlier?_isSome_iff]
    have taken := @NameCategory.earlierMember?_isSome_iff statement.position name
      members
    cases kind <;> subst own <;>
      simp only [NameCategory.earlier?, isNode, MemberKind.construct,
        MemberKind.category, taken] <;> grind
  have fresh := fresh _ rfl
  cases kind with
  | enum =>
      have held : draft.nodeHolder statement (· == .enumeration) = .ok id := by
        simp [nodeHolder, stack, FrameStack.top, SchemaTree.kind?, found,
          SchemaNode.kind, is, MemberKind.construct, Construct.kind]
      have read : statement.enumNameArgument = .ok name := by
        rw [Statement.enumNameArgument, Statement.readArgument_eq_ok_iff argument]
        have named : name ≠ "" ∧ Text.trim name.toList = name.toList := named
        simp [Statement.accepted?, named]
      simp only [MemberKind.openBlock, openEnum, read, checked, held,
        bind_eq_ok_iff, pure_eq_ok_iff, Except.ok.injEq, exists_eq_left']
      rw [← fresh]
      simp [MemberKind.category, MemberKind.frame, Unique.exists_iff]
  | bit =>
      have held : draft.nodeHolder statement (· == .bits) = .ok id := by
        simp [nodeHolder, stack, FrameStack.top, SchemaTree.kind?, found,
          SchemaNode.kind, is, MemberKind.construct, Construct.kind]
      have read : statement.identifierArgument = .ok name := by
        rw [Statement.identifierArgument,
          Statement.readArgument_eq_ok_iff argument]
        have named : Identifier.isValid name.toList = true := named
        simp [Statement.accepted?, named]
      simp only [MemberKind.openBlock, openBit, read, checked, held,
        bind_eq_ok_iff, pure_eq_ok_iff, Except.ok.injEq, exists_eq_left']
      rw [← fresh]
      simp [MemberKind.category, MemberKind.frame, Unique.exists_iff]

theorem closeMember_eq_ok_iff {member : NumberedMember}
    (stack : draft.stack = kind.frame member :: .node id :: rest)
    (isNode : draft.tree.construct? id = some (kind.construct members)) :
    kind.closeBlock draft statement = .ok after ↔
      ∃ number, kind.numbering.number members member = .ok number ∧
        ({ draft with stack := .node id :: rest } : Draft).modifyConstruct id
          (fun _ => kind.construct (members ++ [{ member with number }])) =
            after := by
  obtain ⟨node, found, is⟩ := SchemaTree.construct?_eq_some_iff.mp isNode
  have appended {members' : List NumberedMember} :
      appendMember statement kind.numbering members member = .ok members' ↔
        ∃ number, kind.numbering.number members member = .ok number ∧
          members ++ [{ member with number }] = members' := by
    rw [appendMember, Numbering.append]
    cases kind.numbering.number members member <;>
      simp [Except.map, Except.mapError]
  have isKind : draft.tree.kind? id = some (kind.construct members).kind := by
    simp [SchemaTree.kind?, found, SchemaNode.kind, is]
  cases kind with
  | enum =>
      have held : ({ draft with stack := .node id :: rest } : Draft).nodeHolder
          statement (· == .enumeration) = .ok id := by
        simp [nodeHolder, FrameStack.top, isKind, MemberKind.construct,
          Construct.kind]
      have appended := @appended
      simp only [MemberKind.numbering] at appended
      simp [MemberKind.closeBlock, closeEnum, closeFrame, FrameStack.take, stack,
        MemberKind.frame, held, isNode, MemberKind.construct, appended,
        MemberKind.numbering]
  | bit =>
      have held : ({ draft with stack := .node id :: rest } : Draft).nodeHolder
          statement (· == .bits) = .ok id := by
        simp [nodeHolder, FrameStack.top, isKind, MemberKind.construct,
          Construct.kind]
      have appended := @appended
      simp only [MemberKind.numbering] at appended
      simp [MemberKind.closeBlock, closeBit, closeFrame, FrameStack.take, stack,
        MemberKind.frame, held, isNode, MemberKind.construct, appended,
        MemberKind.numbering]

/-- A member is read exactly if its name is free behind the members in front and it
can have its number.  Then it is the last member. -/
theorem read_member_iff {declared : String × Option Int}
    (stack : draft.stack = .node id :: rest)
    (isNode : draft.tree.construct? id = some (kind.construct members))
    (increasing : (members.map (·.number)).Pairwise (· < ·))
    (declares : statement.DeclaresMember kind declared) :
    let previous := (members.map (·.number)).getLast?
    read draft statement = ⟨after, none⟩ ↔
      (∀ member ∈ members, member.position.before statement.position = true →
        member.name ≠ declared.1) ∧
      kind.numbering.Admits previous declared.2 ∧
      draft.modifyConstruct id (fun _ => kind.construct (members ++
        [numberedMember statement declared
          (declared.2.getD (Numbering.successor previous))])) = after := by
  intro previous
  have isBlock : role statement.known = .block kind.openBlock kind.closeBlock := by
    rw [declares.known]
    cases kind <;> rfl
  rw [read_eq, isBlock]
  let opened := draft.push (kind.frame (newMember statement declared.1))
  let member := numberedMember statement declared (declared.2.getD 0)
  let filled : Draft := { opened with stack := kind.frame member :: draft.stack }
  have parts {middle : Draft} : readAll opened statement.substatements =
      ⟨middle, none⟩ ↔
        (∀ number ∈ declared.2, kind.numbering.admits number = true) ∧
          filled = middle := readAll_numbers_iff rfl declares.parts
  have taken : filled.stack = kind.frame member :: .node id :: rest :=
    congrArg (kind.frame member :: ·) stack
  have restored : ({ filled with stack := .node id :: rest } : Draft) = draft := by
    rw [← stack]
    rfl
  have closes : kind.closeBlock filled statement = .ok after ↔
      ∃ number, kind.numbering.number members member = .ok number ∧
        draft.modifyConstruct id
          (fun _ => kind.construct (members ++ [{ member with number }])) = after :=
    restored ▸ closeMember_eq_ok_iff taken isNode
  have numbers {number : Int} : kind.numbering.number members member = .ok number ↔
      _ := Numbering.number_eq_ok_iff increasing rfl rfl
  simp only [Progress.andThen_eq_iff, Progress.ofStep_eq_iff,
    openMember_eq_ok_iff stack isNode declares, and_assoc, exists_and_left,
    exists_eq_left']
  refine and_congr_right fun fresh => ?_
  rw [exists_congr fun middle => and_congr_left' parts]
  simp only [and_assoc, exists_and_left, exists_eq_left']
  rw [closes]
  simp only [numbers, and_assoc, exists_and_left, exists_eq_left']
  exact ⟨fun ⟨fits, exceeds, room, same⟩ => ⟨⟨fits, exceeds, room⟩, same⟩,
    fun ⟨⟨fits, exceeds, room⟩, same⟩ => ⟨fits, exceeds, room, same⟩⟩

/-- The members that are read, numbered behind `previous`. -/
def numberedMembers : Option Int → List Statement → List (String × Option Int) →
    List NumberedMember
  | previous, statement :: statements, declared :: rest =>
      let number := declared.2.getD (Numbering.successor previous)
      numberedMember statement declared number ::
        numberedMembers (some number) statements rest
  | _, _, _ => []

theorem construct?_modifyConstruct_of {construct construct' : Construct}
    (isNode : draft.tree.construct? id = some construct) :
    (draft.modifyConstruct id fun _ => construct').tree.construct? id =
      some construct' := by
  obtain ⟨node, found, -⟩ := SchemaTree.construct?_eq_some_iff.mp isNode
  refine SchemaTree.construct?_eq_some_iff.mpr
    ⟨{ node with construct := construct' }, ?_, rfl⟩
  exact (SchemaTree.node?_modifyConstruct ..).trans (by simp [found])

theorem modifyConstruct_same {construct : Construct}
    (isNode : draft.tree.construct? id = some construct) :
    draft.modifyConstruct id (fun _ => construct) = draft := by
  obtain ⟨node, found, rfl⟩ := SchemaTree.construct?_eq_some_iff.mp isNode
  have same : draft.tree.modifyConstruct id (fun _ => node.construct) =
      draft.tree := by
    refine SchemaTree.ext_node? rfl fun other => ?_
    rw [SchemaTree.node?_modifyConstruct]
    split
    next is =>
      subst is
      rw [found]
      rfl
    · rfl
  rw [modifyConstruct, same]

theorem modifyConstruct_twice (construct construct' : Construct) :
    (draft.modifyConstruct id fun _ => construct).modifyConstruct id
      (fun _ => construct') = draft.modifyConstruct id fun _ => construct' := by
  have same : (draft.tree.modifyConstruct id fun _ => construct).modifyConstruct id
      (fun _ => construct') = draft.tree.modifyConstruct id fun _ => construct' := by
    refine SchemaTree.ext_node? rfl fun other => ?_
    simp only [SchemaTree.node?_modifyConstruct]
    split
    · cases draft.tree.node? other <;> rfl
    · rfl
  simp only [modifyConstruct, same]

/-- Members are read exactly if their names are new and they can have their
numbers.  Then they are the last members. -/
theorem readAll_members_iff {statements : List Statement}
    {declared : List (String × Option Int)}
    (declares : List.Forall₂ (Statement.DeclaresMember kind) statements declared)
    (ordered : statements.Pairwise fun first second =>
      first.position.before second.position = true)
    (stack : draft.stack = .node id :: rest)
    (isNode : draft.tree.construct? id = some (kind.construct members))
    (increasing : (members.map (·.number)).Pairwise (· < ·))
    (behind : ∀ member ∈ members, ∀ statement ∈ statements,
      member.position.before statement.position = true) :
    let previous := (members.map (·.number)).getLast?
    readAll draft statements = ⟨after, none⟩ ↔
      ((∀ member ∈ members, member.name ∉ declared.map (·.1)) ∧
        (declared.map (·.1)).Nodup) ∧
      kind.numbering.AdmitsFrom previous (declared.map (·.2)) ∧
      draft.modifyConstruct id (fun _ => kind.construct
        (members ++ numberedMembers previous statements declared)) = after := by
  intro previous
  induction declares generalizing draft members with
  | nil =>
      simp [readAll, numberedMembers, Numbering.AdmitsFrom,
        modifyConstruct_same isNode]
  | @cons statement first statements declared declares _ ih =>
      obtain ⟨next, ordered⟩ := List.pairwise_cons.mp ordered
      let number := first.2.getD (Numbering.successor previous)
      let members' := members ++ [numberedMember statement first number]
      let draft' := draft.modifyConstruct id fun _ => kind.construct members'
      have isNode' : draft'.tree.construct? id = some (kind.construct members') :=
        construct?_modifyConstruct_of isNode
      have behind' : ∀ member ∈ members', ∀ statement ∈ statements,
          member.position.before statement.position = true := by
        refine List.forall_mem_append.mpr ⟨fun member listed other below =>
          behind member listed other (List.mem_cons_of_mem _ below), ?_⟩
        exact List.forall_mem_singleton.mpr next
      have last : (members'.map (·.number)).getLast? = some number := by
        simp [members', numberedMember]
      have fresh : (∀ member ∈ members,
          member.position.before statement.position = true →
            member.name ≠ first.1) ↔
          ∀ member ∈ members, member.name ≠ first.1 :=
        forall₂_congr fun member listed =>
          ⟨fun free => free (behind member listed statement List.mem_cons_self),
            fun free _ => free⟩
      have reads {middle : Draft} := @read_member_iff draft middle kind statement
        members id rest first stack isNode increasing declares
      rw [readAll, Progress.andThen_eq_iff]
      simp only [reads, and_assoc, exists_and_left, exists_eq_left', fresh]
      have inner (admits : kind.numbering.Admits previous first.2) := by
        have increasing' : (members'.map (·.number)).Pairwise (· < ·) := by
          rw [List.map_append]
          exact Numbering.pairwise_concat increasing admits.follows
        exact @ih draft' members' ordered stack isNode' increasing' behind'
      rw [last, modifyConstruct_twice] at inner
      constructor
      · rintro ⟨free, admits, read⟩
        obtain ⟨⟨apart, nodup⟩, admitsFrom, same⟩ := (inner admits).mp read
        obtain ⟨others, own⟩ := List.forall_mem_append.mp apart
        refine ⟨fun member listed => ?_, List.nodup_cons.mpr
          ⟨own _ (List.mem_singleton_self _), nodup⟩, ⟨admits, admitsFrom⟩, ?_⟩
        · exact List.not_mem_cons_of_ne_of_not_mem (free member listed)
            (others member listed)
        · rw [← same, List.append_assoc]
          rfl
      · rintro ⟨apart, nodup, ⟨admits, admitsFrom⟩, same⟩
        obtain ⟨own, nodup⟩ := List.nodup_cons.mp nodup
        refine ⟨fun member listed =>
          List.ne_of_not_mem_cons (apart member listed), admits,
          (inner admits).mpr ⟨⟨?_, nodup⟩, admitsFrom, ?_⟩⟩
        · exact List.forall_mem_append.mpr
            ⟨fun member listed =>
                List.not_mem_of_not_mem_cons (apart member listed),
              List.forall_mem_singleton.mpr own⟩
        · rw [← same, List.append_assoc]
          rfl

section

variable {statements : List Statement} {declared : List (String × Option Int)}
  (declares : List.Forall₂ (Statement.DeclaresMember kind) statements declared)
include declares

theorem map_name_numberedMembers (previous : Option Int) :
    (numberedMembers previous statements declared).map (·.name) =
      declared.map (·.1) := by
  induction declares generalizing previous with
  | nil => rfl
  | cons _ _ ih => exact congrArg _ (ih _)

theorem map_number_numberedMembers (previous : Option Int) :
    (numberedMembers previous statements declared).map (·.number) =
      Numbering.numbersFrom previous (declared.map (·.2)) := by
  induction declares generalizing previous with
  | nil => rfl
  | cons _ _ ih => exact congrArg _ (ih _)

theorem areNumbered_numberedMembers
    (admits : kind.numbering.AdmitsFrom none (declared.map (·.2))) :
    Numbering.AreNumbered declared (numberedMembers none statements declared) :=
  Numbering.areNumbered_of_numbersFrom (map_name_numberedMembers declares none)
    (map_number_numberedMembers declares none)
    (map_number_numberedMembers declares none ▸ admits.increasing)

end

/-- The statement of a type declares members and nothing else. -/
structure DeclaresMembers (kind : MemberKind) (statement : Statement)
    (declared : List (String × Option Int)) : Prop where
  known : statement.known = .type
  argument : statement.argumentValue = some kind.builtin.name
  members : List.Forall₂ (Statement.DeclaresMember kind) statement.substatements
    declared

section

variable {declared : List (String × Option Int)}
  (declares : DeclaresMembers kind statement declared)
include declares

/-- A type has its members. -/
theorem findAll_type (keyword : Keyword) : statement.findAll keyword =
    if keyword = kind.keyword then statement.substatements else [] := by
  have among : ∀ part ∈ statement.substatements, part.known = kind.keyword := by
    intro part listed
    obtain ⟨index, within, rfl⟩ := List.getElem_of_mem listed
    exact (declares.members.get within
      (declares.members.length_eq ▸ within)).known
  split
  next same =>
    exact List.filter_eq_self.mpr fun part listed => by
      simp [among part listed, same]
  next other =>
    exact List.filter_eq_nil_iff.mpr fun part listed => by
      simpa [among part listed] using Ne.symm other

/-- A type may have members and nothing else. -/
theorem check_type : Cardinality.check statement = .ok () := by
  refine Cardinality.check_of_few declares.known (fun rule listed => ?_) ?_
  · have rules : ∀ rule ∈ Cardinality.allRules .type,
        rule.2 = .maxOne ∧ rule.1 ≠ kind.keyword := by cases kind <;> decide
    obtain ⟨maxOne, other⟩ := rules rule listed
    exact ⟨maxOne, by simp [findAll_type declares, other]⟩
  · have absent (family : List Keyword) (other : kind.keyword ∉ family) :
        family.find? statement.has = none := by
      refine List.find?_eq_none.mpr fun keyword listed => ?_
      have other : keyword ≠ kind.keyword := by
        rintro rfl
        exact other listed
      simp [Statement.has, Statement.count, findAll_type declares, other]
    cases kind <;>
      simp only [Cardinality.families, MemberKind.keyword, absent,
        List.filterMap_cons, List.filterMap_nil, List.mem_cons, List.not_mem_nil,
        reduceCtorEq, or_self, not_false_eq_true]
    · cases List.find? statement.has [.enum] <;> simp
    · cases List.find? statement.has [.bit] <;> simp

/-- An opened type has a node for its members, which are yet to be read. -/
theorem openType_eq_ok {holder : NodeId}
    (stack : draft.stack = .node holder :: rest)
    (holds : (draft.tree.kind? holder).any holdsType = true) :
    ∃ opened use, openType draft statement = .ok opened ∧
      opened.stack = .node draft.nextId :: .type use :: draft.stack ∧
      opened.tree.construct? draft.nextId = some (kind.construct []) ∧
      (∀ other < draft.nextId, opened.tree.kind? other = draft.tree.kind? other) ∧
      use.builtin = some kind.builtin ∧ use.range = none ∧ use.length = none := by
  have named : statement.nameArgument = .ok ⟨none, kind.builtin.name⟩ := by
    rw [Statement.nameArgument,
      Statement.readArgument_eq_ok_iff declares.argument]
    cases kind <;> decide
  have held : draft.nodeHolder statement holdsType = .ok holder := by
    simp [nodeHolder, stack, FrameStack.top, holds]
  let unread := TypeUse.ofName ⟨none, kind.builtin.name⟩ statement.position
    statement.headSpan
  have builtin : unread.builtin = some kind.builtin := by
    cases kind <;> rfl
  obtain ⟨ending, members⟩ : ∃ ending,
      membersOf unread = some (kind.construct [], ending) := by
    cases kind <;> exact ⟨_, rfl⟩
  let use := { unread with members := some draft.nextId }
  let name := membersName draft.tree holder ending
  let opened := (draft.push (.type use)).openNode statement holder
    (kind.construct []) name
  have opening : openType draft statement = .ok opened := by
    simp only [openType, named, check_type declares, held, bind_eq_ok_iff,
      Except.ok.injEq, exists_eq_left', Unique.exists_iff]
    simp only [unread] at members
    rw [members]
    exact ⟨trivial, rfl⟩
  have node? (other : NodeId) := SchemaTree.node?_addChild draft.tree holder
    (.ofConstruct (kind.construct []) name statement.position statement.headSpan)
    other
  refine ⟨opened, use, opening, rfl, ?_, fun other below => ?_, builtin, rfl, rfl⟩
  · exact SchemaTree.construct?_eq_some_iff.mpr
      ⟨_, (node? _).trans (if_pos rfl), rfl⟩
  · exact congrArg (Option.map _) ((node? _).trans (if_neg (Nat.ne_of_lt below)))

end

theorem placeType_of_holdsType {use : TypeUse} {construct : Construct}
    (holds : holdsType construct.kind = true) :
    ∃ placed, placeType use construct = some placed := by
  cases construct <;> first | exact ⟨_, rfl⟩ | exact absurd holds Bool.false_ne_true

/-- A type that has its members is placed into its holder and leaves them as they
are. -/
theorem closeType_eq_ok_of_members {use : TypeUse} {holder : NodeId}
    (stack : draft.stack = .node id :: .type use :: .node holder :: rest)
    (isNode : draft.tree.construct? id = some (kind.construct members))
    (builtin : use.builtin = some kind.builtin)
    (unbounded : use.range = none ∧ use.length = none)
    (holds : (draft.tree.kind? holder).any holdsType = true)
    (other : holder ≠ id)
    (required : Cardinality.checkOne statement (kind.keyword, .nonZero) = .ok ()) :
    ∃ after, closeType draft statement = .ok after ∧
      after.tree.construct? id = some (kind.construct members) := by
  obtain ⟨node, found, is⟩ := SchemaTree.construct?_eq_some_iff.mp isNode
  have anonymous : (draft.tree.kind? id).any ConstructKind.isAnonymousType =
      true := by
    simp only [SchemaTree.kind?, found, Option.map_some, Option.any_some,
      SchemaNode.kind, is]
    cases kind <;> rfl
  have closedMembers : draft.closeMembers statement =
      .ok { draft with stack := .type use :: .node holder :: rest } := by
    simp [closeMembers, stack, FrameStack.top, FrameStack.popNode, Frame.node?,
      anonymous]
  have checked : checkTypeBody statement use = .ok () := by
    rw [checkTypeBody_eq_ok_iff builtin, unbounded.1, unbounded.2]
    refine ⟨fun keyword needed => ?_, rfl, rfl⟩
    obtain rfl : kind.keyword = keyword := by
      cases kind <;> exact Option.some.inj needed
    exact required
  obtain ⟨_, known, holds⟩ := (Option.any_eq_true ..).mp holds
  obtain ⟨holding, foundHolder, rfl⟩ := Option.map_eq_some_iff.mp known
  obtain ⟨⟨construct, member⟩, placed⟩ : ∃ placed,
      placeType use holding.construct = some placed := placeType_of_holdsType holds
  have isHolder : draft.tree.construct? holder = some holding.construct :=
    SchemaTree.construct?_eq_some_iff.mpr ⟨holding, foundHolder, rfl⟩
  -- Only a derived type, a leafref or an identityref makes a reference.
  have silent (tree : SchemaTree) : typeReference? tree use ⟨holder, member⟩ =
      none := by
    simp only [typeReference?, builtin]
    cases kind <;> rfl
  refine ⟨({ draft with stack := .node holder :: rest } : Draft).modifyConstruct
    holder fun _ => construct, ?_, ?_⟩
  · simp [closeType, closedMembers, closeFrame, FrameStack.take, FrameStack.top,
      checked, isHolder, placed, silent]
  · refine SchemaTree.construct?_eq_some_iff.mpr ⟨node, ?_, is⟩
    exact (SchemaTree.node?_modifyConstruct ..).trans ((if_neg other).trans found)

/-- A type that declares members has some. -/
theorem checkOne_members {declared : List (String × Option Int)}
    (declares : DeclaresMembers kind statement declared)
    (inhabited : declared ≠ []) :
    Cardinality.checkOne statement (kind.keyword, .nonZero) = .ok () := by
  obtain ⟨first, others, rfl⟩ := List.exists_cons_of_ne_nil inhabited
  obtain ⟨part, parts, -, -, is⟩ := List.forall₂_cons_right_iff.mp declares.members
  simp [Cardinality.checkOne, findAll_type declares, is]

section

variable {holder : NodeId} {declared : List (String × Option Int)}
  (stack : draft.stack = .node holder :: rest)
  (holds : (draft.tree.kind? holder).any holdsType = true)
  (ordered : Statement.AreOrdered statement.substatements)
  (declares : DeclaresMembers kind statement declared) (inhabited : declared ≠ [])
include stack holds ordered declares inhabited

/-- There is one draft that reading a type can end with. -/
theorem read_type_iff : ∃ closed,
    closed.tree.construct? draft.nextId = some
      (kind.construct (numberedMembers none statement.substatements declared)) ∧
    ∀ {after}, read draft statement = ⟨after, none⟩ ↔
      ((declared.map (·.1)).Nodup ∧
        kind.numbering.AdmitsFrom none (declared.map (·.2))) ∧ closed = after := by
  obtain ⟨opened, use, opening, stack', isNode, others, builtin, unbounded⟩ :=
    openType_eq_ok declares stack holds
  have below : holder < draft.nextId := by
    obtain ⟨own, known, -⟩ := (Option.any_eq_true ..).mp holds
    exact SchemaTree.lt_size_of_kind? known
  let numbered := numberedMembers none statement.substatements declared
  let filled := opened.modifyConstruct draft.nextId fun _ => kind.construct numbered
  have reads {middle : Draft} :
      readAll opened statement.substatements = ⟨middle, none⟩ ↔
        (declared.map (·.1)).Nodup ∧
          kind.numbering.AdmitsFrom none (declared.map (·.2)) ∧
          filled = middle := by
    simpa using @readAll_members_iff opened middle kind [] draft.nextId _ _ _
      declares.members ordered.siblings stack' isNode .nil (List.forall_mem_nil _)
  have holds' : (filled.tree.kind? holder).any holdsType = true := by
    have apart := SchemaTree.node?_modifyConstruct opened.tree draft.nextId
      (fun _ => kind.construct numbered) holder
    rw [if_neg (Nat.ne_of_gt below)] at apart
    have known : filled.tree.kind? holder = draft.tree.kind? holder :=
      (congrArg (Option.map _) apart).trans (others holder below)
    rwa [known]
  have stack'' : filled.stack =
      .node draft.nextId :: .type use :: .node holder :: rest :=
    stack'.trans (by rw [stack])
  obtain ⟨closed, closing, kept⟩ := closeType_eq_ok_of_members stack''
    (construct?_modifyConstruct_of isNode) builtin unbounded holds'
    (Nat.ne_of_lt below) (checkOne_members declares inhabited)
  have isBlock : role statement.known = .block openType closeType := by
    rw [declares.known]
    rfl
  refine ⟨closed, kept, ?_⟩
  intro after
  rw [read_eq, isBlock]
  simp only [opening, Progress.andThen_eq_iff, Progress.ofStep_eq_iff,
    Except.ok.injEq, exists_eq_left', reads, and_assoc, exists_and_left]
  rw [closing, Except.ok.injEq]

/-- A type is read exactly if its members have different names, each number that is
declared is within the limits of the type and exceeds those in front of it, and the
greatest number of the type is followed by no member without one.  Then its members
are numbered in the order in which they are written.  The statements of a text are
always in order (`areOrdered_of_parse`). -/
theorem members_are_numbered :
    ((read draft statement).error = none ↔
      (declared.map (·.1)).Nodup ∧
        Numbering.Accepts kind.least kind.greatest (declared.map (·.2))) ∧
    ((read draft statement).error = none → ∃ members,
      (read draft statement).draft.tree.construct? draft.nextId =
        some (kind.construct members) ∧
      Numbering.AreNumbered declared members) := by
  obtain ⟨closed, kept, result⟩ :=
    read_type_iff stack holds ordered declares inhabited
  have succeeds : (read draft statement).error = none ↔
      read draft statement = ⟨(read draft statement).draft, none⟩ := by
    cases read draft statement
    simp
  rw [← kind.admitsFrom_iff, succeeds, result]
  refine ⟨and_iff_left_of_imp fun accepts => ?_, fun ⟨accepts, is⟩ => ?_⟩
  · rw [result.mpr ⟨accepts, rfl⟩]
  · exact ⟨_, is ▸ kept, areNumbered_numberedMembers declares.members accepts.2⟩

end

/-- The values of the type of a leaf, one of which is declared. -/
theorem members_are_numbered_green :
    ∃ parsed statement, parse .none 0
        ("type enumeration \x7b enum red; enum green \x7b value 5; \x7d " ++
          "enum blue; \x7d") = .ok parsed ∧
      Statement.ofTree parsed.tree = [statement] ∧
      let leaf : SchemaNode := .ofConstruct
        (.leaf ⟨none, none, none, false, ⟨true, false⟩⟩) "color"
        statement.position statement.headSpan
      let draft : Draft := { Draft.empty 0 with
        tree := (SchemaTree.empty 0).addRoot leaf, stack := [.node 0] }
      (read draft statement).error = none ∧
      ∃ members, (read draft statement).draft.tree.construct? draft.nextId =
          some (.enumeration members) ∧
        Numbering.AreNumbered [("red", none), ("green", some 5), ("blue", none)]
          members := by
  generalize written : (_ ++ _ : String) = text
  have checked : (parse .none 0 text).toOption.any (fun parsed =>
      (Statement.ofTree parsed.tree).map (fun type =>
        (type.known, type.argumentValue, type.substatements.map fun member =>
          (member.known, member.argumentValue, member.substatements.map
            fun part => (part.known, part.argumentValue,
              part.substatements.isEmpty)))) ==
      [(.type, some "enumeration", [(.enum, some "red", []),
        (.enum, some "green", [(.value, some "5", true)]),
        (.enum, some "blue", [])])]) = true := by
    subst written
    decide +kernel
  cases parsing : parse .none 0 text with
  | error error => simp [parsing, Except.toOption] at checked
  | ok parsed =>
      simp only [parsing, Except.toOption, Option.any_some, beq_iff_eq,
        List.map_eq_cons_iff, List.map_eq_nil_iff, Prod.mk.injEq] at checked
      obtain ⟨statement, _, isWritten, ⟨known, argument, red, _, here, isRed,
        green, _, rfl, ⟨knownGreen, namedGreen, five, _, inside, isFive, rfl⟩,
        blue, _, rfl, isBlue, rfl⟩, rfl⟩ := checked
      have declares : DeclaresMembers .enum statement
          [("red", none), ("green", some 5), ("blue", none)] := by
        refine ⟨known, argument, here ▸ .cons ?_ (.cons ?_ (.cons ?_ .nil))⟩
        · exact ⟨isRed.1, isRed.2.1, by decide, isRed.2.2 ▸ .nil⟩
        · refine ⟨knownGreen, namedGreen, by decide, inside ▸ .cons ?_ .nil⟩
          exact ⟨isFive.1, ⟨_, isFive.2.1, .natural (by decide)⟩,
            List.isEmpty_iff.mp isFive.2.2⟩
        · exact ⟨isBlue.1, isBlue.2.1, by decide, isBlue.2.2 ▸ .nil⟩
      have ordered := areOrdered_of_parse parsing
      rw [isWritten] at ordered
      obtain ⟨reads, numbered⟩ := @members_are_numbered
        { Draft.empty 0 with
          tree := (SchemaTree.empty 0).addRoot <| .ofConstruct
            (.leaf ⟨none, none, none, false, ⟨true, false⟩⟩) "color"
            statement.position statement.headSpan
          stack := [.node 0] }
        .enum statement [] 0 _ rfl rfl (ordered.inside List.mem_cons_self) declares
        (List.cons_ne_nil _ _)
      have whole := reads.mpr (by decide)
      obtain ⟨members, stored, numbered⟩ := numbered whole
      exact ⟨parsed, statement, rfl, isWritten, whole, members, stored, numbered⟩

/-- No bit has a position behind the greatest one. -/
example : ¬ Numbering.Accepts MemberKind.bit.least MemberKind.bit.greatest
    [none, some 4294967295, none] := by
  decide

end Draft

end YangSchema
