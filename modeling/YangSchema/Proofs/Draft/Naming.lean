import YangSchema.Proofs.Draft.Introductions

/-!
# Names that are taken

A statement introduces a name in some category, which depends on the kind of the
node that it stands in.  The name is taken if an earlier child or member of that
node has it in the same category, and that is what is checked before a statement
is opened.
-/

namespace YangSchema

namespace NameCategory

variable {tree : SchemaTree} {holder : NodeId} {statement : Statement}
  {position : Position} {name : String} {category : NameCategory}

/-- An earlier child or member of a node has a name in some category. -/
inductive IsTaken (tree : SchemaTree) (holder : NodeId) (position : Position)
    (name : String) : NameCategory → Prop
  | child {child : NodeId} {node : SchemaNode} {kind : ConstructKind}
      {category : NameCategory}
      (listed : child ∈ tree.children holder)
      (found : tree.node? child = some node)
      (within : tree.kind? holder = some kind)
      (own : of? node.kind kind = some category) (named : node.name = name)
      (earlier : node.position.before position = true) :
      IsTaken tree holder position name category
  | enumMember {members : List NumberedMember} {member : NumberedMember}
      (within : tree.construct? holder = some (.enumeration members))
      (listed : member ∈ members) (named : member.name = name)
      (earlier : member.position.before position = true) :
      IsTaken tree holder position name .enumMember
  | bitMember {members : List NumberedMember} {member : NumberedMember}
      (within : tree.construct? holder = some (.bits members))
      (listed : member ∈ members) (named : member.name = name)
      (earlier : member.position.before position = true) :
      IsTaken tree holder position name .bitMember

theorem of?_ne_member (kind parent : ConstructKind) :
    of? kind parent ≠ some enumMember ∧ of? kind parent ≠ some bitMember := by
  cases kind <;> simp [of?] <;> split <;> simp

theorem earlierMember?_isSome_iff {members : List NumberedMember} :
    (earlierMember? members position name).isSome = true ↔
      ∃ member ∈ members, member.name = name ∧
        member.position.before position = true := by
  simp [earlierMember?]

theorem earlierChild?_isSome_iff {kind : ConstructKind} :
    (earlierChild? tree holder kind position name category).isSome = true ↔
      ∃ child ∈ tree.children holder, ∃ node, tree.node? child = some node ∧
        node.name = name ∧ node.position.before position = true ∧
          of? node.kind kind = some category := by
  simp only [earlierChild?, List.findSome?_isSome_iff]
  refine exists_congr fun child => and_congr_right fun _ => ?_
  cases tree.node? child <;> simp

theorem kind?_of_construct? {construct : Construct}
    (within : tree.construct? holder = some construct) :
    tree.kind? holder = some construct.kind := by
  obtain ⟨node, found, rfl⟩ := SchemaTree.construct?_eq_some_iff.mp within
  simp [SchemaTree.kind?, found, SchemaNode.kind]

theorem earlier?_isSome_iff :
    (earlier? tree holder position name category).isSome = true ↔
      IsTaken tree holder position name category := by
  unfold earlier?
  split
  next members within =>
    rw [earlierMember?_isSome_iff]
    constructor
    · rintro ⟨member, listed, named, earlier⟩
      exact .enumMember within listed named earlier
    · rintro taken
      cases taken with
      | child _ _ _ own => exact absurd own (of?_ne_member _ _).1
      | enumMember within' listed named earlier =>
          obtain rfl : members = _ := by simpa using within.symm.trans within'
          exact ⟨_, listed, named, earlier⟩
  next members within =>
    rw [earlierMember?_isSome_iff]
    constructor
    · rintro ⟨member, listed, named, earlier⟩
      exact .bitMember within listed named earlier
    · rintro taken
      cases taken with
      | child _ _ _ own => exact absurd own (of?_ne_member _ _).2
      | bitMember within' listed named earlier =>
          obtain rfl : members = _ := by simpa using within.symm.trans within'
          exact ⟨_, listed, named, earlier⟩
  next construct noEnum noBit within =>
    rw [earlierChild?_isSome_iff]
    have isKind := kind?_of_construct? within
    constructor
    · rintro ⟨child, listed, node, found, named, earlier, own⟩
      exact .child listed found isKind own named earlier
    · rintro taken
      cases taken with
      | child listed found within' own named earlier =>
          obtain rfl := Option.some.inj (isKind.symm.trans within')
          exact ⟨_, listed, _, found, named, earlier, own⟩
      | enumMember within' =>
          have same := Option.some.inj (within.symm.trans within')
          exact (noEnum _ rfl same).elim
      | bitMember within' =>
          have same := Option.some.inj (within.symm.trans within')
          exact (noBit _ rfl same).elim
  next absent =>
    simp only [Option.isSome_none, Bool.false_eq_true, false_iff]
    rintro taken
    cases taken with
    | child _ _ within =>
        obtain ⟨node, found, -⟩ := Option.map_eq_some_iff.mp within
        simp [SchemaTree.construct?, found] at absent
    | enumMember within => simp [within] at absent
    | bitMember within => simp [within] at absent

theorem checkFresh_eq_ok_iff :
    checkFresh tree holder statement name category = .ok () ↔
      ¬ IsTaken tree holder statement.position name category := by
  rw [← earlier?_isSome_iff]
  unfold checkFresh
  split
  next free => simp [free]
  next taken =>
    dsimp only
    split <;> simp [taken]

/-- The error about a name that is taken names the statement which repeats
it. -/
theorem checkFresh_eq_error {error : StatementError}
    (refused : checkFresh tree holder statement name category = .error error) :
    IsTaken tree holder statement.position name category ∧
      ∃ related, error =
        { StatementError.of .duplicateIdentifier statement .entry name with
          related } := by
  rw [← earlier?_isSome_iff]
  unfold checkFresh at refused
  split at refused
  · simp at refused
  next taken =>
    refine ⟨by simp [taken], ?_⟩
    dsimp only at refused
    split at refused
    all_goals
      obtain rfl := Except.error.inj refused
      exact ⟨_, rfl⟩

end NameCategory

/-- The category of the name that a statement introduces inside a node of some
kind. -/
def Keyword.category? (keyword : Keyword) (holder : ConstructKind) :
    Option NameCategory :=
  match keyword with
  | .enum => some .enumMember
  | .bit => some .bitMember
  | _ => keyword.introduces?.bind (NameCategory.of? · holder)

/-- A statement introduces a name of some category inside a node of some
kind. -/
structure Statement.Names (statement : Statement) (holder : ConstructKind)
    (category : NameCategory) (name : String) : Prop where
  category : statement.known.category? holder = some category
  argument : statement.argumentValue = some name

end YangSchema
