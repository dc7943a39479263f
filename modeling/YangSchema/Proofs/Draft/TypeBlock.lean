import YangSchema.Proofs.Draft.Closing
import YangSchema.Proofs.Draft.Opening

/-!
# The block of a type

When a `type` statement ends, its type is complete: the sub-statement that its
built-in type requires has been read into the frame of the type.  Placing it
into its holder leaves a gap for the one reference that the type makes, and that
reference is queued with it.
-/

namespace YangSchema

variable {use : TypeUse} {statement : Statement} {keyword : Keyword}

theorem Cardinality.exists_of_nonZero
    (checked : checkOne statement (keyword, .nonZero) = .ok ()) :
    ∃ part ∈ statement.substatements, part.known = keyword := by
  cases found : statement.findAll keyword with
  | nil => simp [checkOne, found] at checked
  | cons part rest =>
      have member : part ∈ statement.findAll keyword := by simp [found]
      obtain ⟨member, known⟩ := List.mem_filter.mp member
      exact ⟨part, member, by simpa using known⟩

/-- A statement that passes its check repeats no sub-statement that it may have
once. -/
theorem Cardinality.count_le_one (checked : check statement = .ok ())
    (bounded : (keyword, .one) ∈ allRules statement.known ∨
      (keyword, .maxOne) ∈ allRules statement.known) :
    (statement.substatements.map (·.known)).count keyword ≤ 1 := by
  simp only [check, bind_eq_ok_iff] at checked
  obtain ⟨_, passed, -⟩ := checked
  have listed : (statement.substatements.map (·.known)).count keyword =
      (statement.findAll keyword).length := by
    rw [List.count_eq_countP, List.countP_map, List.countP_eq_length_filter]
    rfl
  rw [listed]
  obtain bounded | bounded := bounded
  all_goals
    have single := eq_ok_of_forM passed bounded
    cases found : statement.findAll keyword with
    | nil => exact Nat.zero_le 1
    | cons _ rest =>
        cases rest with
        | nil => exact Nat.le_refl 1
        | cons _ _ => simp [checkOne, found] at single

/-- What a construct looks like after a type has been placed into it. -/
theorem Draft.placeType_eq_some {construct construct' : Construct}
    {member : Option Nat}
    (placed : placeType use construct = some (construct', member)) :
    construct'.kind = construct.kind ∧
      construct'.missingTarget? = construct.missingTarget? ∧
      construct'.target? = construct.target? ∧
      construct'.bindings = construct.bindings ∧
      ∀ slot, construct'.typeAt? slot =
        if slot = member then some use else construct.typeAt? slot := by
  cases construct with
  | leaf body | leafList body | typedef body =>
      simp only [placeType, Option.some.injEq, Prod.mk.injEq] at placed
      obtain ⟨rfl, rfl⟩ := placed
      exact ⟨rfl, rfl, rfl, rfl, fun slot => by cases slot <;> rfl⟩
  | union members =>
      simp only [placeType, Option.some.injEq, Prod.mk.injEq] at placed
      obtain ⟨rfl, rfl⟩ := placed
      refine ⟨rfl, rfl, rfl, rfl, fun slot => ?_⟩
      cases slot with
      | none => rfl
      | some index =>
          simp only [Construct.typeAt?, Option.some.injEq]
          split
          next last => simp [last]
          next other =>
            grind
  | _ => simp [placeType] at placed

/-- A type is placed as the one of its holder or as a new member. -/
theorem Draft.placeType_member {construct construct' : Construct}
    {member : Option Nat}
    (placed : placeType use construct = some (construct', member)) :
    member = none ∧ construct.kind.asking? = some .type ∨
      ∃ index, member = some index ∧ construct.typeAt? member = none := by
  cases construct with
  | leaf body | leafList body | typedef body =>
      simp only [placeType, Option.some.injEq, Prod.mk.injEq] at placed
      exact .inl ⟨placed.2.symm, rfl⟩
  | union members =>
      simp only [placeType, Option.some.injEq, Prod.mk.injEq] at placed
      obtain ⟨-, rfl⟩ := placed
      exact .inr ⟨_, rfl, by simp [Construct.typeAt?]⟩
  | _ => simp [placeType] at placed

/-- The one gap that a complete type has before it is linked is that of the
reference which it makes. -/
theorem TypeUse.IsComplete.typeReference {tree : SchemaTree}
    (complete : use.IsComplete) (unlinked : use.links = .none)
    {slot : TypeSlot} {kind : ReferenceKind}
    (gap : use.HasGap slot (tree.IsInGrouping slot.node) kind) :
    ∃ text, Draft.typeReference? tree use slot = some (kind, text) := by
  have known : use.effectiveBuiltin? = use.builtin := by
    simp [effectiveBuiltin?, unlinked, TypeLinks.none]
  cases gap with
  | typedef derived => exact ⟨_, by simp [Draft.typeReference?, derived]; rfl⟩
  | identity based =>
      rw [known] at based
      obtain ⟨base, declared⟩ := Option.isSome_iff_exists.mp <|
        complete.required _ based _ rfl
      exact ⟨_, by simp [Draft.typeReference?, based, declared]; rfl⟩
  | leafref refers outside =>
      rw [known] at refers
      obtain ⟨path, declared⟩ := Option.isSome_iff_exists.mp <|
        complete.required _ refers _ rfl
      rw [← SchemaTree.isWithin_grouping_iff] at outside
      exact ⟨path, by simp [Draft.typeReference?, refers, declared, outside]⟩

namespace Draft

variable {draft before inner opened after : Draft}

theorem isTemplate_iff {id : NodeId} :
    draft.isTemplate id = true ↔ draft.tree.IsTemplate id := by
  simp [isTemplate, SchemaTree.IsTemplate, SchemaTree.isKind]

/-- The draft into which a type has been placed, with the reference that the type
makes:  none if it is part of a typedef. -/
def queueType (placed : Draft) (statement : Statement) (use : TypeUse)
    (slot : TypeSlot) : Draft :=
  if placed.isTemplate slot.node then placed
  else
    match typeReference? placed.tree use slot with
    | some (kind, text) => placed.enqueue statement kind text slot.node
    | none => placed

theorem queueType_cases (placed : Draft) (statement : Statement) (use : TypeUse)
    (slot : TypeSlot) :
    placed.queueType statement use slot = placed ∨
      ∃ kind text, typeReference? placed.tree use slot = some (kind, text) ∧
        placed.queueType statement use slot =
          placed.enqueue statement kind text slot.node := by
  unfold queueType
  split
  · exact .inl rfl
  · split
    next refers => exact .inr ⟨_, _, refers, rfl⟩
    · exact .inl rfl

@[simp]
theorem queueType_tree (placed : Draft) (statement : Statement) (use : TypeUse)
    (slot : TypeSlot) :
    (placed.queueType statement use slot).tree = placed.tree := by
  obtain quiet | ⟨_, _, -, asks⟩ := placed.queueType_cases statement use slot
  · rw [quiet]
  · rw [asks]
    rfl

@[simp]
theorem queueType_stack (placed : Draft) (statement : Statement) (use : TypeUse)
    (slot : TypeSlot) :
    (placed.queueType statement use slot).stack = placed.stack := by
  obtain quiet | ⟨_, _, -, asks⟩ := placed.queueType_cases statement use slot
  · rw [quiet]
  · rw [asks]
    rfl

/-- Placing a complete type keeps a draft sound if a reference is queued for
each gap that the type brings in. -/
theorem IsSound.placeType (sound : draft.IsSound) (complete : use.IsComplete)
    {holder : NodeId} {construct construct' : Construct} {member : Option Nat}
    (found : draft.tree.construct? holder = some construct)
    (placed : placeType use construct = some (construct', member))
    (added : ReferenceQueue) {tree : SchemaTree}
    (same : tree = draft.tree.modifyConstruct holder fun _ => construct')
    (queued : ¬ tree.IsTemplate holder → ∀ kind,
      use.HasGap ⟨holder, member⟩ (tree.IsInGrouping holder) kind →
        added.Awaits kind holder)
    (unblocked : ∀ item ∈ added, item.state ≠ .blocked) :
    IsSound { draft with tree, queue := draft.queue ++ added } := by
  subst same
  obtain ⟨kind, missingTarget, -, bindings, typeAt⟩ := placeType_eq_some placed
  obtain ⟨node, known, rfl⟩ := SchemaTree.construct?_eq_some_iff.mp found
  have sameKind : ∀ other, draft.tree.construct? holder = some other →
      construct'.kind = other.kind := by
    intro other is
    obtain rfl : node.construct = other := by simpa [found] using is
    exact kind
  have keeps : draft.tree.Keeps
      (draft.tree.modifyConstruct holder fun _ => construct') :=
    .modifyConstruct sameKind
  refine ⟨?_, ?_, sound.frames,
    List.forall_mem_append.mpr ⟨sound.unblocked, unblocked⟩,
    sound.nested.modifyConstruct sameKind, ?_, sound.warned⟩
  · intro id reference gap
    obtain old | ⟨rfl, _, _, gap⟩ :=
      SchemaTree.hasGap_modifyConstruct sameKind gap
    · exact (sound.accounts old).append_left added
    cases gap with
    | target missing =>
        rw [missingTarget] at missing
        exact (sound.accounts (.construct known (.target missing))).append_left
          added
    | @type slot other _ declared outside gap =>
        rw [typeAt] at declared
        split at declared
        next is =>
          subst is
          obtain rfl : use = other := by simpa using declared
          exact (queued outside _ gap).append_right draft.queue
        · have old : draft.tree.HasGap id reference := .construct known <|
            (Construct.HasGap.type declared outside gap).mono
              (keeps.isTemplate known) (keeps.isInGrouping known)
          exact (sound.accounts old).append_left added
  · refine SchemaTree.forall_node_modifyConstruct sound.nodes ?_
    intro other is
    obtain rfl : node = other := by simpa [known] using is
    have fresh := sound.nodes known
    refine ⟨⟨fun typedef => fresh.sound.typedef (kind.symm.trans typedef), ?_⟩,
      by rw [bindings]; exact fresh.unbound⟩
    intro slot other declared
    rw [typeAt] at declared
    split at declared
    · obtain rfl : use = other := by simpa using declared
      exact complete
    · exact fresh.sound.types declared
  · intro id member
    rw [SchemaTree.size_modifyConstruct]
    exact sound.known id member

theorem closeMembers_eq_ok
    (closed : draft.closeMembers statement = .ok after) :
    after = draft ∨ ∃ id rest, draft.stack = .node id :: rest ∧
      after = { draft with stack := rest } := by
  simp only [closeMembers, bind_eq_ok_iff] at closed
  obtain ⟨top, _, closed⟩ := closed
  split at closed
  · split at closed
    · simp only [bind_eq_ok_iff, pure_eq_ok_iff] at closed
      obtain ⟨rest, popped, rfl⟩ := closed
      exact .inr ⟨_, rest, popNode_eq_ok popped, rfl⟩
    · exact .inl (pure_eq_ok_iff.mp closed).symm
  · exact .inl (pure_eq_ok_iff.mp closed).symm

/-- The frames of a type and of its members are taken off, and the type moves
into the node below them. -/
theorem closeType_eq_ok {above below : List Frame}
    (stack : inner.stack = above ++ .type use :: below)
    (members : above = [] ∨ ∃ id, above = [.node id])
    (ok : closeType inner statement = .ok after) :
    checkTypeBody statement use = .ok () ∧
    ∃ holder construct construct' member,
      below.head? = some (.node holder) ∧
      inner.tree.construct? holder = some construct ∧
      placeType use construct = some (construct', member) ∧
      after = (modifyConstruct { inner with stack := below } holder
        fun _ => construct').queueType statement use ⟨holder, member⟩ := by
  simp only [closeType, bind_eq_ok_iff] at ok
  obtain ⟨popped, closedMembers, ⟨use', rest⟩, closed, _, checked, ok⟩ := ok
  obtain ⟨top, rest', stack', content, rfl⟩ := closeFrame_eq_ok closed
  split at content
  next use'' =>
    obtain rfl : use'' = use' := by simpa using content
    have taken : use'' = use ∧ { popped with stack := rest' } =
        { inner with stack := below } := by
      obtain rfl | ⟨id, rest, stack'', rfl⟩ := closeMembers_eq_ok closedMembers
      · obtain rfl | ⟨id, rfl⟩ := members <;> simp_all
      · obtain rfl | ⟨id, rfl⟩ := members <;> simp_all
    obtain ⟨rfl, same⟩ := taken
    refine ⟨checked, ?_⟩
    rw [same] at ok
    dsimp only at ok ⊢
    obtain ⟨top, isTop, ok⟩ := ok
    split at ok
    next holder =>
      have open' : below.head? = some (.node holder) := by
        cases below with
        | nil => simp [FrameStack.top] at isTop
        | cons frame rest => simp_all [FrameStack.top]
      split at ok
      · simp at ok
      next construct' member placed =>
        obtain ⟨construct, found, placed⟩ := Option.bind_eq_some_iff.mp placed
        refine ⟨holder, construct, construct', member, open', found, placed, ?_⟩
        unfold queueType
        split at ok
        next template =>
          rw [if_pos template]
          exact (pure_eq_ok_iff.mp ok).symm
        next outside =>
          rw [if_neg outside]
          split at ok
          all_goals
            obtain rfl := pure_eq_ok_iff.mp ok
            simp_all
    · simp at ok
  · simp at content

/-- The type that moves into its holder queues the reference that it makes,
unless it is part of a typedef. -/
theorem placed_isSound (sound : draft.IsSound) (complete : use.IsComplete)
    (unlinked : use.links = .none) {holder : NodeId}
    {construct construct' : Construct} {member : Option Nat}
    (found : draft.tree.construct? holder = some construct)
    (placed : placeType use construct = some (construct', member))
    {result : Draft} (same : result = draft.modifyConstruct holder fun _ =>
      construct') :
    (result.queueType statement use ⟨holder, member⟩).IsSound := by
  have placing (added : ReferenceQueue) :=
    sound.placeType complete found placed added rfl
  subst same
  unfold queueType
  split
  next template =>
    rw [isTemplate_iff] at template
    have sound := placing [] (fun outside => absurd template outside) (by simp)
    rwa [List.append_nil] at sound
  next outside =>
    split
    next kind text refers =>
      refine placing _ (fun _ kind' gap => ?_) (by simp [Reference.ofText])
      obtain ⟨text', refers'⟩ := complete.typeReference unlinked gap
      obtain ⟨rfl, rfl⟩ : kind = kind' ∧ text = text' := by
        simpa using refers.symm.trans refers'
      have awaits := ReferenceQueue.awaits_ofText kind text holder
        statement.position statement.headSpan
      cases gap <;> exact awaits
    next refers =>
      have sound := placing [] (fun _ kind gap => by
        obtain ⟨text, refers'⟩ := complete.typeReference unlinked gap
        exact absurd (refers.symm.trans refers') (by simp)) (by simp)
      rwa [List.append_nil] at sound

/-- A type that moves into its holder takes the node for its members along. -/
theorem IsUnlinked.placeType {below : FrameStack}
    (unlinked : IsUnlinked { draft with stack := .type use :: below })
    (fresh : use.links = .none) {holder : NodeId}
    {construct construct' : Construct} {member : Option Nat}
    (held : .node holder ∈ below)
    (found : draft.tree.construct? holder = some construct)
    (placed : Draft.placeType use construct = some (construct', member)) :
    (Draft.modifyConstruct { draft with stack := below } holder
      fun _ => construct').IsUnlinked := by
  obtain ⟨-, -, target, -, typeAt⟩ := placeType_eq_some placed
  obtain ⟨node, known, rfl⟩ := SchemaTree.construct?_eq_some_iff.mp found
  have before := unlinked.nodes known
  have size : (draft.tree.modifyConstruct holder fun _ => construct').size =
      draft.tree.size := SchemaTree.size_modifyConstruct ..
  have types (slot : TypeSlot) :
      (draft.tree.modifyConstruct holder fun _ => construct').typeAt? slot =
        if slot = ⟨holder, member⟩ then some use
        else draft.tree.typeAt? slot := by
    obtain ⟨id, index⟩ := slot
    rw [SchemaTree.typeAt?_eq, SchemaTree.typeAt?_eq, SchemaTree.construct?,
      SchemaTree.construct?, SchemaTree.node?_modifyConstruct]
    by_cases same : holder = id
    · subst same
      simp [known, typeAt]
    · simp [same, Ne.symm same]
  -- Only the slot that is filled names a node that it did not name before.
  have holds {slot : TypeSlot} {id : NodeId}
      (holds : SchemaTree.HoldsMembers
        (draft.tree.modifyConstruct holder fun _ => construct') slot id) :
      slot = ⟨holder, member⟩ ∧ use.members = some id ∨
        draft.tree.HoldsMembers slot id := by
    obtain ⟨other, declared, members⟩ := holds
    rw [types] at declared
    split at declared
    next same =>
      obtain rfl := Option.some.inj declared
      exact .inl ⟨same, members⟩
    · exact .inr ⟨other, declared, members⟩
  have above := (List.pairwise_cons.mp unlinked.fits.ordered).1
  have inside := unlinked.fits.inside (.type use) List.mem_cons_self
  have free := unlinked.fits.free (.type use) List.mem_cons_self
  have below' := unlinked.fits.of_cons
  constructor
  · refine SchemaTree.forall_node_modifyConstruct unlinked.nodes ?_
    intro other is
    obtain rfl : node = other := Option.some.inj (known.symm.trans is)
    refine ⟨target.trans before.target, fun {slot other} declared => ?_,
      before.features⟩
    rw [typeAt] at declared
    split at declared
    · obtain rfl := Option.some.inj declared
      exact fresh
    · exact before.types declared
  · exact fun item queued =>
      (unlinked.queued item queued).of_size (Nat.le_of_eq size.symm)
  · intro item queued
    refine (unlinked.placed item queued).mono (fun slot declared => ?_)
      (fun _ _ => SchemaTree.featureAt?_isSome_modifyConstruct)
      (Nat.le_of_eq size.symm)
    change Option.isSome (SchemaTree.typeAt? (draft.tree.modifyConstruct
      holder fun _ => construct') slot)
    rw [types]
    split
    · rfl
    · exact declared
  · exact unlinked.apart
  · constructor
    · intro slot id held'
      obtain ⟨rfl, members⟩ | old := holds held'
      · exact (above _ held id members).2 holder rfl
      · exact unlinked.members.later old
    · intro slot id held'
      refine Nat.lt_of_lt_of_eq ?_ size.symm
      obtain ⟨rfl, members⟩ | old := holds held'
      · exact inside id members
      · exact unlinked.members.inside old
    · intro slot slot' id held' held''
      obtain ⟨rfl, members⟩ | old := holds held' <;>
        obtain ⟨rfl, members'⟩ | old' := holds held''
      · rfl
      · exact absurd old' (free id members slot')
      · exact absurd old (free id members' slot)
      · exact unlinked.members.single old old'
  · constructor
    · intro frame listed id members
      exact Nat.lt_of_lt_of_eq (below'.inside frame listed id members) size.symm
    · intro frame listed id members slot held'
      obtain ⟨rfl, members'⟩ | old := holds held'
      · exact (above frame listed id members').1 members
      · exact below'.free frame listed id members slot old
    · exact below'.ordered
  · exact fun id listed =>
      Nat.lt_of_lt_of_eq (unlinked.deferred id listed) size.symm

/-- The reference of a type is one of its own slot. -/
theorem typeReference?_eq_some {tree : SchemaTree} {slot : TypeSlot}
    {kind : ReferenceKind} {text : String}
    (refers : typeReference? tree use slot = some (kind, text))
    (consumer : NodeId) : kind.linkPlace consumer = .type slot := by
  unfold typeReference? at refers
  split at refers
  · simp only [Option.some.injEq, Prod.mk.injEq] at refers
    obtain ⟨rfl, -⟩ := refers
    rfl
  · split at refers
    · split at refers
      · simp at refers
      · simp only [Option.some.injEq, Prod.mk.injEq] at refers
        obtain ⟨rfl, -⟩ := refers
        rfl
    · simp at refers
  · simp only [Option.map_eq_some_iff, Prod.mk.injEq] at refers
    obtain ⟨base, -, rfl, -⟩ := refers
    rfl
  · simp at refers

theorem placed_isUnlinked {below : FrameStack}
    (unlinked : IsUnlinked { draft with stack := .type use :: below })
    (fresh : use.links = .none) {holder : NodeId}
    {construct construct' : Construct} {member : Option Nat}
    (held : .node holder ∈ below)
    (found : draft.tree.construct? holder = some construct)
    (placed : Draft.placeType use construct = some (construct', member))
    {result : Draft} (same : result =
      modifyConstruct { draft with stack := below } holder fun _ => construct') :
    (result.queueType statement use ⟨holder, member⟩).IsUnlinked := by
  have whole : result.IsUnlinked :=
    same ▸ unlinked.placeType fresh held found placed
  obtain ⟨node, known, rfl⟩ := SchemaTree.construct?_eq_some_iff.mp found
  have inside : holder < result.tree.size := by
    rw [same]
    exact Nat.lt_of_lt_of_eq (SchemaTree.lt_size_of_node? known)
      (SchemaTree.size_modifyConstruct ..).symm
  obtain quiet | ⟨kind, text, refers, asks⟩ :=
    result.queueType_cases statement use ⟨holder, member⟩
  · rwa [quiet]
  rw [asks]
  have place := typeReference?_eq_some refers holder
  refine whole.enqueue statement text inside (place ▸ inside) ?_ ?_
  · rw [place]
    obtain ⟨rfl, -⟩ | ⟨index, rfl, -⟩ := placeType_member placed
    · exact inside
    · have typeAt := (placeType_eq_some placed).2.2.2.2 (some index)
      simp [same, SchemaTree.HasPlace, SchemaTree.typeAt?_eq,
        SchemaTree.construct?, modifyConstruct,
        SchemaTree.node?_modifyConstruct, known, typeAt]
  · intro unique
    have absent : ¬ draft.tree.HasPlace (.type ⟨holder, member⟩) := by
      obtain ⟨rfl, -⟩ | ⟨index, rfl, free⟩ := placeType_member placed
      · simp [place, LinkPlace.isRepeatable] at unique
      · simp [SchemaTree.HasPlace, SchemaTree.typeAt?_eq,
          SchemaTree.construct?, known, free]
    rw [place, same]
    exact unlinked.asked_eq_zero absent

/-- Placing a type asks for the place of the type at most. -/
theorem asked_queueType_le (placed : Draft) (statement : Statement)
    (use : TypeUse) (slot : TypeSlot) (place : LinkPlace) :
    (placed.queueType statement use slot).queue.asked place ≤
      placed.queue.asked place + if .type slot = place then 1 else 0 := by
  obtain quiet | ⟨kind, text, refers, asks⟩ :=
    placed.queueType_cases statement use slot
  · rw [quiet]
    exact Nat.le_add_right _ _
  · rw [asks]
    refine Nat.le_of_eq ((ReferenceQueue.asked_append _ _ place).trans ?_)
    rw [ReferenceQueue.asked_singleton]
    exact congrArg (fun asked : LinkPlace => placed.queue.asked place +
      if asked = place then 1 else 0) (typeReference?_eq_some refers slot.node)

/-- What a type opens asks for nothing. -/
theorem IsTypeOpening.allowance_eq_zero {frames : List Frame}
    {below : FrameStack} (shape : opened.IsTypeOpening frames)
    (stack : opened.stack = frames ++ below) (keywords : List Keyword)
    (id : NodeId) : opened.allowance keywords id = 0 := by
  unfold allowance
  split
  next top =>
    cases shape with
    | plain => simp [stack] at top
    | @withMembers use construct ending node members inTree =>
        obtain rfl : node = id := by simpa [stack] using top
        have silent : construct.kind.asking? = none := by
          unfold membersOf at members
          split at members <;> simp only [Option.some.injEq, Prod.mk.injEq,
            reduceCtorEq] at members
          all_goals
            obtain ⟨rfl, -⟩ := members
            rfl
        simp [inTree, silent]
  · rfl

/-- When a type ends, its frame is still there, below that of the members if any,
and what the type requires has been read. -/
theorem IsTypeOpening.exists_type {frames : List Frame} {below : FrameStack}
    (shape : opened.IsTypeOpening frames)
    (stack : opened.stack = frames ++ below)
    (inside : opened.Reads statement.substatements inner) :
    ∃ use above, inner.stack = above ++ .type use :: below ∧
      (above = [] ∨ ∃ id, above = [.node id]) ∧
      ∀ builtin, use.builtin = some builtin →
        ∀ keyword, requiredPart builtin = some keyword →
          ∀ part ∈ statement.substatements, part.known = keyword →
            use.Has keyword := by
  have becomes := inside.follows.stack
  rw [stack] at becomes
  cases shape with
  | plain =>
      generalize read : inner.stack = stack' at becomes
      cases becomes with
      | top filled =>
          obtain ⟨use, rfl, -⟩ := filled
          refine ⟨use, [], rfl, .inl rfl, ?_⟩
          rintro _ _ keyword _ part member rfl
          exact inside.has part member _ _ stack use _ read
  | withMembers hasMembers =>
      generalize inner.stack = stack' at becomes
      cases becomes with
      | top filled =>
          obtain rfl : _ = Frame.node _ := filled
          exact ⟨_, [.node _], rfl, .inr ⟨_, rfl⟩,
            fun builtin named keyword needs _ _ _ =>
              has_of_membersOf hasMembers named needs _⟩

/-- A node that takes a type of its own allows for one. -/
theorem allowance_type_eq_one {holder : NodeId} {tree : SchemaTree}
    {construct : Construct} (held : before.stack.head? = some (.node holder))
    (isOpen : holder < before.tree.size) (keeps : before.tree.Keeps tree)
    (found : tree.construct? holder = some construct)
    (asking : construct.kind.asking? = some .type) :
    before.allowance [.type] holder = 1 := by
  obtain ⟨node, known⟩ : ∃ node, before.tree.node? holder = some node :=
    ⟨_, Array.getElem?_eq_getElem isOpen⟩
  obtain ⟨other, known', kind, -⟩ := keeps.node known
  obtain ⟨_, known'', rfl⟩ := SchemaTree.construct?_eq_some_iff.mp found
  obtain rfl := Option.some.inj (known'.symm.trans known'')
  have isKind : before.tree.kind? holder = some other.construct.kind := by
    simp only [SchemaTree.kind?, known, Option.map_some]
    exact congrArg some kind.symm
  simp [allowance, held, isKind, asking]

/-- A type asks for the place of its holder once, if that is not a union, and for
no other repeatable place. -/
theorem asks_of_placed {holder : NodeId} {construct construct' : Construct}
    {member : Option Nat} {frames : List Frame}
    (sound : before.IsSound) (unlinked : before.IsUnlinked)
    (shape : opened.IsTypeOpening frames) (opens : before.Opens opened frames)
    (follows : opened.FollowsAsking (statement.substatements.map (·.known)) inner)
    (open' : inner.stack ≠ [])
    (held : before.stack.head? = some (.node holder))
    (found : inner.tree.construct? holder = some construct)
    (placed : placeType use construct = some (construct', member))
    (asked : ∀ place, after.queue.asked place ≤ inner.queue.asked place +
      if .type ⟨holder, member⟩ = place then 1 else 0) :
    before.Asks [.type] after := by
  have isOpen := sound.known holder (List.mem_of_mem_head? held)
  have asks := follows.asks open' (opens.sound sound)
    (opens.unlinked sound unlinked)
  have closed := shape.allowance_eq_zero opens.stack
    (statement.substatements.map (·.known))
  refine ⟨fun place repeatable old => ?_, fun place repeatable outside => ?_⟩ <;>
    refine Nat.le_trans (asked place) ?_
  · have read := asks.old place repeatable
      (Nat.lt_of_lt_of_le old opens.keeps.size_le)
    rw [closed, opens.asks place repeatable, Nat.add_zero] at read
    refine Nat.add_le_add read ?_
    split
    next same =>
      subst same
      obtain ⟨rfl, asking⟩ | ⟨index, rfl, -⟩ := placeType_member placed
      · exact Nat.le_of_eq (allowance_type_eq_one held isOpen
          (opens.keeps.trans follows.keeps) found asking).symm
      · simp [LinkPlace.isRepeatable] at repeatable
    · exact Nat.zero_le _
  · have other : LinkPlace.type ⟨holder, member⟩ ≠ place := by
      rintro rfl
      exact absurd isOpen (Nat.not_lt_of_le outside)
    rw [if_neg other, Nat.add_zero]
    by_cases known : place.node < opened.tree.size
    · have read := asks.old place repeatable known
      rw [closed, opens.asks place repeatable,
        unlinked.asked_eq_zero_of_le repeatable outside] at read
      exact Nat.le_trans read (Nat.zero_le 1)
    · exact asks.new place repeatable (Nat.le_of_not_lt known)

/-- A whole `type` statement leaves its holder filled in and its reference
queued. -/
theorem type_follows (opening : openType before statement = .ok opened)
    (inside : opened.Reads statement.substatements inner)
    (closing : closeType inner statement = .ok after) :
    before.FollowsAsking [.type] after := by
  obtain ⟨frames, shape, opens⟩ := openType_opens opening
  obtain ⟨use, above, stack, members, required⟩ :=
    shape.exists_type opens.stack inside
  obtain ⟨checked, holder, construct, construct', member, held, found, placed,
    rfl⟩ := closeType_eq_ok stack members closing
  have open' : inner.stack ≠ [] := by simp [stack]
  refine ⟨fun sound => ?_, ?_, ?_, fun _ sound unlinked => ?_,
    fun _ sound unlinked => ?_⟩
  · have sound := inside.follows.sound (opens.sound sound)
    obtain ⟨named, unlinked, read⟩ : (Frame.type use).IsSound :=
      sound.frames _ (by simp [stack])
    have complete : use.IsComplete := by
      refine ⟨named, fun builtin is keyword needs => ?_, read⟩
      obtain ⟨part, member, known⟩ := Cardinality.exists_of_nonZero <|
        ((checkTypeBody_eq_ok_iff is).mp checked).1 keyword needs
      exact required builtin is keyword needs part member known
    have sound : IsSound { inner with stack := before.stack } :=
      sound.of_same rfl rfl (fun frame member => by simp_all) fun _ => .inl
    exact placed_isSound sound complete unlinked found placed rfl
  · rw [queueType_stack]
    exact .refl _
  · have placing : inner.tree.Keeps
        (inner.tree.modifyConstruct holder fun _ => construct') := by
      refine .modifyConstruct fun other is => ?_
      obtain rfl : construct = other := by simpa [found] using is
      exact (placeType_eq_some placed).1
    rw [queueType_tree]
    exact (opens.keeps.trans inside.follows.keeps).trans placing
  · have sound' := opens.sound sound
    have unlinked := inside.follows.unlinked open' sound'
      (opens.unlinked sound unlinked)
    have fresh : use.links = .none :=
      ((inside.follows.sound sound').frames (.type use) (by simp [stack])).2.1
    have fits := unlinked.fits
    rw [stack] at fits
    have unlinked : IsUnlinked { inner with stack := .type use :: before.stack } := by
      refine unlinked.withStack ?_
      obtain rfl | ⟨id, rfl⟩ := members
      · exact fits
      · exact fits.of_cons
    exact placed_isUnlinked unlinked fresh (List.mem_of_mem_head? held) found
      placed rfl
  · exact asks_of_placed sound unlinked shape opens inside.follows open' held
      found placed fun place => asked_queueType_le _ statement use _ place

end Draft

end YangSchema
