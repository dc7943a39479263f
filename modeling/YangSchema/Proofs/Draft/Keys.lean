import YangSchema.Proofs.Draft.Deferring

/-!
# The keys of complete lists

At its end a list has a leaf for each of its keys, or it uses groupings and is
noted.  If it can be configured it has a key at all, unless it stands where this is
left to its instances.  What comes later neither changes a list that is no longer
open nor takes a node or a note away, so this holds for every list that has been
read.
-/

namespace YangSchema

variable {parent list : NodeId} {body : ListBody}

/-- Nothing but a list introduces one. -/
theorem Statement.known_of_introduces_list {statement : Statement}
    {name : String}
    (introduced : statement.introduces? none [] = some (.list, name)) :
    statement.known = .list := by
  unfold introduces? at introduced
  split at introduced
  next =>
    unfold memberNode? at introduced
    split at introduced
    · simp at introduced
    split at introduced
    · simp at introduced
    split at introduced <;> simp at introduced
  · simp at introduced
  · simp at introduced
  next keyword _ _ _ =>
    obtain ⟨kind, is, same⟩ := Option.map_eq_some_iff.mp introduced
    obtain ⟨rfl, -⟩ := Prod.mk.inj same
    cases known : statement.known <;> simp [known, Keyword.introduces?] at is
    rfl

namespace SchemaTree

variable {tree before after : SchemaTree} {noted noted' : List NodeId}

/-- A list has a leaf for each of its keys, or it uses groupings and is noted. -/
def HasKeys (tree : SchemaTree) (noted : List NodeId) (list : NodeId)
    (body : ListBody) : Prop :=
  (∀ key ∈ body.keys, (tree.findChild? list .leaf key).isSome) ∨
    list ∈ noted ∧ Draft.hasChildOf tree list (· == .uses) = true

theorem findChild?_isSome_iff {kind : ConstructKind} {name : String} :
    (tree.findChild? parent kind name).isSome ↔
      ∃ child ∈ tree.children parent, ∃ node, tree.node? child = some node ∧
        node.kind = kind ∧ node.name = name := by
  rw [findChild?, List.find?_isSome]
  refine exists_congr fun child => and_congr_right fun _ => ?_
  cases tree.node? child <;> simp

theorem hasChildOf_iff {accepts : ConstructKind → Bool} :
    Draft.hasChildOf tree parent accepts = true ↔
      ∃ child ∈ tree.children parent, ∃ node, tree.node? child = some node ∧
        accepts node.kind = true := by
  simp only [Draft.hasChildOf, List.any_eq_true, kind?, Option.any_map,
    Option.any_eq_true]

theorem HasKeys.mono (has : before.HasKeys noted list body)
    (keeps : before.Keeps after) (more : noted ⊆ noted') :
    after.HasKeys noted' list body := by
  refine has.imp (fun all key listed => ?_) fun ⟨listed, uses⟩ =>
    ⟨more listed, ?_⟩
  · obtain ⟨child, inside, node, found, kind, name⟩ :=
      findChild?_isSome_iff.mp (all key listed)
    obtain ⟨node', found', kind', name', -⟩ := keeps.node found
    exact findChild?_isSome_iff.mpr ⟨child, keeps.children inside, node',
      found', kind'.trans kind, name'.trans name⟩
  · obtain ⟨child, inside, node, found, kind⟩ := hasChildOf_iff.mp uses
    obtain ⟨node', found', kind', -⟩ := keeps.node found
    exact hasChildOf_iff.mpr ⟨child, keeps.children inside, node', found',
      kind' ▸ kind⟩

/-- Around a node stands a definition whose instances decide on its config, or
what is no part of the datastore. -/
theorem isOutsideDatastore_iff {id : NodeId} :
    Draft.isOutsideDatastore tree id = true ↔
      ∃ around ∈ tree.ancestors id, ∃ kind ∈ [ConstructKind.grouping, .augment,
        .input, .output, .notification], tree.kind? around = some kind := by
  simp only [Draft.isOutsideDatastore, List.any_eq_true, Option.any_eq_true,
    List.contains_iff_mem]
  exact exists_congr fun around => and_congr_right fun _ =>
    exists_congr fun kind => And.comm

theorem isOutsideDatastore_mono {id : NodeId} (keeps : before.Keeps after)
    (outside : Draft.isOutsideDatastore before id = true) :
    Draft.isOutsideDatastore after id = true := by
  obtain ⟨around, above, kind, among, isKind⟩ := isOutsideDatastore_iff.mp outside
  obtain ⟨node, found⟩ : ∃ node, before.node? id = some node := by
    unfold ancestors at above
    split at above
    next node found => exact ⟨node, found⟩
    · simp at above
  exact isOutsideDatastore_iff.mpr ⟨around, keeps.ancestors found ▸ above, kind,
    among, keeps.kind? isKind⟩

/-- What the end of a list makes sure of. -/
structure ClosesList (tree : SchemaTree) (noted : List NodeId) (list : NodeId)
    (body : ListBody) : Prop where
  keys : tree.HasKeys noted list body
  keyless : body.keys = [] → body.config.value = true →
    Draft.isOutsideDatastore tree list = true

theorem ClosesList.mono (closes : before.ClosesList noted list body)
    (keeps : before.Keeps after) (more : noted ⊆ noted') :
    after.ClosesList noted' list body where
  keys := closes.keys.mono keeps more
  keyless none value := isOutsideDatastore_mono keeps (closes.keyless none value)

end SchemaTree

namespace Draft

variable {draft before opened inner after : Draft} {statement : Statement}

/-- Every list that is no longer open is what it is at its end. -/
def ClosesLists (draft : Draft) : Prop :=
  ∀ list body, .node list ∉ draft.stack →
    draft.tree.construct? list = some (.list body) →
      draft.tree.ClosesList draft.deferredKeys list body

/-- What is not open is not changed, and no node and no note is taken away. -/
structure SparesClosed (before after : Draft) : Prop where
  keeps : before.tree.Keeps after.tree
  closed : ∀ id, .node id ∉ after.stack →
    after.tree.node? id = before.tree.node? id
  noted : before.deferredKeys ⊆ after.deferredKeys

/-- Closed lists stay what they are, so only those that are closed now matter. -/
theorem ClosesLists.sparesClosed (has : before.ClosesLists)
    (spares : before.SparesClosed after)
    (closes : ∀ list body, .node list ∈ before.stack → .node list ∉ after.stack →
      after.tree.construct? list = some (.list body) →
        after.tree.ClosesList after.deferredKeys list body) :
    after.ClosesLists := by
  intro list body closed isList
  by_cases open' : .node list ∈ before.stack
  · exact closes list body open' closed isList
  · have same : before.tree.construct? list = some (.list body) := by
      rwa [SchemaTree.construct?, ← spares.closed list closed]
    exact (has list body open' same).mono spares.keeps spares.noted

/-- What a statement is stored in is open. -/
theorem Fills.sparesClosed (fills : before.Fills statement after)
    (source : after.tree.source = before.tree.source)
    (noted : before.deferredKeys ⊆ after.deferredKeys) :
    before.SparesClosed after where
  keeps := ⟨source, fun {id node} found => by
    obtain ⟨node', found', head, -⟩ := fills.writes.nodes id node found
    exact ⟨node', found', head.kind, head.name, head.ancestors⟩⟩
  closed id closed := by
    cases fills with
    | node stack same _ nodes _ _ =>
        rw [nodes, if_neg]
        rintro rfl
        exact closed (by simp [same, stack])
    | frame _ _ nodes _ => exact nodes id
  noted := noted

theorem Fills.node_mem_iff (fills : before.Fills statement after)
    {id : NodeId} : .node id ∈ after.stack ↔ .node id ∈ before.stack := by
  cases fills with
  | node _ same _ _ _ _ => rw [same]
  | frame stack same _ takes =>
      rw [stack, same, List.mem_cons, List.mem_cons, Eq.comm,
        ← bare_eq_node_iff, takes.bare, bare_eq_node_iff, Eq.comm]

/-- No key of a list is missing after the check. -/
theorem checkKeys_eq_ok {tree : SchemaTree}
    (checked : checkKeys tree statement list body = .ok ())
    (isList : tree.construct? list = some (.list body)) :
    ∀ key ∈ body.keys, (tree.findChild? list .leaf key).isSome := by
  obtain ⟨node, found, -⟩ := SchemaTree.construct?_eq_some_iff.mp isList
  intro key listed
  by_contra missing
  have some' : (body.keys.find? fun key =>
      (tree.findChild? list .leaf key).isNone).isSome := by
    rw [List.find?_isSome]
    exact ⟨key, listed, by simpa using missing⟩
  obtain ⟨first, isFirst⟩ := Option.isSome_iff_exists.mp some'
  simp [checkKeys, isFirst, found] at checked

theorem checkKeys_of_forall {tree : SchemaTree}
    (all : ∀ key ∈ body.keys, (tree.findChild? list .leaf key).isSome) :
    checkKeys tree statement list body = .ok () := by
  have none : (body.keys.find? fun key =>
      (tree.findChild? list .leaf key).isNone) = none :=
    List.find?_eq_none.mpr fun key listed => by
      simpa [Option.isSome_iff_ne_none] using all key listed
  simp [checkKeys, none]

/-- At its end a list has its keys, and nothing that is noted is lost. -/
theorem closeList_closesList {rest : FrameStack}
    (ok : closeList inner statement = .ok after)
    (stack : inner.stack = .node list :: rest) :
    inner.deferredKeys ⊆ after.deferredKeys ∧
      ∀ body, after.tree.construct? list = some (.list body) →
        after.tree.ClosesList after.deferredKeys list body := by
  simp only [closeList, bind_eq_ok_iff] at ok
  obtain ⟨⟨id, popped⟩, closed, ok⟩ := ok
  obtain ⟨rest', stack', rfl⟩ := closeNode_eq_ok closed
  obtain ⟨rfl, rfl⟩ : list = id ∧ rest = rest' := by
    simpa using stack.symm.trans stack'
  dsimp only at ok
  split at ok
  next body isList =>
    have only (body' : ListBody)
        (isList' : inner.tree.construct? list = some (.list body')) :
        body' = body := by
      simpa [isList'] using isList
    split at ok
    · simp at ok
    simp only [bind_eq_ok_iff] at ok
    obtain ⟨_, -, ok⟩ := ok
    split at ok
    next keyless =>
      obtain ⟨rfl, exempt⟩ : after = { inner with stack := rest } ∧
          (body.config.value = true →
            Draft.isOutsideDatastore inner.tree list = true) := by
        split at ok <;> simp_all
      refine ⟨List.Subset.refl _, fun body' isList' => ?_⟩
      have none : body.keys = [] := List.isEmpty_iff.mp keyless
      rw [only body' isList']
      exact ⟨.inl (by simp [none]), fun _ => exempt⟩
    next keyed =>
      split at ok
      next uses =>
        obtain rfl := pure_eq_ok_iff.mp ok
        refine ⟨List.subset_append_left _ _, fun body' isList' => ?_⟩
        rw [only body' isList']
        exact ⟨.inr ⟨List.mem_append_right _ List.mem_cons_self, uses⟩,
          fun none => absurd (List.isEmpty_iff.mpr none) keyed⟩
      next plain =>
        simp only [bind_eq_ok_iff, pure_eq_ok_iff] at ok
        obtain ⟨_, checked, rfl⟩ := ok
        refine ⟨List.Subset.refl _, fun body' isList' => ?_⟩
        rw [only body' isList']
        exact ⟨.inl (checkKeys_eq_ok checked isList),
          fun none => absurd (List.isEmpty_iff.mpr none) keyed⟩
  next other =>
    obtain rfl := pure_eq_ok_iff.mp ok
    exact ⟨List.Subset.refl _, fun body isList => absurd isList (other body)⟩

/-- A node is added and opened, perhaps with a part around it. -/
theorem OpensNode.sparesClosed {parent : NodeId} {construct : Construct}
    {name : String}
    (opens : before.OpensNode statement parent construct name opened)
    (top : .node before.tree.size ∈ opened.stack)
    (noted : opened.deferredKeys = before.deferredKeys) :
    before.SparesClosed opened where
  keeps := opens.tree ▸ .addChild before.tree parent _
  closed id closed := by
    rw [opens.node?, if_neg]
    rintro rfl
    exact closed top
  noted _ listed := noted ▸ listed

/-- The end of a type changes the node that the type is placed in. -/
theorem closeType_sparesClosed {above below : List Frame} {use : TypeUse}
    (stack : inner.stack = above ++ .type use :: below)
    (members : above = [] ∨ ∃ id, above = [.node id])
    (ok : closeType inner statement = .ok after) :
    inner.SparesClosed after ∧ after.stack = below := by
  have noted := keepsNotes_closeType after ok
  obtain ⟨-, holder, construct, construct', member, top, found, placed, same⟩ :=
    closeType_eq_ok stack members ok
  obtain ⟨tree, stack⟩ :
      after.tree = inner.tree.modifyConstruct holder (fun _ => construct') ∧
        after.stack = below := by
    rw [same, queueType_tree, queueType_stack]
    exact ⟨rfl, rfl⟩
  have isOpen : .node holder ∈ after.stack :=
    stack ▸ List.mem_of_mem_head? top
  obtain ⟨kind, -⟩ := placeType_eq_some placed
  refine ⟨⟨tree ▸ .modifyConstruct fun known isKnown => ?_, fun id closed => ?_,
    fun _ listed => noted ▸ listed⟩, stack⟩
  · obtain rfl := Option.some.inj (found.symm.trans isKnown)
    exact kind
  · rw [tree, SchemaTree.node?_modifyConstruct, if_neg]
    rintro rfl
    exact closed isOpen

/-- The node that has been opened is of the same kind when it is closed. -/
theorem OpensNode.kind_of_construct? {parent : NodeId}
    {construct construct' : Construct} {name : String}
    (opens : before.OpensNode statement parent construct name opened)
    (inside : opened.Mirrors statement.substatements inner)
    (keeps : inner.tree.Keeps after.tree)
    (found : after.tree.construct? before.tree.size = some construct') :
    construct'.kind = construct.kind := by
  have first := opens.node? before.tree.size
  rw [if_pos rfl] at first
  obtain ⟨node, known, head, -⟩ := inside.nodes _ _ first
  obtain ⟨node', known', kind, -⟩ := keeps.node known
  obtain ⟨node'', known'', rfl⟩ := SchemaTree.construct?_eq_some_iff.mp found
  obtain rfl := Option.some.inj (known'.symm.trans known'')
  exact kind.trans head.kind

section

variable {openBlock closeBlock : Step}
  (isBlock : role statement.known = .block openBlock closeBlock)
include isBlock

/-- The beginning of a block closes nothing. -/
theorem ClosesLists.opening (has : before.ClosesLists) (open' : before.stack ≠ [])
    (ok : openBlock before statement = .ok opened) : opened.ClosesLists := by
  have noted := keepsNotes_of_opening isBlock opened ok
  have shape := role_shape statement.known
  rw [isBlock] at shape
  suffices grows : before.SparesClosed opened ∧
      ∀ id, .node id ∈ before.stack → .node id ∈ opened.stack from
    has.sparesClosed grows.1 fun list body was closed =>
      absurd (grows.2 list was) closed
  cases shape with
  | unit =>
      obtain ⟨_, -, -, unopened, -⟩ := openUnit_eq_ok ok
      exact absurd unopened open'
  | part isPart =>
      obtain ⟨frame, rfl, -⟩ := isPart.opens rfl ok
      exact ⟨⟨.refl _, fun _ _ => rfl, List.Subset.refl _⟩,
        fun _ => List.mem_cons_of_mem _⟩
  | node isNode =>
      obtain ⟨parent, construct, name, opens, stack, -⟩ := isNode.opens rfl ok
      exact ⟨opens.sparesClosed (by simp [stack]) noted, fun _ was => by
        rw [stack]
        exact List.mem_cons_of_mem _ was⟩
  | type isType =>
      obtain ⟨use, rfl | ⟨parent, construct, name, opens, stack, -⟩⟩ :=
        openType_cases ok
      · exact ⟨⟨.refl _, fun _ _ => rfl, List.Subset.refl _⟩,
          fun _ => List.mem_cons_of_mem _⟩
      · exact ⟨opens.sparesClosed (by simp [stack]) noted, fun _ was => by
          rw [stack]
          exact List.mem_cons_of_mem _ (List.mem_cons_of_mem _ was)⟩

/-- Whatever ends, nothing that is noted is lost. -/
theorem closing_noted (closing : closeBlock inner statement = .ok after) :
    inner.deferredKeys ⊆ after.deferredKeys := by
  by_cases isList : statement.known = .list
  · rw [isList] at isBlock
    obtain ⟨-, rfl⟩ := Role.block.inj isBlock
    obtain ⟨id, popped, closed, same⟩ := closeList_eq_ok closing
    obtain ⟨rest, -, rfl⟩ := closeNode_eq_ok closed
    obtain rfl | ⟨-, rfl⟩ := same
    · exact List.Subset.refl _
    · exact List.subset_append_left _ _
  · rw [keepsNotes_of_closing isBlock isList after closing]
    exact List.Subset.refl _

/-- The end of a block closes what the block has opened, and a list has its keys
then. -/
theorem ClosesLists.closing (has : inner.ClosesLists)
    (open' : before.stack ≠ [])
    (opening : openBlock before statement = .ok opened)
    (inside : opened.Mirrors statement.substatements inner)
    (keeps : before.tree.Keeps inner.tree)
    (source : after.tree.source = before.tree.source)
    (closing : closeBlock inner statement = .ok after) : after.ClosesLists := by
  have noted := closing_noted isBlock closing
  have shape := role_shape statement.known
  rw [isBlock] at shape
  cases shape with
  | unit =>
      obtain ⟨_, -, -, unopened, -⟩ := openUnit_eq_ok opening
      exact absurd unopened open'
  | part isPart =>
      obtain ⟨frame, rfl, start, bare, other, checked⟩ := isPart.opens rfl opening
      obtain ⟨frame', stack', bare'⟩ := inside.top frame before.stack rfl
      have built := built_of_mirrors start bare other checked rfl
        inside.toWrites stack'
      have fills := isPart.closes rfl opening keeps stack' built closing
      have spares := fills.sparesClosed (source.trans keeps.source.symm) noted
      refine has.sparesClosed ⟨spares.keeps, spares.closed, noted⟩
        fun list body was closed => ?_
      -- What has been closed is a part.
      rw [stack'] at was
      obtain isFrame | was := List.mem_cons.mp was
      · rw [← isFrame, bare, Eq.comm] at bare'
        rw [show frame = .node list from bare'] at other
        exact absurd rfl other
      · exact absurd (fills.node_mem_iff.mpr was) closed
  | node isNode =>
      obtain ⟨parent, construct, name, opens, stack, introduced⟩ :=
        isNode.opens rfl opening
      obtain ⟨frame', stack', bare'⟩ := inside.top _ _ stack
      obtain rfl : frame' = .node before.tree.size := bare_eq_node_iff.mp bare'
      obtain ⟨tree, below⟩ := isNode.closes _ _ _ _ _ closing stack'
      refine has.sparesClosed ⟨tree ▸ .refl _, fun _ _ => by rw [tree], noted⟩
        fun list body was closed isList => ?_
      rw [stack'] at was
      obtain isNew | was := List.mem_cons.mp was
      · obtain rfl : list = before.tree.size := by simpa using isNew
        -- Only the statement of a list introduces one.
        have isKind : .list = construct.kind := opens.kind_of_construct? inside
          (tree ▸ .refl _) isList
        have known := Statement.known_of_introduces_list
          (isKind ▸ introduced none [])
        rw [known] at isBlock
        obtain ⟨-, rfl⟩ := Role.block.inj isBlock
        exact (closeList_closesList closing stack').2 body isList
      · exact absurd (below ▸ was) closed
  | type isType =>
      obtain ⟨use, rfl | ⟨parent, construct, name, opens, stack, anonymous, -⟩⟩ :=
        openType_cases opening
      · obtain ⟨frame, stack', bare⟩ := inside.top _ before.stack rfl
        obtain ⟨use', rfl⟩ : ∃ use', frame = .type use' := by
          cases frame <;> simp [Frame.bare] at bare
          exact ⟨_, rfl⟩
        obtain ⟨spares, below⟩ := closeType_sparesClosed stack' (.inl rfl) closing
        refine has.sparesClosed spares fun list body was closed => ?_
        rw [stack', List.mem_cons] at was
        obtain isType | was := was
        · cases isType
        · exact absurd (below ▸ was) closed
      · obtain ⟨frame, stack', bare⟩ := inside.top _ _ stack
        obtain rfl : frame = .node before.tree.size := bare_eq_node_iff.mp bare
        obtain ⟨spares, below⟩ := closeType_sparesClosed stack' (.inr ⟨_, rfl⟩)
          closing
        refine has.sparesClosed spares fun list body was closed isList => ?_
        rw [stack', List.mem_cons, List.mem_cons] at was
        obtain isNew | isType | was := was
        · obtain rfl : list = before.tree.size := by simpa using isNew
          rw [← opens.kind_of_construct? inside spares.keeps isList] at anonymous
          cases anonymous
        · cases isType
        · exact absurd (below ▸ was) closed

end

mutual

/-- Closed lists are what they are at their ends after a statement if they are so
before. -/
theorem read_closesLists {draft : Draft} (sound : draft.IsSound)
    (open' : draft.stack ≠ []) (has : draft.ClosesLists) : {statement : Statement} →
    (read draft statement).error = none →
      (read draft statement).draft.ClosesLists
  | ⟨keyword, argument, span, block, substatements⟩, whole => by
      unfold read at whole ⊢
      dsimp only at whole ⊢
      generalize is :
        (⟨keyword, argument, span, block, substatements⟩ : Statement) =
          statement at whole ⊢
      have unwinds := role_unwinds statement.known
      have mirrors := role_mirrors statement.known
      have keeps := role_isSound statement.known
      split at whole
      next openBlock closeBlock isBlock =>
        simp only [isBlock] at unwinds keeps ⊢
        cases unwinds with
        | block _ opens _ =>
        cases keeps with
        | block _ follows =>
        obtain ⟨opening, whole, same⟩ := Progress.andThen_error whole
        obtain ⟨inside, closing, same'⟩ := Progress.andThen_error whole
        rw [same, same']
        have ok := Progress.ofStep_error opening
        obtain ⟨frames, isOpening, pushed⟩ := opens rfl ok
        have sound' := pushed.sound sound
        have held := pushed.held isOpening.ne_nil
        have read := readAll_mirrors sound' held inside
        have reads := readAll_reads inside
        have inner := readAll_closesLists sound' held (has.opening isBlock open' ok)
          inside
        have closed := Progress.ofStep_error closing
        subst is
        exact inner.closing isBlock open' ok read
          (pushed.keeps.trans reads.follows.keeps)
          (follows rfl ok reads closed).keeps.source closed
      next write isEntry =>
        simp only [isEntry] at mirrors keeps ⊢
        cases keeps with
        | entry reads =>
        cases mirrors with
        | entry plain fills =>
            obtain ⟨written, whole, same⟩ := Progress.andThen_error whole
            obtain ⟨-, warnings, passed⟩ := readForeign_eq whole
            rw [same, passed]
            subst is
            have ok := Progress.ofStep_error written
            have stored := fills rfl ok
            have noted := keepsNotes_of_entry isEntry _ ok
            have spares := stored.sparesClosed
              (reads rfl ok).follows.keeps.source fun _ listed => noted ▸ listed
            have written := has.sparesClosed spares fun list body was closed =>
              absurd (stored.node_mem_iff.mpr was) closed
            exact written
      next isForeign =>
        obtain ⟨warnings, passed⟩ := passOver_eq draft statement
        rw [passed]
        exact has
      next isRefused => simp at whole

/-- Closed lists are what they are at their ends after statements if they are so
before. -/
theorem readAll_closesLists {draft : Draft} (sound : draft.IsSound)
    (open' : draft.stack ≠ []) (has : draft.ClosesLists) :
    {statements : List Statement} → (readAll draft statements).error = none →
      (readAll draft statements).draft.ClosesLists
  | [], _ => has
  | statement :: rest, whole => by
      unfold readAll at whole ⊢
      obtain ⟨first, others, same⟩ := Progress.andThen_error whole
      rw [same]
      have follows := (read_reads first).follows
      exact readAll_closesLists (follows.sound sound) (follows.held.mpr open')
        (read_closesLists sound open' has first) others

end

end Draft

end YangSchema
