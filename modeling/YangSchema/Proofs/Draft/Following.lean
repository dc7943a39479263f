import YangSchema.Draft.Reading
import YangSchema.Proofs.Draft.Unlinked
import YangSchema.Proofs.Except

/-!
# What every step of a draft keeps

A draft is sound if its queue accounts for its tree, what has been read is
complete, nothing has been linked yet, and the nodes that are open are in the
tree.  A draft follows another one if it is sound as long as the other one is, if
its tree has grown at most, and if its stack differs from that of the other one
at the top only, where a frame has been filled in.  Statements that write into
their holder lead to drafts that follow.
-/

namespace YangSchema

/-- What the content of a frame is like before it moves into its holder. -/
def Frame.IsSound : Frame → Prop
  | .type use =>
      use.IsNamed ∧ use.links = .none ∧ ∀ kind, use.IsRead kind
  | .range restriction =>
      ∃ expression,
        Intervals.parse .range expression = .ok restriction.intervals
  | .length restriction =>
      ∃ expression,
        Intervals.parse .length expression = .ok restriction.intervals
  | .importing declaration => declaration.resolved = none
  | .including declaration => declaration.resolved = none
  | _ => True

/-- A frame that has been filled in.  A type never loses what it has. -/
def Frame.Becomes (frame frame' : Frame) : Prop :=
  match frame with
  | .node id => frame' = .node id
  | .type use =>
      ∃ use', frame' = .type use' ∧ use'.builtin = use.builtin ∧
        use'.members = use.members ∧
        ∀ keyword, use.Has keyword → use'.Has keyword
  | frame => frame'.kind = frame.kind

namespace Frame.Becomes

theorem refl (frame : Frame) : frame.Becomes frame := by
  cases frame <;> simp [Becomes]

theorem trans {frame frame' frame'' : Frame} (first : frame.Becomes frame')
    (second : frame'.Becomes frame'') : frame.Becomes frame'' := by
  cases frame with
  | node id =>
      obtain rfl : frame' = .node id := first
      exact second
  | type use =>
      obtain ⟨use', rfl, builtin', members', has'⟩ := first
      obtain ⟨use'', rfl, builtin'', members'', has''⟩ := second
      exact ⟨use'', rfl, builtin''.trans builtin', members''.trans members',
        fun keyword has => has'' keyword (has' keyword has)⟩
  | _ =>
      cases frame' <;> simp_all [Becomes, Frame.kind]

theorem kind_eq {frame frame' : Frame} (becomes : frame.Becomes frame') :
    frame'.kind = frame.kind := by
  cases frame with
  | node id =>
      obtain rfl : frame' = .node id := becomes
      rfl
  | type use =>
      obtain ⟨use', rfl, -⟩ := becomes
      rfl
  | _ => exact becomes

theorem members?_eq {frame frame' : Frame} (becomes : frame.Becomes frame') :
    frame'.members? = frame.members? := by
  cases frame with
  | node id =>
      obtain rfl : frame' = .node id := becomes
      rfl
  | type use =>
      obtain ⟨use', rfl, -, members, -⟩ := becomes
      exact members
  | _ =>
      have kind := becomes.kind_eq
      cases frame' <;> simp_all [Frame.kind, members?]

/-- What becomes a node is that node. -/
theorem node {frame : Frame} {id : NodeId}
    (becomes : frame.Becomes (.node id)) : frame = .node id := by
  have kind := becomes.kind_eq
  cases frame with
  | node other =>
      have same : Frame.node id = .node other := becomes
      exact same.symm
  | _ => simp [Frame.kind] at kind

end Frame.Becomes

/-- Only the top of a stack has been filled in. -/
inductive FrameStack.Becomes : FrameStack → FrameStack → Prop
  | empty : Becomes [] []
  | top {frame frame' : Frame} {rest : FrameStack}
      (filled : frame.Becomes frame') :
      Becomes (frame :: rest) (frame' :: rest)

namespace FrameStack.Becomes

theorem refl (stack : FrameStack) : stack.Becomes stack := by
  cases stack with
  | nil => exact .empty
  | cons frame rest => exact .top (.refl frame)

theorem trans {stack stack' stack'' : FrameStack}
    (first : stack.Becomes stack') (second : stack'.Becomes stack'') :
    stack.Becomes stack'' := by
  cases first with
  | empty => exact second
  | top filled =>
      cases second with
      | top filled' => exact .top (filled.trans filled')

/-- Filling in reaches the topmost frame only. -/
theorem of_append {frames below stack : FrameStack}
    (becomes : FrameStack.Becomes (frames ++ below) stack)
    (some : frames ≠ []) :
    ∃ frames', stack = frames' ++ below ∧
      FrameStack.Becomes frames frames' := by
  cases frames with
  | nil => exact absurd rfl some
  | cons frame rest =>
      cases becomes with
      | top filled => exact ⟨_ :: rest, rfl, .top filled⟩

/-- The same node is on top. -/
theorem head?_eq_node_iff {stack stack' : FrameStack}
    (becomes : stack.Becomes stack') {id : NodeId} :
    stack'.head? = some (.node id) ↔ stack.head? = some (.node id) := by
  cases becomes with
  | empty => exact Iff.rfl
  | @top frame frame' _ filled =>
      simp only [List.head?_cons, Option.some.injEq]
      constructor
      · rintro rfl
        exact filled.node
      · rintro rfl
        exact filled

end FrameStack.Becomes

/-- A node that has been read but not linked. -/
structure SchemaNode.IsFresh (node : SchemaNode) : Prop where
  sound : node.IsSound
  unbound : ∀ binding ∈ node.construct.bindings, binding = none

structure Draft.IsSound (draft : Draft) : Prop where
  accounts : draft.queue.AccountsFor draft.tree
  nodes : ∀ {id node}, draft.tree.node? id = some node → node.IsFresh
  frames : ∀ frame ∈ draft.stack, frame.IsSound
  unblocked : ∀ item ∈ draft.queue, item.state ≠ .blocked
  nested : draft.tree.IsNested
  /-- The nodes that are open are in the tree. -/
  known : ∀ id, .node id ∈ draft.stack → id < draft.tree.size
  /-- Only an extension that is passed over is warned about. -/
  warned : ∀ warning ∈ draft.warnings, warning.kind = .extensionSkipped

/-- The statement that asks for the repeatable place of a node. -/
def ConstructKind.asking? : ConstructKind → Option Keyword
  | .identity => some .base
  | .leaf | .leafList | .typedef => some .type
  | _ => none

/-- How often statements may ask for the repeatable place of a node:  none of
them can unless the node is on top. -/
def Draft.allowance (draft : Draft) (keywords : List Keyword) (id : NodeId) :
    Nat :=
  if draft.stack.head? = some (.node id) then
    match (draft.tree.kind? id).bind (·.asking?) with
    | some keyword => keywords.count keyword
    | none => 0
  else
    0

/-- A repeatable place is asked for as often as the statements allow, and that
of a new node once at most. -/
structure Draft.Asks (before : Draft) (keywords : List Keyword)
    (after : Draft) : Prop where
  old : ∀ place, place.isRepeatable = true →
    place.node < before.tree.size →
      after.queue.asked place ≤
        before.queue.asked place + before.allowance keywords place.node
  new : ∀ place, place.isRepeatable = true →
    before.tree.size ≤ place.node → after.queue.asked place ≤ 1

/-- What holds between the drafts before and after statements of some
keywords. -/
structure Draft.FollowsAsking (before : Draft) (keywords : List Keyword)
    (after : Draft) : Prop where
  sound : before.IsSound → after.IsSound
  stack : before.stack.Becomes after.stack
  keeps : before.tree.Keeps after.tree
  /-- Nothing is linked while something is open. -/
  unlinked : after.stack ≠ [] → before.IsSound → before.IsUnlinked →
    after.IsUnlinked
  asks : after.stack ≠ [] → before.IsSound → before.IsUnlinked →
    before.Asks keywords after

/-- What holds between the drafts before and after a statement that asks for no
repeatable place of its holder. -/
abbrev Draft.Follows (before after : Draft) : Prop :=
  before.FollowsAsking [] after

/-- What holds between the drafts before and after some statements.  What they
write into a type is there afterwards. -/
structure Draft.Reads (before : Draft) (statements : List Statement)
    (after : Draft) : Prop where
  follows : before.FollowsAsking (statements.map (·.known)) after
  has : ∀ statement ∈ statements, ∀ use rest,
    before.stack = .type use :: rest → ∀ use' rest',
      after.stack = .type use' :: rest' → use'.Has statement.known

theorem SchemaNode.IsFresh.withConstruct {node : SchemaNode}
    (fresh : node.IsFresh) {construct : Construct}
    (kind : construct.kind = node.kind)
    (typeAt : construct.typeAt? = node.construct.typeAt?)
    (bindings : ∀ binding ∈ construct.bindings,
      binding ∈ node.construct.bindings ∨ binding = none) :
    SchemaNode.IsFresh { node with construct } where
  sound :=
    { typedef := fun is => fresh.sound.typedef (kind.symm.trans is)
      types := fun declared => fresh.sound.types (typeAt ▸ declared) }
  unbound := fun binding member =>
    (bindings binding member).elim (fresh.unbound binding) id

namespace Draft

variable {draft result : Draft} {statement : Statement}

@[simp]
theorem allowance_nil (id : NodeId) : draft.allowance [] id = 0 := by
  unfold allowance
  split
  · split <;> simp
  · rfl

@[simp]
theorem allowance_append (keywords more : List Keyword) (id : NodeId) :
    draft.allowance (keywords ++ more) id =
      draft.allowance keywords id + draft.allowance more id := by
  unfold allowance
  split
  · split <;> simp
  · rfl

/-- Only a node that is open is written into. -/
theorem IsSound.allowance_eq_zero (sound : draft.IsSound) {id : NodeId}
    (outside : draft.tree.size ≤ id) (keywords : List Keyword) :
    draft.allowance keywords id = 0 := by
  unfold allowance
  split
  next top =>
    have inside := sound.known id (List.mem_of_mem_head? top)
    exact absurd inside (Nat.not_lt_of_le outside)
  · rfl

/-- A place that nothing else asks for. -/
theorem IsUnlinked.asked_eq_zero_of_le (unlinked : draft.IsUnlinked)
    {place : LinkPlace} (repeatable : place.isRepeatable = true)
    (outside : draft.tree.size ≤ place.node) :
    draft.queue.asked place = 0 :=
  unlinked.asked_eq_zero <| by
    rw [SchemaTree.hasPlace_of_isRepeatable repeatable]
    exact Nat.not_lt_of_le outside

theorem Asks.of_queue {before after : Draft} {keywords : List Keyword}
    (unlinked : before.IsUnlinked) (same : after.queue = before.queue) :
    before.Asks keywords after where
  old place _ _ := same ▸ Nat.le_add_right _ _
  new place repeatable outside := by
    rw [same, unlinked.asked_eq_zero_of_le repeatable outside]
    exact Nat.zero_le 1

/-- What the statements allow stays the same while they are read. -/
theorem allowance_congr {before after : Draft}
    (stack : before.stack.Becomes after.stack)
    (keeps : before.tree.Keeps after.tree) {id : NodeId}
    (inside : id < before.tree.size) (keywords : List Keyword) :
    after.allowance keywords id = before.allowance keywords id := by
  obtain ⟨node, found⟩ : ∃ node, before.tree.node? id = some node :=
    ⟨_, Array.getElem?_eq_getElem inside⟩
  have kind : before.tree.kind? id = some node.kind := by
    simp [SchemaTree.kind?, found]
  simp only [allowance, stack.head?_eq_node_iff, kind, keeps.kind? kind]

theorem Asks.trans {before middle after : Draft}
    {keywords more : List Keyword} (first : before.Asks keywords middle)
    (second : middle.Asks more after)
    (stack : before.stack.Becomes middle.stack)
    (keeps : before.tree.Keeps middle.tree) (sound : before.IsSound) :
    before.Asks (keywords ++ more) after where
  old place repeatable inside := by
    have asked := second.old place repeatable
      (Nat.lt_of_lt_of_le inside keeps.size_le)
    have before' := first.old place repeatable inside
    rw [allowance_congr stack keeps inside] at asked
    rw [allowance_append]
    omega
  new place repeatable outside := by
    by_cases inside : place.node < middle.tree.size
    · have asked := second.old place repeatable inside
      have single := first.new place repeatable outside
      have closed : middle.allowance more place.node = 0 := by
        unfold allowance
        split
        next top =>
          rw [stack.head?_eq_node_iff] at top
          have old := sound.known _ (List.mem_of_mem_head? top)
          exact absurd old (Nat.not_lt_of_le outside)
        · rfl
      omega
    · exact second.new place repeatable (Nat.le_of_not_lt inside)

/-- Steps that ask for no old place. -/
theorem Asks.trans_nil {before middle after : Draft}
    (first : before.Asks [] middle) (second : middle.Asks [] after)
    (keeps : before.tree.Keeps middle.tree) : before.Asks [] after where
  old place repeatable inside := by
    have asked := second.old place repeatable
      (Nat.lt_of_lt_of_le inside keeps.size_le)
    have before' := first.old place repeatable inside
    simp only [allowance_nil, Nat.add_zero] at asked before' ⊢
    exact Nat.le_trans asked before'
  new place repeatable outside := by
    by_cases inside : place.node < middle.tree.size
    · have asked := second.old place repeatable inside
      rw [allowance_nil, Nat.add_zero] at asked
      exact Nat.le_trans asked (first.new place repeatable outside)
    · exact second.new place repeatable (Nat.le_of_not_lt inside)

theorem Asks.mono {before after : Draft} {keywords more : List Keyword}
    (asks : before.Asks keywords after)
    (less : ∀ id, before.allowance keywords id ≤ before.allowance more id) :
    before.Asks more after where
  old place repeatable inside :=
    Nat.le_trans (asks.old place repeatable inside)
      (Nat.add_le_add_left (less place.node) _)
  new := asks.new

theorem FollowsAsking.refl (draft : Draft) : draft.Follows draft :=
  ⟨id, .refl draft.stack, .refl draft.tree, fun _ _ => id,
    fun _ _ unlinked => .of_queue unlinked rfl⟩

section

variable {before middle after : Draft} {keywords more : List Keyword}

theorem FollowsAsking.held (follows : before.FollowsAsking keywords after) :
    after.stack ≠ [] ↔ before.stack ≠ [] := by
  have becomes := follows.stack
  generalize before.stack = stack, after.stack = stack' at becomes
  cases becomes <;> simp

theorem FollowsAsking.trans (first : before.FollowsAsking keywords middle)
    (second : middle.FollowsAsking more after) :
    before.FollowsAsking (keywords ++ more) after where
  sound sound := second.sound (first.sound sound)
  stack := first.stack.trans second.stack
  keeps := first.keeps.trans second.keeps
  unlinked held sound unlinked := second.unlinked held (first.sound sound)
    (first.unlinked (second.held.mp held) sound unlinked)
  asks held sound unlinked :=
    have open' := second.held.mp held
    (first.asks open' sound unlinked).trans
      (second.asks held (first.sound sound)
        (first.unlinked open' sound unlinked))
      first.stack first.keeps sound

/-- Statements of more keywords may ask for more. -/
theorem FollowsAsking.mono (follows : before.FollowsAsking keywords after)
    (less : ∀ id, before.allowance keywords id ≤ before.allowance more id) :
    before.FollowsAsking more after :=
  { follows with
    asks := fun held sound unlinked =>
      (follows.asks held sound unlinked).mono less }

theorem Follows.asking (follows : before.Follows after)
    (keywords : List Keyword) : before.FollowsAsking keywords after :=
  follows.mono fun id => by simp

theorem FollowsAsking.source (follows : before.FollowsAsking keywords after) :
    after.tree.source = before.tree.source :=
  follows.keeps.source

end

theorem Reads.nil (draft : Draft) : draft.Reads [] draft :=
  ⟨.refl draft, by simp⟩

theorem Reads.cons {before middle after : Draft} {statements : List Statement}
    (first : before.Reads [statement] middle)
    (rest : middle.Reads statements after) :
    before.Reads (statement :: statements) after := by
  refine ⟨first.follows.trans rest.follows, ?_⟩
  intro other member use below stack use' below' stack'
  have becomes := first.follows.stack
  rw [stack] at becomes
  generalize between : middle.stack = middleStack at becomes
  cases becomes with
  | top filled =>
      obtain ⟨use'', rfl, -⟩ := filled
      obtain rfl | member := List.mem_cons.mp member
      · have written := first.has other (by simp) use below stack use'' below
          between
        have kept := rest.follows.stack
        rw [between, stack'] at kept
        cases kept with
        | top filled' =>
            obtain ⟨_, same, -, -, has⟩ := filled'
            obtain rfl := Frame.type.inj same
            exact has _ written
      · exact rest.has other member use'' below between use' below' stack'

/-- Warnings and postponed checks are of no concern to linking, and neither is
it whether a frame is still open. -/
theorem IsSound.of_same {other : Draft} (sound : draft.IsSound)
    (tree : other.tree = draft.tree) (queue : other.queue = draft.queue)
    (stack : ∀ frame ∈ other.stack, frame ∈ draft.stack)
    (warned : ∀ warning ∈ other.warnings, warning ∈ draft.warnings ∨
      warning.kind = .extensionSkipped) : other.IsSound where
  accounts := by rw [tree, queue]; exact sound.accounts
  nodes := by rw [tree]; exact sound.nodes
  frames := fun frame member => sound.frames frame (stack frame member)
  unblocked := by rw [queue]; exact sound.unblocked
  nested := by rw [tree]; exact sound.nested
  known := fun id member => by
    rw [tree]
    exact sound.known id (stack _ member)
  warned := fun warning member =>
    (warned warning member).elim (sound.warned warning) id

theorem follows_frame {top top' : Frame} {rest : FrameStack}
    (stack : draft.stack = top :: rest) (filled : top.Becomes top')
    (content : top.IsSound → top'.IsSound) :
    draft.Follows { draft with stack := top' :: rest } where
  sound sound :=
    { sound with
      frames := by
        have frames := sound.frames
        rw [stack] at frames
        simp only [List.forall_mem_cons] at frames ⊢
        exact ⟨content frames.1, frames.2⟩
      known := fun id member => sound.known id <| by
        rw [stack]
        obtain rfl | member := List.mem_cons.mp member
        · obtain rfl := filled.node
          exact List.mem_cons_self
        · exact List.mem_cons_of_mem top member }
  stack := by rw [stack]; exact .top filled
  keeps := .refl draft.tree
  unlinked _ _ unlinked := by
    have fits := unlinked.fits
    rw [stack] at fits
    have same := filled.members?_eq
    refine unlinked.withStack (fits.of_cons.cons ?_ ?_ ?_)
    · rw [same]
      exact fits.inside top (by simp)
    · rw [same]
      exact fits.free top (by simp)
    · intro below member id found
      rw [same] at found
      exact (List.pairwise_cons.mp fits.ordered).1 below member id found
  asks _ _ unlinked := .of_queue unlinked rfl

theorem follows_modifyConstruct {id : NodeId} {change : Construct → Construct}
    (agrees : ∀ construct, draft.tree.construct? id = some construct →
      construct.Agrees (change construct)) :
    draft.Follows (draft.modifyConstruct id change) where
  sound sound :=
    { sound with
      accounts := by
        intro place kind gap
        have sameKind := fun construct found => (agrees construct found).kind
        have keeps := SchemaTree.Keeps.modifyConstruct sameKind
        obtain old | ⟨rfl, construct, found, gap⟩ :=
          SchemaTree.hasGap_modifyConstruct sameKind gap
        · exact sound.accounts old
        · obtain ⟨node, known, rfl⟩ :=
            SchemaTree.construct?_eq_some_iff.mp found
          exact sound.accounts (.construct known <|
            ((agrees _ found).hasGap gap).mono (keeps.isTemplate known)
              (keeps.isInGrouping known))
      nodes := SchemaTree.forall_node_modifyConstruct sound.nodes fun known =>
        have same := agrees _ <|
          SchemaTree.construct?_eq_some_iff.mpr ⟨_, known, rfl⟩
        (sound.nodes known).withConstruct same.kind same.typeAt same.bindings
      nested := sound.nested.modifyConstruct fun construct found =>
        (agrees construct found).kind
      known := fun id member => by
        rw [modifyConstruct, SchemaTree.size_modifyConstruct]
        exact sound.known id member }
  stack := .refl draft.stack
  keeps := .modifyConstruct fun construct found => (agrees construct found).kind
  unlinked _ _ unlinked := unlinked.modifyConstruct
    (fun construct found => (agrees construct found).typeAt)
    (fun construct found => (agrees construct found).target)
  asks _ _ unlinked := .of_queue unlinked rfl

theorem follows_modifyMetadata {id : NodeId} {change : Metadata → Metadata}
    (keeps : ∀ metadata, (change metadata).ifFeatures = metadata.ifFeatures) :
    draft.Follows (draft.modifyMetadata id change) where
  sound sound :=
    { sound with
      accounts := by
        intro place kind gap
        obtain old | ⟨rfl, node, known, gap⟩ :=
          SchemaTree.hasGap_modifyMetadata gap
        · exact sound.accounts old
        · cases gap with
          | ifFeature listed missing =>
              rw [keeps] at listed
              exact sound.accounts (.metadata known (.ifFeature listed missing))
      nodes := SchemaTree.forall_node_modifyMetadata sound.nodes fun known =>
        ⟨⟨(sound.nodes known).sound.typedef, (sound.nodes known).sound.types⟩,
          (sound.nodes known).unbound⟩
      nested := sound.nested.modifyMetadata id change
      known := fun id member => by
        rw [modifyMetadata, SchemaTree.size_modifyMetadata]
        exact sound.known id member }
  stack := .refl draft.stack
  keeps := .modifyMetadata draft.tree id change
  unlinked _ _ unlinked := unlinked.modifyMetadata
    (fun metadata => Nat.le_of_eq (congrArg List.length (keeps metadata)).symm)
    fun node known => by
      rw [keeps]
      exact (unlinked.nodes known).features
  asks _ _ unlinked := .of_queue unlinked rfl

/-- Writing into the holder, whichever part of it takes the text. -/
theorem fill_follows {frame : Frame → Option Frame}
    {construct : Construct → Option Construct}
    (filled : draft.fill statement frame construct = .ok result)
    (frames : ∀ top top', frame top = some top' →
      top.Becomes top' ∧ (top.IsSound → top'.IsSound))
    (constructs : ∀ holder holder', construct holder = some holder' →
      holder.Agrees holder') : draft.Follows result := by
  cases stack : draft.stack with
  | nil => simp [fill, FrameStack.top, stack] at filled
  | cons top rest =>
      simp only [fill, FrameStack.top, stack, bind_eq_ok_iff, Except.ok.injEq,
        exists_eq_left'] at filled
      split at filled
      next id =>
        split at filled
        next holder' written =>
          obtain rfl := pure_eq_ok_iff.mp filled
          obtain ⟨holder, found, written⟩ := Option.bind_eq_some_iff.mp written
          apply follows_modifyConstruct
          intro other known
          obtain rfl : holder = other := by simpa [found] using known
          exact constructs holder holder' written
        · simp at filled
      next =>
        split at filled
        next top' written =>
          obtain rfl := pure_eq_ok_iff.mp filled
          obtain ⟨becomes, content⟩ := frames top top' written
          exact follows_frame stack becomes content
        · simp at filled

theorem annotate_follows {frame : Frame → Option Frame}
    {accepts : ConstructKind → Bool} {change : Metadata → Metadata}
    (written : draft.annotate statement frame accepts change = .ok result)
    (frames : ∀ top top', frame top = some top' →
      top.Becomes top' ∧ (top.IsSound → top'.IsSound))
    (keeps : ∀ metadata, (change metadata).ifFeatures = metadata.ifFeatures) :
    draft.Follows result := by
  cases stack : draft.stack with
  | nil => simp [annotate, FrameStack.top, stack] at written
  | cons top rest =>
      simp only [annotate, FrameStack.top, stack, bind_eq_ok_iff,
        Except.ok.injEq, exists_eq_left'] at written
      split at written
      · split at written
        · obtain rfl := pure_eq_ok_iff.mp written
          exact follows_modifyMetadata keeps
        · simp at written
      · split at written
        next top' filled =>
          obtain rfl := pure_eq_ok_iff.mp written
          obtain ⟨becomes, content⟩ := frames top top' filled
          exact follows_frame stack becomes content
        · simp at written

theorem keeps_modifyHeader (id : NodeId)
    (change : ModuleHeader → ModuleHeader) :
    draft.tree.Keeps (draft.modifyHeader id change).tree :=
  .modifyConstruct fun construct _ => by cases construct <;> rfl

theorem modifyHeader_follows {id : NodeId}
    {change : ModuleHeader → ModuleHeader}
    (bindings : ∀ header, ∀ binding ∈ (change header).bindings,
      binding ∈ header.bindings ∨ binding = none) :
    draft.Follows (draft.modifyHeader id change) := by
  apply follows_modifyConstruct
  intro construct known
  cases construct with
  | module header => exact ⟨rfl, rfl, rfl, rfl, bindings header⟩
  | submodule header => exact ⟨rfl, rfl, rfl, rfl, bindings header⟩
  | _ => exact .refl _

theorem fillHeader_follows {change : ModuleHeader → ModuleHeader}
    (filled : draft.fillHeader statement change = .ok result)
    (bindings : ∀ header, ∀ binding ∈ (change header).bindings,
      binding ∈ header.bindings ∨ binding = none) :
    draft.Follows result := by
  simp only [fillHeader, bind_eq_ok_iff, pure_eq_ok_iff] at filled
  obtain ⟨id, _, rfl⟩ := filled
  exact modifyHeader_follows bindings

end Draft

end YangSchema
