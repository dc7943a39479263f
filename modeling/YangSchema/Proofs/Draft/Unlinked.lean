import YangSchema.Draft.Draft
import YangSchema.Proofs.Schema.Places

/-!
# Drafts before anything is linked

Until its unit ends a draft has no links, and its references are those that its
own statements make, each for a place that is there.  A node for the members of a type is named by one type at
most, which stands before it:  by a type that is still open or by one that has
moved into its holder.
-/

namespace YangSchema

/-- A node without links. -/
structure SchemaNode.IsUnlinked (node : SchemaNode) : Prop where
  target : node.construct.target? = none
  types : ∀ {member use}, node.construct.typeAt? member = some use →
    use.links = .none
  features : ∀ feature ∈ node.metadata.ifFeatures, feature.target = none

/-- A reference that a node of the tree makes itself. -/
structure Reference.IsOwn (item : Reference) (tree : SchemaTree) : Prop where
  own : item.origin = none
  pending : item.state = .unresolved
  consumer : item.consumer < tree.size
  place : item.place < tree.size

/-- The node for the members of a type that is open. -/
def Frame.members? : Frame → Option NodeId
  | .type use => use.members
  | _ => none

/-- The members of a type that is open are behind what is open below it, and
are those of no other type. -/
def Frame.IsAbove (above below : Frame) : Prop :=
  ∀ id, above.members? = some id →
    below.members? ≠ some id ∧ ∀ holder, below = .node holder → holder < id

namespace SchemaTree

/-- The types that are open have members which are not those of a type in the
tree. -/
structure Fits (tree : SchemaTree) (stack : FrameStack) : Prop where
  inside : ∀ frame ∈ stack, ∀ id, frame.members? = some id → id < tree.size
  free : ∀ frame ∈ stack, ∀ id, frame.members? = some id →
    ∀ slot, ¬ tree.HoldsMembers slot id
  ordered : stack.Pairwise Frame.IsAbove

end SchemaTree

structure Draft.IsUnlinked (draft : Draft) : Prop where
  nodes : ∀ {id node}, draft.tree.node? id = some node → node.IsUnlinked
  queued : ∀ item ∈ draft.queue, item.IsOwn draft.tree
  placed : ∀ item ∈ draft.queue, draft.tree.HasPlace item.linkPlace
  /-- A place that comes into being with its reference is that of no other. -/
  apart : ∀ place, place.isRepeatable = false → draft.queue.asked place ≤ 1
  members : draft.tree.HasApartMembers
  fits : draft.tree.Fits draft.stack
  deferred : ∀ id ∈ draft.deferredKeys, id < draft.tree.size

theorem Reference.IsOwn.of_size {item : Reference} {before after : SchemaTree}
    (own : item.IsOwn before) (grows : before.size ≤ after.size) :
    item.IsOwn after :=
  ⟨own.own, own.pending, Nat.lt_of_lt_of_le own.consumer grows,
    Nat.lt_of_lt_of_le own.place grows⟩

namespace SchemaTree

variable {before after : SchemaTree}

variable {stack : FrameStack}

theorem Fits.of_sameTypes (fits : before.Fits stack)
    (same : ∀ slot, after.typeAt? slot = before.typeAt? slot)
    (grows : before.size ≤ after.size) : after.Fits stack where
  inside frame member id found :=
    Nat.lt_of_lt_of_le (fits.inside frame member id found) grows
  free frame member id found slot holds :=
    fits.free frame member id found slot ((holdsMembers_congr same).mp holds)
  ordered := fits.ordered

variable {tree : SchemaTree}

theorem Fits.of_cons {frame : Frame} (fits : tree.Fits (frame :: stack)) :
    tree.Fits stack where
  inside other member := fits.inside other (List.mem_cons_of_mem frame member)
  free other member := fits.free other (List.mem_cons_of_mem frame member)
  ordered := (List.pairwise_cons.mp fits.ordered).2

theorem Fits.cons {frame : Frame} (fits : tree.Fits stack)
    (inside : ∀ id, frame.members? = some id → id < tree.size)
    (free : ∀ id, frame.members? = some id → ∀ slot, ¬ tree.HoldsMembers slot id)
    (above : ∀ below ∈ stack, frame.IsAbove below) :
    tree.Fits (frame :: stack) where
  inside := List.forall_mem_cons.mpr ⟨inside, fits.inside⟩
  free := List.forall_mem_cons.mpr ⟨free, fits.free⟩
  ordered := List.pairwise_cons.mpr ⟨above, fits.ordered⟩

/-- Only types can get in each other's way. -/
theorem Fits.push {frame : Frame} (fits : tree.Fits stack)
    (other : frame.members? = none) : tree.Fits (frame :: stack) :=
  fits.cons (by simp [other]) (by simp [other])
    fun below _ id found => by simp [other] at found

end SchemaTree

namespace Draft

variable {draft : Draft}

/-- A draft with another stack that fits. -/
theorem IsUnlinked.withStack (unlinked : draft.IsUnlinked) {stack : FrameStack}
    (fits : draft.tree.Fits stack) : IsUnlinked { draft with stack } :=
  { unlinked with fits }

/-- Nothing asks for a place that is not there. -/
theorem IsUnlinked.asked_eq_zero (unlinked : draft.IsUnlinked)
    {place : LinkPlace} (absent : ¬ draft.tree.HasPlace place) :
    draft.queue.asked place = 0 :=
  ReferenceQueue.asked_eq_zero fun item queued same =>
    absent (same ▸ unlinked.placed item queued)

/-- A reference can be queued for a place that nothing else asks for. -/
theorem IsUnlinked.asked_append_le (unlinked : draft.IsUnlinked)
    {added : ReferenceQueue} (single : added.length ≤ 1)
    (fresh : ∀ item ∈ added, item.linkPlace.isRepeatable = false →
      draft.queue.asked item.linkPlace = 0) (place : LinkPlace)
    (unique : place.isRepeatable = false) :
    ReferenceQueue.asked (draft.queue ++ added) place ≤ 1 := by
  have before := unlinked.apart place unique
  cases added with
  | nil => simpa using before
  | cons item rest =>
      obtain rfl : rest = [] := by simpa using single
      rw [ReferenceQueue.asked_append, ReferenceQueue.asked_singleton]
      split
      next same =>
        subst same
        have free := fresh item (List.mem_singleton_self item) unique
        omega
      · exact before

/-- A draft whose tree has the same types is as little linked if its nodes
are. -/
theorem IsUnlinked.of_sameTypes (unlinked : draft.IsUnlinked)
    {tree : SchemaTree} {added : ReferenceQueue}
    (same : ∀ slot, tree.typeAt? slot = draft.tree.typeAt? slot)
    (features : ∀ id index, (draft.tree.featureAt? id index).isSome →
      (tree.featureAt? id index).isSome)
    (grows : draft.tree.size ≤ tree.size)
    (nodes : ∀ {id node}, tree.node? id = some node → node.IsUnlinked)
    (own : ∀ item ∈ added, item.IsOwn tree)
    (placed : ∀ item ∈ added, tree.HasPlace item.linkPlace)
    (single : added.length ≤ 1)
    (fresh : ∀ item ∈ added, item.linkPlace.isRepeatable = false →
      draft.queue.asked item.linkPlace = 0) :
    IsUnlinked { draft with tree, queue := draft.queue ++ added } where
  nodes := nodes
  queued := List.forall_mem_append.mpr
    ⟨fun item member => (unlinked.queued item member).of_size grows, own⟩
  placed := List.forall_mem_append.mpr
    ⟨fun item member => (unlinked.placed item member).of_sameTypes same
      features grows, placed⟩
  apart := unlinked.asked_append_le single fresh
  members := unlinked.members.of_sameTypes same grows
  fits := unlinked.fits.of_sameTypes same grows
  deferred id listed := Nat.lt_of_lt_of_le (unlinked.deferred id listed) grows

theorem IsUnlinked.modifyConstruct (unlinked : draft.IsUnlinked) {id : NodeId}
    {change : Construct → Construct}
    (types : ∀ construct, draft.tree.construct? id = some construct →
      (change construct).typeAt? = construct.typeAt?)
    (target : ∀ construct, draft.tree.construct? id = some construct →
      (change construct).target? = construct.target?) :
    (draft.modifyConstruct id change).IsUnlinked := by
  have same := SchemaTree.typeAt?_modifyConstruct draft.tree types
  have sized : (draft.tree.modifyConstruct id change).size = draft.tree.size :=
    SchemaTree.size_modifyConstruct ..
  refine ⟨SchemaTree.forall_node_modifyConstruct unlinked.nodes ?_, ?_,
    fun item member => (unlinked.placed item member).of_sameTypes same
      (fun _ _ => SchemaTree.featureAt?_isSome_modifyConstruct)
      (Nat.le_of_eq sized.symm),
    unlinked.apart, unlinked.members.of_sameTypes same (Nat.le_of_eq sized.symm),
    unlinked.fits.of_sameTypes same (Nat.le_of_eq sized.symm),
    fun id listed => Nat.lt_of_lt_of_eq (unlinked.deferred id listed)
      sized.symm⟩
  · intro node known
    have found := SchemaTree.construct?_eq_some_iff.mpr ⟨node, known, rfl⟩
    have before := unlinked.nodes known
    exact
      { target := (target _ found).trans before.target
        types := fun declared => before.types (types _ found ▸ declared)
        features := before.features }
  · exact fun item member =>
      (unlinked.queued item member).of_size (Nat.le_of_eq sized.symm)

theorem IsUnlinked.modifyMetadata (unlinked : draft.IsUnlinked) {id : NodeId}
    {change : Metadata → Metadata}
    (more : ∀ metadata, metadata.ifFeatures.length ≤
      (change metadata).ifFeatures.length)
    (features : ∀ node, draft.tree.node? id = some node →
      ∀ feature ∈ (change node.metadata).ifFeatures, feature.target = none) :
    (draft.modifyMetadata id change).IsUnlinked := by
  have same := SchemaTree.typeAt?_modifyMetadata draft.tree id change
  have sized : (draft.tree.modifyMetadata id change).size = draft.tree.size :=
    SchemaTree.size_modifyMetadata ..
  refine ⟨SchemaTree.forall_node_modifyMetadata unlinked.nodes ?_, ?_,
    fun item member => (unlinked.placed item member).of_sameTypes same
      (fun _ _ => SchemaTree.featureAt?_isSome_modifyMetadata more)
      (Nat.le_of_eq sized.symm),
    unlinked.apart, unlinked.members.of_sameTypes same (Nat.le_of_eq sized.symm),
    unlinked.fits.of_sameTypes same (Nat.le_of_eq sized.symm),
    fun id listed => Nat.lt_of_lt_of_eq (unlinked.deferred id listed)
      sized.symm⟩
  · intro node known
    exact
      { target := (unlinked.nodes known).target
        types := (unlinked.nodes known).types
        features := features node known }
  · exact fun item member =>
      (unlinked.queued item member).of_size (Nat.le_of_eq sized.symm)

/-- One reference more of a node in the tree. -/
theorem IsUnlinked.enqueue (unlinked : draft.IsUnlinked) (statement : Statement)
    {kind : ReferenceKind} (text : String) {consumer : NodeId}
    (inside : consumer < draft.tree.size)
    (place : (kind.linkPlace consumer).node < draft.tree.size)
    (there : draft.tree.HasPlace (kind.linkPlace consumer))
    (fresh : (kind.linkPlace consumer).isRepeatable = false →
      draft.queue.asked (kind.linkPlace consumer) = 0) :
    (draft.enqueue statement kind text consumer).IsUnlinked := by
  refine unlinked.of_sameTypes (fun _ => rfl) (fun _ _ there => there)
    (Nat.le_refl _) unlinked.nodes (List.forall_mem_singleton.mpr ?_)
    (List.forall_mem_singleton.mpr there) (Nat.le_refl 1)
    (List.forall_mem_singleton.mpr fresh)
  exact ⟨rfl, rfl, inside, Reference.node_linkPlace _ ▸ place⟩

/-- A new node that names nothing, with the one reference that it makes. -/
theorem IsUnlinked.addNode (unlinked : draft.IsUnlinked) (statement : Statement)
    (parent : NodeId) {construct : Construct} (name : String)
    (bare : ∀ member, construct.typeAt? member = none)
    (target : construct.target? = none) {added : ReferenceQueue}
    (single : added.length ≤ 1)
    (own : ∀ item ∈ added, item.origin = none ∧ item.state = .unresolved ∧
      item.consumer = draft.nextId ∧
        (item.kind = .uses ∨ item.kind = .augment)) :
    IsUnlinked { draft.addNode statement parent construct name with
      queue := draft.queue ++ added } := by
  have size : (draft.addNode statement parent construct name).tree.size =
      draft.tree.size + 1 := SchemaTree.size_addChild ..
  have isNew (item : Reference) (member : item ∈ added) :
      item.linkPlace = .uses draft.nextId ∨
        item.linkPlace = .augment draft.nextId := by
    obtain ⟨-, -, consumer, kind⟩ := own item member
    unfold Reference.linkPlace
    rw [consumer]
    exact kind.imp (by simp [ReferenceKind.linkPlace, ·])
      (by simp [ReferenceKind.linkPlace, ·])
  refine unlinked.of_sameTypes
    (SchemaTree.typeAt?_addChild draft.tree bare)
    (fun _ _ => SchemaTree.featureAt?_isSome_addChild) ?_ ?_ ?_ ?_ single ?_
  · rw [size]
    exact Nat.le_succ _
  · refine SchemaTree.forall_node_addChild unlinked.nodes ⟨target, ?_, ?_⟩
    · intro member use declared
      exact absurd (declared.symm.trans (bare member)) (by simp)
    · simp [SchemaNode.ofConstruct, Metadata.empty]
  · intro item member
    obtain ⟨origin, pending, consumer, -⟩ := own item member
    refine ⟨origin, pending, ?_, ?_⟩
    · rw [consumer, size]
      exact Nat.lt_succ_self _
    · rw [← item.node_linkPlace, size]
      obtain new | new := isNew item member <;> rw [new] <;>
        exact Nat.lt_succ_self _
  · intro item member
    obtain new | new := isNew item member
    all_goals
      rw [new]
      exact Nat.lt_of_lt_of_eq (Nat.lt_succ_self _) size.symm
  · intro item member _
    refine unlinked.asked_eq_zero fun there => ?_
    obtain new | new := isNew item member <;> rw [new] at there <;>
      exact Nat.lt_irrefl _ there

/-- A first node that names nothing. -/
theorem IsUnlinked.addRoot (unlinked : draft.IsUnlinked) {node : SchemaNode}
    (bare : ∀ member, node.construct.typeAt? member = none)
    (target : node.construct.target? = none)
    (features : node.metadata.ifFeatures = []) :
    IsUnlinked { draft with tree := draft.tree.addRoot node } := by
  suffices added : IsUnlinked { draft with
      tree := draft.tree.addRoot node, queue := draft.queue ++ [] } by
    rwa [List.append_nil] at added
  refine unlinked.of_sameTypes (SchemaTree.typeAt?_addRoot draft.tree bare)
    (fun _ _ => SchemaTree.featureAt?_isSome_addRoot) ?_ ?_ (by simp) (by simp)
    (Nat.zero_le 1) (by simp)
  · rw [SchemaTree.size_addRoot]
    exact Nat.le_succ _
  · refine SchemaTree.forall_node_addRoot unlinked.nodes ⟨target, ?_, ?_⟩
    · intro member use declared
      exact absurd (declared.symm.trans (bare member)) (by simp)
    · simp [features]

theorem IsUnlinked.empty (source : SourceId) :
    (Draft.empty source).IsUnlinked where
  nodes found := by simp [Draft.empty, SchemaTree.empty, SchemaTree.node?] at found
  queued := by simp [Draft.empty]
  placed := by simp [Draft.empty]
  apart := by simp [Draft.empty, ReferenceQueue.asked]
  members := by
    have none (slot : TypeSlot) (id : NodeId) :
        ¬ (SchemaTree.empty source).HoldsMembers slot id := by
      rintro ⟨use, declared, -⟩
      obtain ⟨node, found, -⟩ := SchemaTree.typeAt?_eq_some_iff.mp declared
      simp [SchemaTree.empty, SchemaTree.node?] at found
    exact ⟨fun holds => absurd holds (none _ _), fun holds =>
      absurd holds (none _ _), fun holds => absurd holds (none _ _)⟩
  fits := ⟨by simp [Draft.empty], by simp [Draft.empty], .nil⟩
  deferred := by simp [Draft.empty]

end Draft

end YangSchema
