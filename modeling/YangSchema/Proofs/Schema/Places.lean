import YangSchema.Proofs.Schema.Gaps

/-!
# Where the results of references are written

Every reference has one place for its result: the target of a `uses`, an
`augment` or an identity, one of the features of a node, or a type.  Most places
come into being with the reference that is written there.  The base of an
identity and the type of a node are different:  there only the number of
statements keeps a second reference from the same place.
-/

namespace YangSchema

/-- What the result of a reference is written to. -/
inductive LinkPlace where
  | uses (id : NodeId)
  | augment (id : NodeId)
  | base (id : NodeId)
  | feature (id : NodeId) (index : Nat)
  | type (slot : TypeSlot)
  deriving DecidableEq

namespace LinkPlace

def node : LinkPlace → NodeId
  | uses id | augment id | base id | feature id _ => id
  | type slot => slot.node

/-- Whether several statements could ask for the place. -/
def isRepeatable : LinkPlace → Bool
  | base _ => true
  | type slot => slot.member.isNone
  | _ => false

end LinkPlace

/-- The place of what a reference of a kind finds for its consumer. -/
def ReferenceKind.linkPlace (kind : ReferenceKind) (consumer : NodeId) :
    LinkPlace :=
  match kind with
  | .uses => .uses consumer
  | .augment => .augment consumer
  | .base => .base consumer
  | .ifFeature index => .feature consumer index
  | .derivedType slot | .identityref slot | .leafref slot => .type slot

def Reference.linkPlace (item : Reference) : LinkPlace :=
  item.kind.linkPlace item.consumer

theorem Reference.node_linkPlace (item : Reference) :
    item.linkPlace.node = item.place := by
  unfold linkPlace place
  cases item.kind <;> rfl

namespace SchemaTree

variable {before after tree : SchemaTree} {place : LinkPlace}

def featureAt? (tree : SchemaTree) (id : NodeId) (index : Nat) :
    Option IfFeature :=
  (tree.node? id).bind (·.metadata.ifFeatures[index]?)

/-- A place is there if its feature or its member of a union is; the others are
there with their node. -/
def HasPlace (tree : SchemaTree) : LinkPlace → Prop
  | .feature id index => (tree.featureAt? id index).isSome
  | .type ⟨id, some index⟩ => (tree.typeAt? ⟨id, some index⟩).isSome
  | place => place.node < tree.size

theorem hasPlace_of_isRepeatable (repeatable : place.isRepeatable = true) :
    tree.HasPlace place ↔ place.node < tree.size := by
  cases place with
  | type slot =>
      obtain ⟨id, member⟩ := slot
      cases member with
      | none => exact Iff.rfl
      | some index => simp [LinkPlace.isRepeatable] at repeatable
  | base id => exact Iff.rfl
  | _ => simp [LinkPlace.isRepeatable] at repeatable

/-- Places are kept by what keeps the types and the features. -/
theorem HasPlace.mono (there : before.HasPlace place)
    (types : ∀ slot, (before.typeAt? slot).isSome → (after.typeAt? slot).isSome)
    (features : ∀ id index, (before.featureAt? id index).isSome →
      (after.featureAt? id index).isSome)
    (grows : before.size ≤ after.size) : after.HasPlace place := by
  cases place with
  | feature id index => exact features id index there
  | type slot =>
      obtain ⟨id, member⟩ := slot
      cases member with
      | none => exact Nat.lt_of_lt_of_le there grows
      | some index => exact types _ there
  | _ => exact Nat.lt_of_lt_of_le there grows

theorem HasPlace.of_sameTypes (there : before.HasPlace place)
    (same : ∀ slot, after.typeAt? slot = before.typeAt? slot)
    (features : ∀ id index, (before.featureAt? id index).isSome →
      (after.featureAt? id index).isSome)
    (grows : before.size ≤ after.size) : after.HasPlace place :=
  there.mono (fun slot declared => same slot ▸ declared) features grows

theorem featureAt?_isSome_modifyConstruct {target : NodeId}
    {change : Construct → Construct} {id : NodeId} {index : Nat}
    (there : (tree.featureAt? id index).isSome) :
    ((tree.modifyConstruct target change).featureAt? id index).isSome := by
  unfold featureAt? at there ⊢
  rw [node?_modifyConstruct]
  split
  · cases found : tree.node? id with
    | none => simp [found] at there
    | some node => simpa [found] using there
  · exact there

theorem featureAt?_isSome_modifyMetadata {target : NodeId}
    {change : Metadata → Metadata}
    (more : ∀ metadata, metadata.ifFeatures.length ≤
      (change metadata).ifFeatures.length) {id : NodeId} {index : Nat}
    (there : (tree.featureAt? id index).isSome) :
    ((tree.modifyMetadata target change).featureAt? id index).isSome := by
  unfold featureAt? at there ⊢
  rw [node?_modifyMetadata]
  split
  · cases found : tree.node? id with
    | none => simp [found] at there
    | some node =>
        have inside : index < node.metadata.ifFeatures.length := by
          simpa [found] using there
        simpa using Nat.lt_of_lt_of_le inside (more node.metadata)
  · exact there

theorem featureAt?_isSome_of_keeps
    (nodes : ∀ id node, before.node? id = some node →
      after.node? id = some node) {id : NodeId} {index : Nat}
    (there : (before.featureAt? id index).isSome) :
    (after.featureAt? id index).isSome := by
  unfold featureAt? at there ⊢
  cases found : before.node? id with
  | none => simp [found] at there
  | some node => rwa [nodes id node found, ← found]

theorem featureAt?_isSome_addChild {parent : NodeId} {node : SchemaNode}
    {id : NodeId} {index : Nat} (there : (tree.featureAt? id index).isSome) :
    ((tree.addChild parent node).featureAt? id index).isSome := by
  refine featureAt?_isSome_of_keeps (fun id other found => ?_) there
  have old : id ≠ tree.size := Nat.ne_of_lt (lt_size_of_node? found)
  rw [node?_addChild, if_neg old, found]

theorem featureAt?_isSome_addRoot {node : SchemaNode} {id : NodeId}
    {index : Nat} (there : (tree.featureAt? id index).isSome) :
    ((tree.addRoot node).featureAt? id index).isSome := by
  refine featureAt?_isSome_of_keeps (fun id other found => ?_) there
  have old : id ≠ tree.size := Nat.ne_of_lt (lt_size_of_node? found)
  rw [node?_addRoot, if_neg old, found]

end SchemaTree

namespace ReferenceQueue

/-- How many references of a queue have a place for their result. -/
def asked (queue : ReferenceQueue) (place : LinkPlace) : Nat :=
  (queue.map (·.linkPlace)).count place

@[simp]
theorem asked_append (queue more : ReferenceQueue) (place : LinkPlace) :
    asked (queue ++ more) place = queue.asked place + more.asked place := by
  simp [asked]

theorem asked_eq_zero {queue : ReferenceQueue} {place : LinkPlace}
    (free : ∀ item ∈ queue, item.linkPlace ≠ place) :
    queue.asked place = 0 := by
  refine List.count_eq_zero.mpr fun listed => ?_
  obtain ⟨item, queued, same⟩ := List.mem_map.mp listed
  exact free item queued same

theorem asked_singleton (item : Reference) (place : LinkPlace) :
    asked [item] place = if item.linkPlace = place then 1 else 0 := by
  simp [asked, List.count_singleton]

end ReferenceQueue

end YangSchema
