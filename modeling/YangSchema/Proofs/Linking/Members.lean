import Mathlib.Algebra.Order.BigOperators.Group.List
import Mathlib.Algebra.Order.Group.Nat
import Mathlib.Logic.Relation
import YangSchema.Proofs.Linking.Derivations

/-!
# The members of unions

A member of a union may be a union itself, whose members stand in a node of their
own.  Such a node is that of one type and stands behind it, so unions are nested
less deep than there are nodes, and no member is met twice.  That bounds the
references that a union can bring in by the number of its members.
-/

namespace YangSchema

/-- How many members a construct has if it is a union. -/
def Construct.memberCount : Construct → Nat
  | .union members => members.length
  | _ => 0

theorem Linking.typeCount_eq (node : SchemaNode) :
    typeCount node = node.construct.memberCount + 1 := by
  unfold typeCount Construct.memberCount
  split <;> simp_all

theorem Construct.lt_memberCount_iff {construct : Construct} {member : Nat} :
    member < construct.memberCount ↔
      (construct.typeAt? (some member)).isSome = true := by
  cases construct <;> simp [memberCount, typeAt?]

namespace Scene

variable {scene : Scene}

/-- The members of all unions. -/
def slots (scene : Scene) : List (NodeRef × Nat) :=
  scene.units.flatMap fun unit =>
    unit.tree.nodes.toList.zipIdx.flatMap fun entry =>
      (List.range entry.1.construct.memberCount).map fun member =>
        (⟨unit.source, entry.2⟩, member)

/-- Every node has a type of its own besides its members. -/
theorem length_slots (scene : Scene) :
    scene.slots.length + scene.nodeCount = Linking.typeTotal scene.units := by
  have each (nodes : List SchemaNode) :
      (nodes.map Linking.typeCount).sum =
        (nodes.map (·.construct.memberCount)).sum + nodes.length := by
    induction nodes with
    | nil => rfl
    | cons node rest ih =>
        simp only [List.map_cons, List.sum_cons, List.length_cons, ih,
          Linking.typeCount_eq]
        omega
  have members (nodes : List SchemaNode) :
      (nodes.zipIdx.map fun entry => entry.1.construct.memberCount) =
        nodes.map (·.construct.memberCount) := by
    have first := congrArg (List.map (·.construct.memberCount))
      (List.zipIdx_map_fst 0 nodes)
    rwa [List.map_map] at first
  unfold slots nodeCount Linking.typeTotal
  generalize scene.units = units
  simp only [foldl_add_eq, Nat.zero_add, List.length_flatMap, List.length_map,
    List.length_range, members]
  induction units with
  | nil => rfl
  | cons unit rest ih =>
      simp only [each, SchemaTree.size, List.map_cons, List.sum_cons,
        List.flatMap_cons, List.map_append, List.sum_append,
        Array.length_toList] at ih ⊢
      omega

theorem mem_slots {union : NodeRef} {members : List TypeUse} {member : Nat}
    (isUnion : scene.construct? union = some (.union members))
    (inside : member < members.length) : (union, member) ∈ scene.slots := by
  obtain ⟨node, known, construct⟩ := Option.map_eq_some_iff.mp isUnion
  obtain ⟨tree, isTree, known⟩ := Option.bind_eq_some_iff.mp known
  obtain ⟨unit, listed, rfl, source⟩ := tree?_mem isTree
  refine List.mem_flatMap.mpr ⟨unit, listed, List.mem_flatMap.mpr
    ⟨(node, union.node), List.mk_mem_zipIdx_iff_getElem?.mpr ?_,
      List.mem_map.mpr ⟨member, List.mem_range.mpr ?_, by rw [source]⟩⟩⟩
  · simpa [SchemaTree.node?] using known
  · simpa [construct, Construct.memberCount] using inside

/-- A union is searched for its members, and then one of these. -/
inductive MemberCalls (scene : Scene) : NodeRef → NodeRef → Prop
  | nested {union : NodeRef} {members : List TypeUse} {member : Nat}
      {use : TypeUse} {nested : NodeId}
      (isUnion : scene.construct? union = some (.union members))
      (listed : members[member]? = some use)
      (builtin : use.builtin = some .union)
      (inNode : use.members = some nested) :
      MemberCalls scene union ⟨union.source, nested⟩

/-- The members of a type that is a union, as they are written at a place. -/
def unionOf? (place : NodeRef) (use : TypeUse) : Option NodeRef :=
  if use.builtin = some .union then
    use.members.map fun id => ⟨place.source, id⟩
  else
    none

theorem unionOf?_eq_some_iff {place union : NodeRef} {use : TypeUse} :
    unionOf? place use = some union ↔ use.builtin = some .union ∧
      ∃ id, use.members = some id ∧ (⟨place.source, id⟩ : NodeRef) = union := by
  simp [unionOf?, Option.map_eq_some_iff]

/-- The members of a union and of the unions among them. -/
def memberSlots (scene : Scene) : Nat → NodeRef → List (NodeRef × Nat)
  | 0, _ => []
  | bound + 1, union =>
      match scene.construct? union with
      | some (.union members) =>
          members.zipIdx.flatMap fun (use, member) =>
            (union, member) ::
              (unionOf? union use).elim [] (memberSlots scene bound)
      | _ => []

theorem memberReferences_add {item : Reference} {slot : TypeSlot}
    {typedefs : List NodeRef} {bound : Nat} {union : NodeRef}
    (ends : EndsWithin scene.MemberCalls bound union) (more : Nat) :
    scene.memberReferences item slot typedefs (bound + more) union =
      scene.memberReferences item slot typedefs bound union := by
  induction bound generalizing union with
  | zero => cases ends
  | succ bound ih =>
      rw [Nat.add_right_comm]
      unfold memberReferences
      split
      next members isUnion =>
        refine List.flatMap_congr fun ⟨use, member⟩ listed => ?_
        dsimp only
        split
        next nested builtin inNode =>
          exact ih (ends.next (.nested isUnion
            (List.mk_mem_zipIdx_iff_getElem?.mp listed) builtin inNode))
        · rfl
        · rfl
      · rfl

theorem memberSlots_add {bound : Nat} {union : NodeRef}
    (ends : EndsWithin scene.MemberCalls bound union) (more : Nat) :
    scene.memberSlots (bound + more) union = scene.memberSlots bound union := by
  induction bound generalizing union with
  | zero => cases ends
  | succ bound ih =>
      rw [Nat.add_right_comm]
      unfold memberSlots
      split
      next members isUnion =>
        refine List.flatMap_congr fun ⟨use, member⟩ listed => ?_
        refine congrArg ((union, member) :: ·) ?_
        cases inside : unionOf? union use with
        | none => rfl
        | some nested =>
            obtain ⟨builtin, id, inNode, rfl⟩ := unionOf?_eq_some_iff.mp inside
            exact ih (ends.next (.nested isUnion
              (List.mk_mem_zipIdx_iff_getElem?.mp listed) builtin inNode))
      · rfl

/-- A union brings in one reference for each of its members at most. -/
theorem length_memberReferences_le {item : Reference} {slot : TypeSlot}
    {typedefs : List NodeRef} {bound : Nat} {union : NodeRef} :
    (scene.memberReferences item slot typedefs bound union).length ≤
      (scene.memberSlots bound union).length := by
  induction bound generalizing union with
  | zero => exact Nat.le_refl 0
  | succ bound ih =>
      unfold memberReferences memberSlots
      rcases scene.construct? union with _ | construct
      · exact Nat.zero_le _
      cases construct with
      | union members =>
          simp only [List.length_flatMap]
          refine List.sum_le_sum fun entry _ => ?_
          obtain ⟨use, member⟩ := entry
          dsimp only
          split
          next nested builtin inNode =>
            simpa [unionOf?, builtin, inNode] using Nat.le_succ_of_le ih
          · exact Nat.zero_le _
          · refine Nat.le_trans ?_ (Nat.le_add_left 1 _)
            exact Option.length_toList_le
      | _ => exact Nat.zero_le _

/-- The nodes for members at a source are apart. -/
def IsApartAt (scene : Scene) (source : SourceId) : Prop :=
  ∀ tree, scene.tree? source = some tree → tree.HasApartMembers

theorem exists_holdsMembers {union : NodeRef} {members : List TypeUse}
    {member : Nat} {use : TypeUse} {nested : NodeId}
    (isUnion : scene.construct? union = some (.union members))
    (listed : members[member]? = some use)
    (inNode : use.members = some nested) :
    ∃ tree, scene.tree? union.source = some tree ∧
      tree.HoldsMembers ⟨union.node, some member⟩ nested := by
  obtain ⟨node, known, construct⟩ := Option.map_eq_some_iff.mp isUnion
  obtain ⟨tree, isTree, known⟩ := Option.bind_eq_some_iff.mp known
  refine ⟨tree, isTree, use, ?_, inNode⟩
  exact SchemaTree.typeAt?_eq_some_iff.mpr ⟨node, known, by
    simpa [construct, Construct.typeAt?] using listed⟩

namespace MemberCalls

variable {union other nested : NodeRef}

theorem holds (call : scene.MemberCalls union nested) :
    nested.source = union.source ∧ ∃ tree member,
      scene.tree? union.source = some tree ∧
        tree.HoldsMembers ⟨union.node, some member⟩ nested.node := by
  cases call with
  | nested isUnion listed builtin inNode =>
      obtain ⟨tree, isTree, holds⟩ :=
        exists_holdsMembers isUnion listed inNode
      exact ⟨rfl, tree, _, isTree, holds⟩

theorem later (call : scene.MemberCalls union nested)
    (apart : scene.IsApartAt union.source) : union.node < nested.node := by
  obtain ⟨-, tree, member, isTree, holds⟩ := call.holds
  exact (apart tree isTree).later holds

/-- A union that is a member is that of one union. -/
theorem unique (call : scene.MemberCalls union nested)
    (call' : scene.MemberCalls other nested)
    (apart : scene.IsApartAt union.source) : union = other := by
  obtain ⟨source, tree, member, isTree, holds⟩ := call.holds
  obtain ⟨source', tree', member', isTree', holds'⟩ := call'.holds
  have sources : other.source = union.source := source'.symm.trans source
  rw [sources, isTree] at isTree'
  obtain rfl := Option.some.inj isTree'
  have slots := (apart tree isTree).single holds holds'
  have nodes : union.node = other.node := congrArg TypeSlot.node slots
  cases union
  cases other
  simp_all

end MemberCalls

/-- Unions are nested less deep than there are nodes in their tree. -/
theorem members_endsWithin_size {union : NodeRef} {tree : SchemaTree}
    (isTree : scene.tree? union.source = some tree)
    (apart : tree.HasApartMembers) :
    EndsWithin scene.MemberCalls (tree.size + 1) union := by
  refine .of_measure (fun union => scene.tree? union.source = some tree)
    (fun union => tree.size - union.node) ?_ isTree
    (Nat.lt_succ_of_le (Nat.sub_le _ _))
  intro union nested isTree call
  obtain ⟨source, tree', member, isTree', holds⟩ := call.holds
  obtain rfl := Option.some.inj (isTree.symm.trans isTree')
  have later := apart.later holds
  exact ⟨source ▸ isTree,
    Nat.sub_lt_sub_left (Nat.lt_trans later (apart.inside holds)) later⟩

/-- Unions are nested less deep than there are nodes. -/
theorem members_endsWithin {union : NodeRef}
    (apart : scene.IsApartAt union.source) :
    EndsWithin scene.MemberCalls (scene.nodeCount + 1) union := by
  cases isTree : scene.tree? union.source with
  | none =>
      refine .intro fun nested call => ?_
      obtain ⟨-, tree, -, isTree', -⟩ := call.holds
      simp [isTree] at isTree'
  | some tree =>
      exact (members_endsWithin_size isTree (apart tree isTree)).mono
        (Nat.succ_le_succ (size_le_nodeCount isTree))

theorem mem_memberSlots {bound : Nat} {union : NodeRef}
    {slot : NodeRef × Nat} (listed : slot ∈ scene.memberSlots bound union) :
    Relation.ReflTransGen scene.MemberCalls union slot.1 ∧
      slot ∈ scene.slots := by
  induction bound generalizing union with
  | zero => simp [memberSlots] at listed
  | succ bound ih =>
      unfold memberSlots at listed
      split at listed
      next members isUnion =>
        obtain ⟨⟨use, member⟩, atPlace, listed⟩ := List.mem_flatMap.mp listed
        have found := List.mk_mem_zipIdx_iff_getElem?.mp atPlace
        obtain rfl | listed := List.mem_cons.mp listed
        · exact ⟨.refl, mem_slots isUnion
            (List.getElem?_eq_some_iff.mp found).1⟩
        · cases inside : unionOf? union use with
          | none => simp [inside] at listed
          | some nested =>
              obtain ⟨builtin, id, inNode, rfl⟩ :=
                unionOf?_eq_some_iff.mp inside
              rw [inside] at listed
              obtain ⟨reached, among⟩ := ih listed
              exact ⟨.head (.nested isUnion found builtin inNode) reached,
                among⟩
      · simp at listed

section

variable {source : SourceId} (apart : scene.IsApartAt source)
include apart

theorem source_of_reaches {union nested : NodeRef}
    (reaches : Relation.ReflTransGen scene.MemberCalls union nested)
    (atSource : union.source = source) :
    nested.source = source ∧ union.node ≤ nested.node := by
  induction reaches with
  | refl => exact ⟨atSource, Nat.le_refl _⟩
  | tail _ call ih =>
      obtain ⟨same, before⟩ := ih
      have later := call.later (same ▸ apart)
      exact ⟨call.holds.1.trans same, Nat.le_trans before (Nat.le_of_lt later)⟩

/-- No union contains the one that it is a member of. -/
theorem not_reaches_back {union nested : NodeRef}
    (atSource : union.source = source)
    (call : scene.MemberCalls union nested) :
    ¬ Relation.ReflTransGen scene.MemberCalls nested union := by
  intro reaches
  have back := (source_of_reaches apart reaches
    (call.holds.1.trans atSource)).2
  exact Nat.not_lt.mpr back (call.later (atSource ▸ apart))

/-- What can be reached from two members of a union is reached from one. -/
theorem reaches_unique {union nested nested' node : NodeRef}
    (atSource : union.source = source)
    (call : scene.MemberCalls union nested)
    (call' : scene.MemberCalls union nested')
    (reaches : Relation.ReflTransGen scene.MemberCalls nested node)
    (reaches' : Relation.ReflTransGen scene.MemberCalls nested' node) :
    nested = nested' := by
  have only {other inner : NodeRef} (call : scene.MemberCalls union inner)
      (another : scene.MemberCalls other inner) : union = other :=
    call.unique another (atSource ▸ apart)
  induction reaches with
  | refl =>
      cases reaches' with
      | refl => rfl
      | tail reaches' last =>
          obtain rfl := only call last
          exact absurd reaches' (not_reaches_back apart atSource call')
  | @tail inner node reaches last ih =>
      cases reaches' with
      | refl =>
          obtain rfl := only call' last
          exact absurd reaches (not_reaches_back apart atSource call)
      | @tail inner' _ reaches' last' =>
          have same := last.unique last' <| by
            rw [(source_of_reaches apart reaches
              (call.holds.1.trans atSource)).1]
            exact apart
          subst same
          exact ih reaches'

/-- No member of a union is met twice. -/
theorem nodup_memberSlots {bound : Nat} {union : NodeRef}
    (atSource : union.source = source) :
    (scene.memberSlots bound union).Nodup := by
  induction bound generalizing union with
  | zero => exact List.nodup_nil
  | succ bound ih =>
      unfold memberSlots
      split
      next members isUnion =>
        have places : members.zipIdx.Pairwise
            fun entry entry' => entry.2 ≠ entry'.2 := by
          rw [← List.pairwise_map, List.zipIdx_map_snd]
          exact List.nodup_range'
        have call {use : TypeUse} {member : Nat} {nested : NodeRef}
            (atPlace : (use, member) ∈ members.zipIdx)
            (inside : unionOf? union use = some nested) :
            scene.MemberCalls union nested := by
          obtain ⟨builtin, id, inNode, rfl⟩ := unionOf?_eq_some_iff.mp inside
          exact .nested isUnion (List.mk_mem_zipIdx_iff_getElem?.mp atPlace)
            builtin inNode
        refine List.nodup_flatMap.mpr ⟨fun ⟨use, member⟩ atPlace => ?_,
          places.imp_of_mem ?_⟩
        · dsimp only
          cases inside : unionOf? union use with
          | none => exact List.nodup_singleton _
          | some nested =>
              refine List.nodup_cons.mpr ⟨fun listed => ?_, ih ?_⟩
              · exact not_reaches_back apart atSource (call atPlace inside)
                  (mem_memberSlots listed).1
              · exact (call atPlace inside).holds.1.trans atSource
        · -- A slot below two members would be below one union.
          have below {entry : TypeUse × Nat} (atPlace : entry ∈ members.zipIdx)
              {slot : NodeRef × Nat}
              (listed : slot ∈ (union, entry.2) ::
                (unionOf? union entry.1).elim [] (scene.memberSlots bound)) :
              slot = (union, entry.2) ∨ ∃ nested : NodeRef,
                scene.MemberCalls union nested ∧
                entry.1.members = some nested.node ∧
                Relation.ReflTransGen scene.MemberCalls nested slot.1 := by
            obtain ⟨use, member⟩ := entry
            refine (List.mem_cons.mp listed).imp id fun listed => ?_
            cases inside : unionOf? union use with
            | none => simp [inside] at listed
            | some nested =>
                obtain ⟨builtin, id, inNode, rfl⟩ :=
                  unionOf?_eq_some_iff.mp inside
                rw [inside] at listed
                exact ⟨_, call atPlace inside, inNode,
                  (mem_memberSlots listed).1⟩
          intro entry entry' atPlace atPlace' other slot listed listed'
          obtain rfl | ⟨nested, call, inNode, reaches⟩ := below atPlace listed
          · obtain same | ⟨nested', call', -, reaches'⟩ :=
              below atPlace' listed'
            · exact other (Prod.mk.inj same).2
            · exact not_reaches_back apart atSource call' reaches'
          · obtain rfl | ⟨nested', call', inNode', reaches'⟩ :=
              below atPlace' listed'
            · exact not_reaches_back apart atSource call reaches
            · obtain rfl :=
                reaches_unique apart atSource call call' reaches reaches'
              obtain ⟨tree, isTree, holds⟩ := exists_holdsMembers isUnion
                (List.mk_mem_zipIdx_iff_getElem?.mp atPlace) inNode
              obtain ⟨tree', isTree', holds'⟩ := exists_holdsMembers isUnion
                (List.mk_mem_zipIdx_iff_getElem?.mp atPlace') inNode'
              obtain rfl := Option.some.inj (isTree.symm.trans isTree')
              have same := (apart tree (atSource ▸ isTree)).single holds holds'
              exact other (by simpa using same)
      · exact List.nodup_nil

/-- There are no more members below a union than in the scene. -/
theorem length_memberSlots_le {bound : Nat} {union : NodeRef}
    (atSource : union.source = source) :
    (scene.memberSlots bound union).length ≤ scene.slots.length :=
  ((nodup_memberSlots apart atSource).subperm fun _ listed =>
    (mem_memberSlots listed).2).length_le

end

end Scene

end YangSchema
