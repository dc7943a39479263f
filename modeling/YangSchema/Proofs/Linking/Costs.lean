import Mathlib.Algebra.Group.Action.Defs
import Mathlib.Algebra.Order.BigOperators.Group.List
import YangSchema.Proofs.Linking.Members
import YangSchema.Proofs.Linking.Running

/-!
# What is still to be settled

A pending reference counts with all references that can come from it.  A derived
type brings in one for each member of a union at most, and these have expanded one
typedef more;  no typedef is expanded twice on the way to a reference.  So what an
outcome brings in counts less than the reference that it settles, and with every
outcome that is written down less is left to be settled.
-/

namespace YangSchema

/-- What comes from a pending reference, at most, and that reference itself. -/
def Reference.cost (base : List LinkUnit) (item : Reference) : Nat :=
  if item.isPending then
    match item.kind with
    | .derivedType _ => Linking.weight base item
    | _ => 1
  else
    0

def ReferenceQueue.cost (base : List LinkUnit) (queue : ReferenceQueue) : Nat :=
  (queue.map (·.cost base)).sum

/-- No typedef is expanded twice on the way to a reference. -/
def LinkUnit.ExpandsOnce (unit : LinkUnit) : Prop :=
  ∀ item ∈ unit.queue, (Scene.expandedTypedefs item).Nodup

/-- What an outcome brings in costs less than the reference that it settles. -/
inductive Reference.Affords (base : List LinkUnit) (item : Reference) :
    Outcome → Prop
  | blocked : Affords base item .blocked
  | failed (failure : LinkFailure) : Affords base item (.failed failure)
  | target (target : NodeRef) : Affords base item (.target target)
  | derived {slot : TypeSlot} {derivation : Derivation}
      {members : List Reference} (kind : item.kind = .derivedType slot)
      (less : ReferenceQueue.cost base members + 1 < item.cost base) :
      Affords base item (.derived derivation members)

namespace Linking

variable {before after base units : List LinkUnit}

/-- What is still to be settled in all units. -/
def cost (base units : List LinkUnit) : Nat :=
  (units.map (·.queue.cost base)).sum

/-- Linking does not change how many members a union has. -/
theorem typeCount_eq_of_text {node node' : SchemaNode}
    (same : node'.text = node.text) : typeCount node' = typeCount node := by
  rw [typeCount_eq, typeCount_eq, Nat.add_right_cancel_iff]
  refine eq_of_forall_lt_iff fun member => ?_
  have types := congrFun (congrArg NodeText.typeAt? same) (some member)
  have isSome := congrArg Option.isSome types
  simp only [SchemaNode.text, Option.isSome_map] at isSome
  rw [Construct.lt_memberCount_iff, Construct.lt_memberCount_iff, isSome]

theorem map_typeCount_eq {tree tree' : SchemaTree} (same : tree.SameText tree') :
    tree'.nodes.toList.map typeCount = tree.nodes.toList.map typeCount := by
  refine List.ext_getElem? fun id => ?_
  have text := same.text id
  simp only [SchemaTree.node?, ← Array.getElem?_toList] at text
  simp only [List.getElem?_map]
  cases found : tree.nodes.toList[id]? with
  | none =>
      rw [found] at text
      rw [Option.map_eq_none_iff.mp text]
  | some node =>
      rw [found] at text
      obtain ⟨node', found', same⟩ := Option.map_eq_some_iff.mp text
      rw [found']
      exact congrArg some (typeCount_eq_of_text same)

/-- What linking does not change about the units one by one it does not change
about their list. -/
theorem Evolves.map_eq {β : Type} (evolves : Evolves before after)
    (view : LinkUnit → β)
    (each : ∀ {unit unit' : LinkUnit}, unit.Evolves unit' →
      view unit' = view unit) : after.map view = before.map view := by
  refine List.ext_getElem? fun place => ?_
  simp only [List.getElem?_map]
  cases found : before[place]? with
  | none =>
      have outside : after[place]? = none := by
        rw [List.getElem?_eq_none_iff] at found ⊢
        rwa [evolves.length]
      rw [outside]
  | some unit =>
      obtain ⟨unit', found', evolved⟩ := evolves.unit found
      rw [found']
      exact congrArg some (each evolved)

theorem typeTotal_eq (evolves : Evolves before after) :
    typeTotal after = typeTotal before := by
  have counts := congrArg List.flatten
    (evolves.map_eq (·.tree.nodes.toList.map typeCount)
      fun evolved => map_typeCount_eq evolved.text)
  have total (units : List LinkUnit) : typeTotal units =
      (units.map (·.tree.nodes.toList.map typeCount)).flatten.sum := by
    rw [typeTotal, foldl_add_eq, Nat.zero_add, List.map_flatMap,
      List.flatMap_def]
  rw [total, total, counts]

theorem nodeTotal_eq (evolves : Evolves before after) :
    nodeTotal after = nodeTotal before := by
  have sizes := evolves.map_eq (·.tree.size)
    fun evolved => evolved.text.outline.size_eq
  simp only [nodeTotal, foldl_add_eq, sizes]

theorem weight_eq (evolves : Evolves before after) (item : Reference) :
    weight after item = weight before item := by
  simp only [weight, typeTotal_eq evolves, nodeTotal_eq evolves]

theorem weight_pos (base : List LinkUnit) (item : Reference) :
    0 < weight base item :=
  Nat.pow_pos (Nat.succ_pos _)

end Linking

namespace Reference

variable {base : List LinkUnit} {item : Reference}

theorem cost_eq {before after : List LinkUnit}
    (evolves : Linking.Evolves before after) (item : Reference) :
    item.cost after = item.cost before := by
  unfold cost
  simp only [Linking.weight_eq evolves]

theorem cost_pos (pending : item.isPending = true) : 0 < item.cost base := by
  unfold cost
  rw [if_pos pending]
  split
  · exact Linking.weight_pos base item
  · exact Nat.one_pos

theorem cost_le_weight (item : Reference) :
    item.cost base ≤ Linking.weight base item := by
  have positive := Linking.weight_pos base item
  unfold cost
  split
  · split
    · exact Nat.le_refl _
    · exact positive
  · exact Nat.zero_le _

theorem cost_withState {state : ReferenceState} (settled : state ≠ .unresolved) :
    Reference.cost base { item with state } = 0 := by
  simp [cost, isPending, settled]

end Reference

namespace ReferenceQueue

variable {base : List LinkUnit}

theorem cost_append (base : List LinkUnit) (front back : ReferenceQueue) :
    cost base (front ++ back) = cost base front + cost base back := by
  simp [cost]

theorem cost_filter_le (keep : Reference → Bool) (queue : ReferenceQueue) :
    cost base (queue.filter keep) ≤ cost base queue :=
  (List.filter_sublist.map _).sum_le_sum fun _ _ => Nat.zero_le _

variable (base) in
/-- Settling a reference takes what it costs and adds what it brings in. -/
theorem cost_setState {queue : ReferenceQueue} {index : Nat} {item : Reference}
    {state : ReferenceState} (found : queue[index]? = some item)
    (settled : state ≠ .unresolved) (more : ReferenceQueue) :
    cost base (setState (queue ++ more) index state) + item.cost base =
      cost base queue + cost base more := by
  obtain ⟨front, back, split, changed⟩ := setState_split found
  rw [changed, split]
  simp only [cost, List.map_append, List.map_cons, List.sum_append,
    List.sum_cons, Reference.cost_withState settled]
  omega

end ReferenceQueue

namespace LinkUnit

variable {base : List LinkUnit} {unit : LinkUnit} {item : Reference}
  {index : Nat} {outcome : Outcome}

theorem cost_followUps_le {tree : SchemaTree} {slot : TypeSlot}
    {derivation : Derivation} {members : List Reference} :
    ReferenceQueue.cost base (followUps tree item slot derivation members) ≤
      ReferenceQueue.cost base members + 1 := by
  refine Nat.le_trans (ReferenceQueue.cost_filter_le _ _) ?_
  rw [ReferenceQueue.cost_append, Nat.add_le_add_iff_left]
  unfold chainLeafref
  split
  · exact Nat.zero_le 1
  · simp [ReferenceQueue.cost, Reference.cost, Reference.ofText,
      Reference.isPending]

/-- With an outcome that is written down less is left to be settled. -/
theorem cost_apply_lt (found : unit.queue[index]? = some item)
    (pending : item.isPending = true) (affords : item.Affords base outcome) :
    (unit.apply index outcome).queue.cost base < unit.queue.cost base := by
  have positive : 0 < item.cost base := Reference.cost_pos pending
  have alone {state : ReferenceState} (settled : state ≠ .unresolved) :
      (unit.queue.setState index state).cost base < unit.queue.cost base := by
    have total := ReferenceQueue.cost_setState base found settled []
    rw [List.append_nil] at total
    simp only [ReferenceQueue.cost, List.map_nil, List.sum_nil] at total ⊢
    omega
  simp only [apply, found]
  cases affords with
  | blocked => exact alone (by simp)
  | failed failure => exact alone (by simp)
  | target target => exact alone (by simp)
  | @derived slot derivation members kind less =>
      rw [kind]
      have settled : ReferenceState.resolved derivation.typedef ≠
          .unresolved := by simp
      have total := ReferenceQueue.cost_setState base found settled
        (followUps (bindDerivation unit.tree item slot derivation) item slot
          derivation members)
      have brought : ReferenceQueue.cost base
          (followUps (bindDerivation unit.tree item slot derivation) item slot
            derivation members) ≤ _ :=
        cost_followUps_le
      dsimp only
      omega

theorem expandedTypedefs_chainLeafref {slot : TypeSlot}
    {derivation : Derivation} {reference : Reference}
    (made : reference ∈ chainLeafref item slot derivation) :
    Scene.expandedTypedefs reference = Scene.expandedTypedefs item := by
  unfold chainLeafref at made
  split at made
  · simp at made
  · obtain rfl := List.mem_singleton.mp made
    rfl

theorem expandsOnce_setState {tree : SchemaTree} {queue : ReferenceQueue}
    (once : ∀ item ∈ queue, (Scene.expandedTypedefs item).Nodup)
    (state : ReferenceState) :
    ExpandsOnce { unit with tree, queue := queue.setState index state } := by
  intro item queued
  obtain ⟨place, found⟩ := List.mem_iff_getElem?.mp queued
  rw [ReferenceQueue.getElem?_setState] at found
  split at found
  · obtain ⟨old, known, rfl⟩ := Option.map_eq_some_iff.mp found
    exact once old (List.mem_of_getElem? known)
  · exact once item (List.mem_of_getElem? found)

theorem ExpandsOnce.apply (once : unit.ExpandsOnce)
    (members : ∀ member ∈ outcome.members,
      (Scene.expandedTypedefs member).Nodup) :
    (unit.apply index outcome).ExpandsOnce := by
  unfold LinkUnit.apply
  split
  · exact once
  next item found =>
    cases outcome with
    | pending => exact once
    | blocked | failed failure => exact expandsOnce_setState once _
    | target target => exact expandsOnce_setState once _
    | derived derivation made =>
        dsimp only
        split
        next slot kind =>
          refine expandsOnce_setState (List.forall_mem_append.mpr
            ⟨once, fun reference listed => ?_⟩) _
          obtain member | chained :=
            List.mem_append.mp (List.mem_filter.mp listed).1
          · exact members reference member
          · rw [expandedTypedefs_chainLeafref chained]
            exact once item (List.mem_of_getElem? found)
        · exact once

end LinkUnit

namespace Scene

variable {scene : Scene} {source : SourceId} {item : Reference}

theorem expandedTypedefs_memberReferences {slot : TypeSlot}
    {typedefs : List NodeRef} {bound : Nat} {union : NodeRef}
    {reference : Reference}
    (made : reference ∈ scene.memberReferences item slot typedefs bound union) :
    expandedTypedefs reference = typedefs := by
  obtain ⟨_, _, _, made⟩ := memberReferences_made made
  obtain ⟨-, -, -, origin⟩ := memberReference?_eq_some made
  simp [expandedTypedefs, origin]

/-- The references for the members of a union have expanded one typedef more. -/
theorem expandedTypedefs_unionReferences {slot : TypeSlot} {typedef : NodeRef}
    {members : List Reference}
    (made : scene.unionReferences item slot typedef = .ok members) :
    typedef ∉ expandedTypedefs item ∧ ∀ member ∈ members,
      expandedTypedefs member = expandedTypedefs item ++ [typedef] := by
  unfold unionReferences at made
  dsimp only at made
  split at made
  · simp at made
  next fresh =>
    refine ⟨by simpa using fresh, ?_⟩
    split at made
    · obtain rfl : [] = members := by simpa using made
      simp
    · obtain rfl := Except.ok.inj made
      exact fun member => expandedTypedefs_memberReferences

/-- The references that an outcome brings in expand no typedef twice. -/
theorem outcome_expandsOnce (once : (expandedTypedefs item).Nodup) :
    ∀ member ∈ (scene.outcome source item).members,
      (expandedTypedefs member).Nodup := by
  unfold outcome
  split
  next outcome found =>
    cases lookupReference_found found with
    | derived kind written derived made =>
        obtain rfl | ⟨typedef, -, made⟩ := made
        · exact List.forall_mem_nil _
        · obtain ⟨fresh, expanded⟩ := expandedTypedefs_unionReferences made
          intro member listed
          rw [expanded member listed, ← List.concat_eq_append]
          exact List.Nodup.concat fresh once
    | _ => exact List.forall_mem_nil _
  next miss found => cases miss <;> exact List.forall_mem_nil _

/-- There are not more references for the members of a union than members. -/
theorem length_unionReferences_le {slot : TypeSlot} {typedef : NodeRef}
    {members : List Reference} (apart : scene.IsApartAt typedef.source)
    (made : scene.unionReferences item slot typedef = .ok members) :
    members.length ≤ Linking.typeTotal scene.units := by
  unfold unionReferences at made
  dsimp only at made
  split at made
  · simp at made
  · split at made
    · obtain rfl : [] = members := by simpa using made
      exact Nat.zero_le _
    · obtain rfl := Except.ok.inj made
      refine Nat.le_trans length_memberReferences_le
        (Nat.le_trans (length_memberSlots_le apart rfl) ?_)
      rw [← length_slots]
      exact Nat.le_add_right _ _

section

variable {slot : TypeSlot} (kind : item.kind = .derivedType slot)
  (pending : item.isPending = true) (once : (expandedTypedefs item).Nodup)
  (known : ∀ typedef ∈ expandedTypedefs item, typedef ∈ scene.nodeRefs)
include kind pending once known

/-- A derived type that has expanded one typedef less costs more for each type. -/
theorem cost_of_derived :
    item.cost scene.units = (Linking.typeTotal scene.units + 2) *
      (Linking.typeTotal scene.units + 2) ^
        (Linking.nodeTotal scene.units - (expandedTypedefs item).length) := by
  have room : (expandedTypedefs item).length ≤ Linking.nodeTotal scene.units :=
    length_le_nodeCount once known
  rw [Reference.cost, if_pos pending, kind]
  dsimp only
  rw [Linking.weight, Nat.succ_sub room, Nat.mul_comm]
  rfl

theorem one_lt_cost : 1 < item.cost scene.units := by
  rw [cost_of_derived kind pending once known]
  exact Nat.one_lt_mul_iff.mpr ⟨Nat.succ_pos _,
    Nat.pow_pos (Nat.succ_pos _), .inl (Nat.le_add_left 2 _)⟩

/-- What a union brings in costs less than the reference to its typedef. -/
theorem cost_unionReferences_lt {typedef : NodeRef} {members : List Reference}
    (apart : scene.IsApartAt typedef.source)
    (made : scene.unionReferences item slot typedef = .ok members) :
    ReferenceQueue.cost scene.units members + 1 < item.cost scene.units := by
  obtain ⟨fresh, expanded⟩ := expandedTypedefs_unionReferences made
  rw [cost_of_derived kind pending once known]
  generalize level : (Linking.typeTotal scene.units + 2) ^
    (Linking.nodeTotal scene.units - (expandedTypedefs item).length) = each
  have positive : 0 < each := level ▸ Nat.pow_pos (Nat.succ_pos _)
  have costs : ∀ cost ∈ members.map (·.cost scene.units), cost ≤ each := by
    refine List.forall_mem_map.mpr fun member listed => ?_
    refine Nat.le_trans (Reference.cost_le_weight member) ?_
    rw [Linking.weight, expanded member listed, List.length_append,
      List.length_singleton, Nat.add_sub_add_right]
    exact Nat.le_of_eq level
  have total := List.sum_le_card_nsmul _ _ costs
  rw [List.length_map, smul_eq_mul] at total
  have few := Nat.mul_le_mul_right each (length_unionReferences_le apart made)
  rw [Nat.add_mul, ReferenceQueue.cost]
  omega

end

end Scene

end YangSchema
