import YangSchema.Proofs.Linking.Looking
import YangSchema.Proofs.Linking.Members

/-!
# The leafref paths of a type

The paths that a type can carry are collected from a list of types that are still
to be looked through.  A union is replaced by its members, which are different
from all others below the same type, and a derived type by the type of a typedef
that has not been expanded before.  So there are fewer types to look through than
the square of the number of types.
-/

namespace YangSchema.Scene

variable {scene : Scene}

/-- What is looked through next, and the typedefs expanded so far. -/
abbrev PathState :=
  List (NodeRef × TypeUse) × List NodeRef

inductive PathCalls (scene : Scene) : PathState → PathState → Prop
  | rest {place : NodeRef} {use : TypeUse} {rest : List (NodeRef × TypeUse)}
      {typedefs : List NodeRef} :
      PathCalls scene ((place, use) :: rest, typedefs) (rest, typedefs)
  | members {place : NodeRef} {use : TypeUse}
      {rest : List (NodeRef × TypeUse)} {typedefs : List NodeRef}
      {nested : NodeId} {members : List TypeUse}
      (builtin : use.builtin = some .union) (inNode : use.members = some nested)
      (isUnion : scene.construct? ⟨place.source, nested⟩ =
        some (.union members)) :
      PathCalls scene ((place, use) :: rest, typedefs)
        (members.map (fun member => (⟨place.source, nested⟩, member)) ++ rest,
          typedefs)
  | typedef {place : NodeRef} {use : TypeUse}
      {rest : List (NodeRef × TypeUse)} {typedefs : List NodeRef}
      {derivation : Derivation} {typedef : NodeRef} {type : TypeUse}
      (derived : scene.derive place use = .ok derivation)
      (holds : derivation.effective.membersFrom = some typedef)
      (fresh : typedef ∉ typedefs) (declared : scene.type? typedef = some type) :
      PathCalls scene ((place, use) :: rest, typedefs)
        ((typedef, type) :: rest, typedefs ++ [typedef])

theorem leafrefPaths_add {bound : Nat} {state : PathState}
    (ends : EndsWithin scene.PathCalls bound state) (more : Nat) :
    Linking.leafrefPaths scene (bound + more) state.1 state.2 =
      Linking.leafrefPaths scene bound state.1 state.2 := by
  induction bound generalizing state with
  | zero => cases ends
  | succ bound ih =>
      obtain ⟨items, typedefs⟩ := state
      rw [Nat.add_right_comm]
      cases items with
      | nil => rfl
      | cons item rest =>
          obtain ⟨place, use⟩ := item
          have others := ih (ends.next .rest)
          unfold Linking.leafrefPaths
          dsimp only at others ⊢
          split
          · rw [others]
          next builtin =>
            split
            next union members mapped isUnion =>
              obtain ⟨nested, inNode, rfl⟩ := Option.map_eq_some_iff.mp mapped
              simp only [inNode, Option.map_some, Option.bind_some] at isUnion
              exact ih (ends.next (.members builtin inNode isUnion))
            · exact others
          · exact others
          next derived =>
            split
            · exact others
            next derivation derives =>
              refine congrArg (derivation.leafref.toList ++ ·) ?_
              split
              · exact others
              next typedef type further =>
                split at further
                · simp at further
                next holder holds =>
                  split at further
                  · simp at further
                  next fresh =>
                    obtain ⟨_, declared, same⟩ :=
                      Option.map_eq_some_iff.mp further
                    obtain ⟨rfl, rfl⟩ := Prod.mk.inj same
                    exact ih (ends.next (.typedef derives holds
                      (by simpa using fresh) declared))

/-- The place where a type is written, and that type. -/
def Declares (scene : Scene) (entry : NodeRef × TypeUse) : Prop :=
  scene.LooksAt entry.1 ∧ ∃ construct member,
    scene.construct? entry.1 = some construct ∧
      construct.typeAt? member = some entry.2

/-- A type counts with all members below it. -/
def pathWeight (scene : Scene) (entry : NodeRef × TypeUse) : Nat :=
  ((unionOf? entry.1 entry.2).elim [] (scene.memberSlots
    (scene.nodeCount + 1))).length + 1

/-- The typedefs that have not been expanded count with all types. -/
def pathMeasure (scene : Scene) (state : PathState) : Nat :=
  (state.1.map scene.pathWeight).sum +
    (scene.slots.length + 1) * scene.unvisited state.2

theorem pathWeight_pos (entry : NodeRef × TypeUse) :
    0 < scene.pathWeight entry :=
  Nat.succ_pos _

section

variable (apart : ∀ {ref}, scene.LooksAt ref → scene.IsApartAt ref.source)
include apart

theorem pathWeight_le {entry : NodeRef × TypeUse}
    (looks : scene.LooksAt entry.1) :
    scene.pathWeight entry ≤ scene.slots.length + 1 := by
  unfold pathWeight
  cases inside : unionOf? entry.1 entry.2 with
  | none => exact Nat.le_add_left 1 _
  | some union =>
      obtain ⟨-, id, -, rfl⟩ := unionOf?_eq_some_iff.mp inside
      exact Nat.succ_le_succ (length_memberSlots_le (apart looks) rfl)

/-- The members of a union count less than the union. -/
theorem pathWeight_members (place : NodeRef) {use : TypeUse} {nested : NodeId}
    {members : List TypeUse} (looks : scene.LooksAt place)
    (builtin : use.builtin = some .union) (inNode : use.members = some nested)
    (isUnion : scene.construct? ⟨place.source, nested⟩ =
      some (.union members)) :
    ((members.map fun member =>
      ((⟨place.source, nested⟩, member) : NodeRef × TypeUse)).map
        scene.pathWeight).sum < scene.pathWeight (place, use) := by
  have atUnion : scene.IsApartAt place.source := apart looks
  have ends : EndsWithin scene.MemberCalls (scene.nodeCount + 1)
      ⟨place.source, nested⟩ := members_endsWithin atUnion
  have slots : scene.memberSlots (scene.nodeCount + 1)
      ⟨place.source, nested⟩ = members.zipIdx.flatMap fun entry =>
        (⟨place.source, nested⟩, entry.2) ::
          (unionOf? ⟨place.source, nested⟩ entry.1).elim []
            (scene.memberSlots scene.nodeCount) := by
    rw [memberSlots]
    simp only [isUnion]
  have each : ∀ entry ∈ members.zipIdx,
      scene.pathWeight (⟨place.source, nested⟩, entry.1) =
        (((⟨place.source, nested⟩ : NodeRef), entry.2) ::
          (unionOf? ⟨place.source, nested⟩ entry.1).elim []
            (scene.memberSlots scene.nodeCount)).length := by
    intro entry listed
    refine congrArg (List.length · + 1) ?_
    cases inside : unionOf? ⟨place.source, nested⟩ entry.1 with
    | none => rfl
    | some union =>
        obtain ⟨builtin, id, inNode, rfl⟩ := unionOf?_eq_some_iff.mp inside
        have call := MemberCalls.nested isUnion
          (List.mk_mem_zipIdx_iff_getElem?.mp listed) builtin inNode
        exact memberSlots_add (ends.next call) 1
  have firsts := congrArg (List.map fun member =>
    scene.pathWeight (⟨place.source, nested⟩, member))
      (List.zipIdx_map_fst 0 members)
  rw [List.map_map] at firsts
  have whole : scene.pathWeight (place, use) =
      (scene.memberSlots (scene.nodeCount + 1)
        ⟨place.source, nested⟩).length + 1 := by
    simp [pathWeight, unionOf?, builtin, inNode]
  rw [whole, slots, List.length_flatMap, List.map_map]
  refine Nat.lt_succ_of_le (Nat.le_of_eq (congrArg List.sum ?_))
  exact firsts.symm.trans (List.map_congr_left each)

theorem paths_endsWithin {entry : NodeRef × TypeUse}
    (declares : scene.Declares entry) :
    EndsWithin scene.PathCalls (Linking.pathBound scene) ([entry], []) := by
  refine .of_measure (fun state => ∀ entry ∈ state.1, scene.Declares entry)
    scene.pathMeasure ?_ (by simpa using declares) ?_
  · intro state next declared call
    cases call with
    | @rest place use rest typedefs =>
        have positive := scene.pathWeight_pos (place, use)
        refine ⟨(List.forall_mem_cons.mp declared).2, ?_⟩
        simp only [pathMeasure, List.map_cons, List.sum_cons]
        omega
    | @members place use rest typedefs nested members builtin inNode isUnion =>
        obtain ⟨⟨looks, construct, member, found, declared⟩, others⟩ :=
          List.forall_mem_cons.mp declared
        have inside : scene.LooksAt ⟨place.source, nested⟩ :=
          looks.members found declared inNode
        have less := pathWeight_members apart place looks builtin inNode isUnion
        refine ⟨List.forall_mem_append.mpr
          ⟨List.forall_mem_map.mpr fun type listed => ?_, others⟩, ?_⟩
        · obtain ⟨index, listed⟩ := List.mem_iff_getElem?.mp listed
          exact ⟨inside, _, some index, isUnion, listed⟩
        · simp only [pathMeasure, List.map_cons, List.sum_cons, List.map_append,
            List.sum_append]
          omega
    | @typedef place use rest typedefs derivation typedef type derived holds
        fresh isType =>
        obtain ⟨⟨looks, -⟩, others⟩ := List.forall_mem_cons.mp declared
        obtain ⟨ending, along⟩ := derive_eq_ok derived
        obtain rfl : ending.typedef = typedef := by
          rw [along.membersFrom] at holds
          split at holds <;> simp_all
        have ends := (looks.derive along).2.1
        obtain ⟨construct, found, named⟩ := Option.bind_eq_some_iff.mp isType
        obtain ⟨node, known, -⟩ := Option.map_eq_some_iff.mp found
        have expands : scene.unvisited (typedefs ++ [ending.typedef]) <
            scene.unvisited typedefs :=
          unvisited_lt (mem_nodeRefs_of_node? known) fresh (by simp)
        have weight : scene.pathWeight (ending.typedef, type) ≤ _ :=
          pathWeight_le apart ends
        have positive := scene.pathWeight_pos (place, use)
        refine ⟨List.forall_mem_cons.mpr
          ⟨⟨ends, construct, none, found, named⟩, others⟩, ?_⟩
        have fewer := Nat.mul_le_mul_left (scene.slots.length + 1) expands
        rw [Nat.mul_succ] at fewer
        simp only [pathMeasure, List.map_cons, List.sum_cons]
        omega
  · have weight := pathWeight_le apart declares.1
    have count := scene.length_slots
    have nodes := Nat.mul_le_mul_left (scene.slots.length + 1)
      (scene.unvisited_le [])
    have room : (scene.slots.length + 1) * (scene.nodeCount + 1) <
        (Linking.typeTotal scene.units + 2) *
          (Linking.typeTotal scene.units + 2) :=
      Nat.mul_lt_mul'' (by omega) (by omega)
    rw [Nat.mul_succ] at room
    refine Nat.lt_of_le_of_lt ?_ room
    simp only [pathMeasure, List.map_cons, List.sum_cons, List.map_nil,
      List.sum_nil]
    omega

end

end YangSchema.Scene
