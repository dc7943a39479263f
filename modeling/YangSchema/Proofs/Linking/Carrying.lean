import YangSchema.Proofs.Linking.Anticipating
import YangSchema.Proofs.Linking.LeafrefPaths

/-!
# The leafref paths that a type carries

A type carries a path of its own, those of the members of its union, that at the
end of its typedefs, and those of the union that such a typedef declares.  The
search for them expands no typedef twice, yet it finds them all:  whatever a typedef
leads to is looked through when the typedef is met for the first time.  Links have
no part in this.
-/

namespace YangSchema.Scene

variable {scene before after : Scene} {path : String}

/-- A type, where it is written, carries a leafref path. -/
inductive Carries (scene : Scene) (path : String) : NodeRef × TypeUse → Prop
  | own {place : NodeRef} {use : TypeUse}
      (builtin : use.builtin = some .leafref) (written : use.path = some path) :
      Carries scene path (place, use)
  | member {place : NodeRef} {use member : TypeUse} {nested : NodeId}
      {members : List TypeUse} (builtin : use.builtin = some .union)
      (inNode : use.members = some nested)
      (isUnion : scene.construct? ⟨place.source, nested⟩ =
        some (.union members))
      (listed : member ∈ members)
      (carries : Carries scene path (⟨place.source, nested⟩, member)) :
      Carries scene path (place, use)
  | chain {place : NodeRef} {use : TypeUse} {derivation : Derivation}
      (derived : use.builtin = none)
      (derives : scene.derive place use = .ok derivation)
      (ends : derivation.leafref = some path) :
      Carries scene path (place, use)
  | typedef {place typedef : NodeRef} {use type : TypeUse}
      {derivation : Derivation} (derived : use.builtin = none)
      (derives : scene.derive place use = .ok derivation)
      (holds : derivation.effective.membersFrom = some typedef)
      (declared : scene.type? typedef = some type)
      (carries : Carries scene path (typedef, type)) :
      Carries scene path (place, use)

/-- The paths that are found at a type itself. -/
def pathsAt (scene : Scene) (entry : NodeRef × TypeUse) : List String :=
  match entry.2.builtin with
  | some .leafref => entry.2.path.toList
  | some _ => []
  | none =>
      match scene.derive entry.1 entry.2 with
      | .ok derivation => derivation.leafref.toList
      | .error _ => []

/-- The types that a type leads to, and the typedef that is expanded. -/
def leadsTo (scene : Scene) (entry : NodeRef × TypeUse)
    (typedefs : List NodeRef) : PathState :=
  match entry.2.builtin with
  | some .union =>
      let union? : Option NodeRef :=
        entry.2.members.map fun members => ⟨entry.1.source, members⟩
      match union?, union?.bind scene.construct? with
      | some union, some (.union members) =>
          (members.map fun member => (union, member), [])
      | _, _ => ([], [])
  | some _ => ([], [])
  | none =>
      match scene.derive entry.1 entry.2 with
      | .error _ => ([], [])
      | .ok derivation =>
          match derivation.effective.membersFrom with
          | none => ([], [])
          | some typedef =>
              if typedefs.contains typedef then ([], [])
              else
                match scene.type? typedef with
                | some type => ([(typedef, type)], [typedef])
                | none => ([], [])

/-- The types that are looked through. -/
def lookedThrough (scene : Scene) :
    Nat → List (NodeRef × TypeUse) → List NodeRef → List (NodeRef × TypeUse)
  | 0, _, _ => []
  | _ + 1, [], _ => []
  | bound + 1, entry :: rest, typedefs =>
      let next := scene.leadsTo entry typedefs
      entry :: lookedThrough scene bound (next.1 ++ rest) (typedefs ++ next.2)

theorem leafrefPaths_cons (bound : Nat) (entry : NodeRef × TypeUse)
    (rest : List (NodeRef × TypeUse)) (typedefs : List NodeRef) :
    Linking.leafrefPaths scene (bound + 1) (entry :: rest) typedefs =
      scene.pathsAt entry ++ Linking.leafrefPaths scene bound
        ((scene.leadsTo entry typedefs).1 ++ rest)
        (typedefs ++ (scene.leadsTo entry typedefs).2) := by
  obtain ⟨place, use⟩ := entry
  conv_lhs => unfold Linking.leafrefPaths
  simp only [pathsAt, leadsTo]
  cases is : use.builtin with
  | some builtin =>
      cases builtin with
      | union =>
          cases inNode : use.members with
          | none => simp
          | some nested =>
              simp only [Option.map_some, Option.bind_some]
              cases found : scene.construct? ⟨place.source, nested⟩ with
              | none => simp
              | some construct => cases construct <;> simp
      | _ => simp
  | none =>
      cases derives : scene.derive place use with
      | error miss => simp
      | ok derivation =>
          cases holds : derivation.effective.membersFrom with
          | none => simp [holds]
          | some typedef =>
              by_cases expanded : typedef ∈ typedefs
              · simp [holds, expanded]
              · cases declared : scene.type? typedef <;>
                  simp [holds, expanded, declared]

/-- The search collects the paths of the types that it looks through. -/
theorem leafrefPaths_eq (bound : Nat) (items : List (NodeRef × TypeUse))
    (typedefs : List NodeRef) :
    Linking.leafrefPaths scene bound items typedefs =
      (scene.lookedThrough bound items typedefs).flatMap scene.pathsAt := by
  induction bound generalizing items typedefs with
  | zero => rfl
  | succ bound ih =>
      cases items with
      | nil => rfl
      | cons entry rest =>
          rw [leafrefPaths_cons, ih, lookedThrough, List.flatMap_cons]

/-- A type leads to nothing, to the members of its union or to the type of a
typedef that is expanded for the first time. -/
theorem leadsTo_eq (scene : Scene) (place : NodeRef) (use : TypeUse)
    (typedefs : List NodeRef) :
    scene.leadsTo (place, use) typedefs = ([], []) ∨
    (∃ nested members, use.builtin = some .union ∧
      use.members = some nested ∧
      scene.construct? ⟨place.source, nested⟩ = some (.union members) ∧
      scene.leadsTo (place, use) typedefs =
        (members.map fun member => (⟨place.source, nested⟩, member), [])) ∨
    ∃ derivation typedef type, use.builtin = none ∧
      scene.derive place use = .ok derivation ∧
      derivation.effective.membersFrom = some typedef ∧
      typedef ∉ typedefs ∧ scene.type? typedef = some type ∧
      scene.leadsTo (place, use) typedefs = ([(typedef, type)], [typedef]) := by
  unfold leadsTo
  dsimp only
  split
  next builtin =>
    split
    next union members mapped isUnion =>
      obtain ⟨nested, inNode, rfl⟩ := Option.map_eq_some_iff.mp mapped
      simp only [inNode, Option.map_some, Option.bind_some] at isUnion
      exact .inr (.inl ⟨nested, members, builtin, inNode, isUnion, rfl⟩)
    · exact .inl rfl
  · exact .inl rfl
  next derived =>
    split
    · exact .inl rfl
    next derivation derives =>
      split
      · exact .inl rfl
      next typedef holds =>
        split
        · exact .inl rfl
        next fresh =>
          split
          next type declared =>
            exact .inr (.inr ⟨derivation, typedef, type, derived, derives, holds,
              by simpa using fresh, declared, rfl⟩)
          · exact .inl rfl

theorem carries_of_leadsTo {entry other : NodeRef × TypeUse}
    {typedefs : List NodeRef}
    (listed : other ∈ (scene.leadsTo entry typedefs).1)
    (carries : scene.Carries path other) : scene.Carries path entry := by
  obtain ⟨place, use⟩ := entry
  obtain none | ⟨nested, members, builtin, inNode, isUnion, same⟩ |
      ⟨derivation, typedef, type, derived, derives, holds, -, declared, same⟩ :=
    scene.leadsTo_eq place use typedefs
  · simp [none] at listed
  · rw [same] at listed
    obtain ⟨member, among, rfl⟩ := List.mem_map.mp listed
    exact .member builtin inNode isUnion among carries
  · rw [same] at listed
    obtain rfl := List.mem_singleton.mp listed
    exact .typedef derived derives holds declared carries

/-- With a typedef its type is looked through. -/
theorem leadsTo_expands {entry : NodeRef × TypeUse} {typedefs : List NodeRef}
    {typedef : NodeRef} {type : TypeUse}
    (expanded : typedef ∈ (scene.leadsTo entry typedefs).2)
    (declared : scene.type? typedef = some type) :
    (typedef, type) ∈ (scene.leadsTo entry typedefs).1 := by
  obtain ⟨place, use⟩ := entry
  obtain none | ⟨_, _, -, -, -, same⟩ | ⟨_, _, type', -, -, -, -, isType, same⟩ :=
    scene.leadsTo_eq place use typedefs
  · simp [none] at expanded
  · simp [same] at expanded
  · rw [same] at expanded ⊢
    obtain rfl := List.mem_singleton.mp expanded
    obtain rfl := Option.some.inj (declared.symm.trans isType)
    simp

theorem mem_pathsAt {entry : NodeRef × TypeUse}
    (found : path ∈ scene.pathsAt entry) : scene.Carries path entry := by
  obtain ⟨place, use⟩ := entry
  unfold pathsAt at found
  split at found
  next builtin => exact .own builtin (by simpa using found)
  · simp at found
  next derived =>
    split at found
    next derivation derives =>
      exact .chain derived derives (by simpa using found)
    · simp at found

/-- Each type that is looked through is one from which the search set out or one
to which those lead. -/
theorem carries_of_lookedThrough {bound : Nat}
    {items : List (NodeRef × TypeUse)} {typedefs : List NodeRef}
    {entry : NodeRef × TypeUse}
    (looked : entry ∈ scene.lookedThrough bound items typedefs)
    (carries : scene.Carries path entry) :
    ∃ item ∈ items, scene.Carries path item := by
  induction bound generalizing items typedefs with
  | zero => simp [lookedThrough] at looked
  | succ bound ih =>
      cases items with
      | nil => simp [lookedThrough] at looked
      | cons first rest =>
          obtain rfl | later := List.mem_cons.mp looked
          · exact ⟨entry, by simp, carries⟩
          · obtain ⟨item, listed, carries⟩ := ih later
            obtain next | others := List.mem_append.mp listed
            · exact ⟨first, by simp, carries_of_leadsTo next carries⟩
            · exact ⟨item, by simp [others], carries⟩

/-- What the search goes on with is one of its calls. -/
theorem pathCalls_leadsTo (entry : NodeRef × TypeUse)
    (rest : List (NodeRef × TypeUse)) (typedefs : List NodeRef) :
    scene.PathCalls (entry :: rest, typedefs)
      ((scene.leadsTo entry typedefs).1 ++ rest,
        typedefs ++ (scene.leadsTo entry typedefs).2) := by
  obtain ⟨place, use⟩ := entry
  obtain none | ⟨_, _, builtin, inNode, isUnion, same⟩ |
      ⟨_, _, _, -, derives, holds, fresh, declared, same⟩ :=
    scene.leadsTo_eq place use typedefs
  · rw [none, List.nil_append, List.append_nil]
    exact .rest
  · rw [same, List.append_nil]
    exact .members builtin inNode isUnion
  · rw [same]
    exact .typedef derives holds fresh declared

section

variable {bound : Nat} {items : List (NodeRef × TypeUse)}
  {typedefs : List NodeRef}
  (ends : EndsWithin scene.PathCalls bound (items, typedefs))
include ends

theorem subset_lookedThrough :
    items ⊆ scene.lookedThrough bound items typedefs := by
  induction bound generalizing items typedefs with
  | zero => cases ends
  | succ bound ih =>
      cases items with
      | nil => exact List.nil_subset _
      | cons entry rest =>
          have later := ih (ends.next (pathCalls_leadsTo entry rest typedefs))
          exact List.cons_subset_cons entry fun item listed =>
            later (List.mem_append_right _ listed)

/-- All members of a union are looked through with it. -/
theorem lookedThrough_member {place : NodeRef} {use member : TypeUse}
    {nested : NodeId} {members : List TypeUse}
    (looked : (place, use) ∈ scene.lookedThrough bound items typedefs)
    (builtin : use.builtin = some .union) (inNode : use.members = some nested)
    (isUnion : scene.construct? ⟨place.source, nested⟩ =
      some (.union members)) (listed : member ∈ members) :
    (⟨place.source, nested⟩, member) ∈
      scene.lookedThrough bound items typedefs := by
  induction bound generalizing items typedefs with
  | zero => cases ends
  | succ bound ih =>
      cases items with
      | nil => simp [lookedThrough] at looked
      | cons entry rest =>
          have ends := ends.next (pathCalls_leadsTo entry rest typedefs)
          refine List.mem_cons_of_mem _ ?_
          obtain rfl | later := List.mem_cons.mp looked
          · refine subset_lookedThrough ends (List.mem_append_left _ ?_)
            simp [leadsTo, builtin, inNode, isUnion, listed]
          · exact ih ends later

/-- The type of a typedef is looked through with every type that ends there,
unless the typedef had been expanded before. -/
theorem lookedThrough_typedef {place typedef : NodeRef} {use type : TypeUse}
    {derivation : Derivation}
    (looked : (place, use) ∈ scene.lookedThrough bound items typedefs)
    (derived : use.builtin = none)
    (derives : scene.derive place use = .ok derivation)
    (holds : derivation.effective.membersFrom = some typedef)
    (declared : scene.type? typedef = some type) :
    (typedef, type) ∈ scene.lookedThrough bound items typedefs ∨
      typedef ∈ typedefs := by
  induction bound generalizing items typedefs with
  | zero => cases ends
  | succ bound ih =>
      cases items with
      | nil => simp [lookedThrough] at looked
      | cons entry rest =>
          have ends := ends.next (pathCalls_leadsTo entry rest typedefs)
          have first := subset_lookedThrough ends
          obtain rfl | later := List.mem_cons.mp looked
          · by_cases before : typedef ∈ typedefs
            · exact .inr before
            · refine .inl (List.mem_cons_of_mem _ (first ?_))
              simp [leadsTo, derived, derives, holds, declared, before]
          · obtain inside | before := ih ends later
            · exact .inl (List.mem_cons_of_mem _ inside)
            · obtain before | now := List.mem_append.mp before
              · exact .inr before
              · exact .inl (List.mem_cons_of_mem _
                  (first (List.mem_append_left _
                    (leadsTo_expands now declared))))

end

/-- The search finds the paths that a type carries, and no others. -/
theorem mem_leafrefPaths_iff {bound : Nat} {entry : NodeRef × TypeUse}
    (ends : EndsWithin scene.PathCalls bound ([entry], [])) :
    path ∈ Linking.leafrefPaths scene bound [entry] [] ↔
      scene.Carries path entry := by
  rw [leafrefPaths_eq, List.mem_flatMap]
  constructor
  · rintro ⟨other, looked, found⟩
    obtain ⟨item, listed, carries⟩ :=
      carries_of_lookedThrough looked (mem_pathsAt found)
    rwa [List.mem_singleton.mp listed] at carries
  · intro carries
    have looked := subset_lookedThrough ends (List.mem_singleton_self entry)
    -- Whatever is looked through leads only to what is looked through, too.
    suffices closed : ∀ other, scene.Carries path other →
        other ∈ scene.lookedThrough bound [entry] [] →
          ∃ found ∈ scene.lookedThrough bound [entry] [],
            path ∈ scene.pathsAt found from closed entry carries looked
    intro other carries looked
    induction carries with
    | own builtin written =>
        exact ⟨_, looked, by simp [pathsAt, builtin, written]⟩
    | member builtin inNode isUnion listed _ ih =>
        exact ih (lookedThrough_member ends looked builtin inNode isUnion listed)
    | chain derived derives ending =>
        exact ⟨_, looked, by simp [pathsAt, derived, derives, ending]⟩
    | typedef derived derives holds declared _ ih =>
        obtain inside | none :=
          lookedThrough_typedef ends looked derived derives holds declared
        · exact ih inside
        · simp at none

/-- Scenes with the same statements let types carry the same paths. -/
theorem Carries.anticipated {use : TypeUse} {place : NodeRef}
    (anticipates : before.Anticipates after fun _ => True)
    (carries : before.Carries path (place, use)) {use' : TypeUse}
    (same : use'.unlinked = use.unlinked) :
    after.Carries path (place, use') := by
  have agree (place : NodeRef) : before.AgreeAt after place.source :=
    anticipates.agree trivial
  generalize is : (place, use) = entry at carries
  induction carries generalizing place use use' with
  | own builtin written =>
      obtain ⟨rfl, rfl⟩ := Prod.mk.inj is
      exact .own ((congrArg (·.builtin) same).trans builtin)
        ((congrArg (·.path) same).trans written)
  | member builtin inNode isUnion listed _ ih =>
      obtain ⟨rfl, rfl⟩ := Prod.mk.inj is
      obtain ⟨members', isUnion', unlinked⟩ := (agree _).union isUnion
      have among := List.mem_map_of_mem (f := (·.unlinked)) listed
      rw [← unlinked] at among
      obtain ⟨member', listed', same'⟩ := List.mem_map.mp among
      exact .member ((congrArg (·.builtin) same).trans builtin)
        ((congrArg (·.members) same).trans inNode) isUnion' listed' (ih same' rfl)
  | chain derived derives ending =>
      obtain ⟨rfl, rfl⟩ := Prod.mk.inj is
      have decides : Decides (before.derive place use)
        (after.derive place use') := anticipates.derive trivial same
      have derives' := decides (by simp [derives])
      exact .chain ((congrArg (·.builtin) same).trans derived)
        (derives'.trans derives) ending
  | @typedef _ typedef _ type _ derived derives holds declared _ ih =>
      obtain ⟨rfl, rfl⟩ := Prod.mk.inj is
      have decides : Decides (before.derive place use)
        (after.derive place use') := anticipates.derive trivial same
      have derives' := decides (by simp [derives])
      have types := (agree typedef).type?
      rw [declared] at types
      obtain ⟨type', declared', same'⟩ := Option.map_eq_some_iff.mp types
      exact .typedef ((congrArg (·.builtin) same).trans derived)
        (derives'.trans derives) holds declared' (ih same' rfl)

end YangSchema.Scene
