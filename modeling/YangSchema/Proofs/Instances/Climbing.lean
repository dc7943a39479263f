import YangSchema.Proofs.Instances.Contents

/-!
# Climbing in the tree of instances

A `..` step leaves the node that a leaf or an instance lies in.  Out of a
grouping it goes on at the next of the `uses` that instantiate the leaf, and out
of an augment at its target.  This is the way up the tree of instances as long
as the next `uses` is the one that made the copy, which holds from the start but
no longer behind an augment whose target lies in a grouping:  there the lookup
takes other `uses`, or none is left.  It also takes the target of an augment for
an instance even if that is a choice or a case.
-/

namespace YangSchema

namespace Scene

section

variable (scene : Scene)

/-- The `uses` that are left on the way from a spot to the instance around. -/
def usesLeft : Spot → List NodeRef
  | .root _ | .part _ _ | .addition _ _ _ => []
  | .child place id =>
      if scene.isTransparent (Spot.child place id).ref then usesLeft place
      else []
  | .copy place id _ => ⟨place.ref.source, id⟩ :: usesLeft place

/-- Where a `..` step out of a spot takes the lookup to. -/
def landing : Spot → Spot
  | .root module => .root module
  | .part place submodule => .part place submodule
  | .child place id =>
      if scene.isTransparent (Spot.child place id).ref then landing place
      else .child place id
  | .copy place _ _ => landing place
  | .addition target _ _ => target

/-- So many `..` steps take the lookup to a spot, where each of them leaves the
`uses` that are next in the chain. -/
inductive Lands : Nat → Spot → List NodeRef → Spot → Prop
  | here {spot : Spot} {chain : List NodeRef} : Lands 0 spot chain spot
  | up {count : Nat} {place stand : Spot} {id : NodeId} {rest : List NodeRef}
      (lands : Lands count (scene.landing place) rest stand) :
      Lands (count + 1) (.child place id) (scene.usesLeft place ++ rest) stand

/-- So many `..` steps leave the `uses` of a chain in turn, unless it runs out,
and none but the last one ends in a choice or a case. -/
def LeadsUp : Nat → Spot → List NodeRef → Prop
  | 0, _, _ => True
  | count + 1, .child place _, chain =>
      (count ≠ 0 → scene.isTransparent (scene.landing place).ref = false) ∧
        ((∃ rest, chain = scene.usesLeft place ++ rest ∧
            LeadsUp count (scene.landing place) rest) ∨
          ∃ uses more, scene.usesLeft place = chain ++ uses :: more)
  | _ + 1, _, _ => True

end

variable {scene : Scene} {spot : Spot} {text : String}

theorem IsWellFormed.nestedAt (wellFormed : scene.IsWellFormed)
    (source : SourceId) : scene.IsNestedAt source := by
  intro tree isTree
  obtain ⟨unit, member, rfl, -⟩ := tree?_mem isTree
  exact wellFormed.nested unit member

theorem dataParent_congr {place other : NodeRef}
    (same : scene.stepOut place = scene.stepOut other)
    (chain : List NodeRef) :
    scene.dataParent text place chain = scene.dataParent text other chain := by
  cases chain <;> simp only [dataParent, same]

theorem dataParent_into {place parent : NodeRef}
    (leads : scene.stepOut place = .into parent) (chain : List NodeRef) :
    scene.dataParent text place chain = .ok (parent, chain) := by
  cases chain <;> simp only [dataParent, leads]

section

variable {place parent : NodeRef}
  (around : scene.ancestors place = parent :: scene.ancestors parent)
include around

theorem stepOut_through (transparent : scene.isTransparent parent = true) :
    scene.stepOut place = scene.stepOut parent := by
  rw [stepOut, stepOut, around, List.dropWhile_cons_of_pos transparent]

theorem stepOut_augment {body : AugmentBody} {target : NodeRef}
    (isAugment : scene.construct? parent = some (.augment body))
    (isTarget : body.target = some target) :
    scene.stepOut place = .into target := by
  have visible : ¬ scene.isTransparent parent = true := by
    simp [isTransparent_iff, isAugment]
  rw [stepOut, around, List.dropWhile_cons_of_neg visible]
  simp only [isAugment, isTarget]

theorem stepOut_grouping
    (isGrouping : scene.kind? parent = some .grouping) :
    scene.stepOut place = .grouping := by
  have visible : ¬ scene.isTransparent parent = true := by
    simp [isTransparent, isGrouping]
  obtain ⟨construct, is, kind⟩ :=
    Option.map_eq_some_iff.mp (scene.kind?_eq parent ▸ isGrouping)
  rw [stepOut, around, List.dropWhile_cons_of_neg visible]
  cases construct <;> simp [Construct.kind] at kind
  simp only [is]

theorem stepOut_into {kind : ConstructKind}
    (isKind : scene.kind? parent = some kind)
    (visible : scene.isTransparent parent = false)
    (augment : kind ≠ .augment) (grouping : kind ≠ .grouping) :
    scene.stepOut place = .into parent := by
  obtain ⟨construct, is, rfl⟩ :=
    Option.map_eq_some_iff.mp (scene.kind?_eq parent ▸ isKind)
  rw [stepOut, around, List.dropWhile_cons_of_neg (by simp [visible])]
  cases construct <;> simp_all [Construct.kind]

end

/-- One `..` step from a node leads out of the spot that it lies in. -/
theorem dataParent_eq_ok (wellFormed : scene.IsWellFormed)
    (placed : scene.Placed spot) {place : NodeRef}
    (inside : place ∈ scene.children spot.ref) (rest : List NodeRef) :
    scene.dataParent text place (scene.usesLeft spot ++ rest) =
      .ok ((scene.landing spot).ref, rest) := by
  have around := ancestors_of_mem_children (wellFormed.nestedAt _) inside
  induction placed generalizing place with
  | root isModule =>
      refine dataParent_into (stepOut_into around isModule ?_ ?_ ?_) rest
      · simp [isTransparent, Spot.ref, isModule]
      · simp
      · simp
  | part _ _ _ _ isSubmodule =>
      refine dataParent_into (stepOut_into around isSubmodule ?_ ?_ ?_) rest
      · simp [isTransparent, Spot.ref, isSubmodule]
      · simp
      · simp
  | @child outer id kind placed entered isKind step ih =>
      by_cases transparent :
          scene.isTransparent (Spot.child outer id).ref = true
      · rw [usesLeft, if_pos transparent, landing, if_pos transparent,
          dataParent_congr (stepOut_through around transparent)]
        exact ih entered (ancestors_of_mem_children (wellFormed.nestedAt _) entered)
      · rw [usesLeft, if_neg transparent, landing, if_neg transparent]
        rw [Bool.not_eq_true] at transparent
        refine dataParent_into (stepOut_into around isKind transparent ?_ ?_)
          rest
        · rintro rfl
          simp [isStep] at step
        · rintro rfl
          simp [isStep] at step
  | @copy outer id body grouping placed entered isUses target ih =>
      have isGrouping := wellFormed.groupings isUses target
      have out := stepOut_grouping around isGrouping
      simp only [usesLeft, List.cons_append, dataParent, out]
      exact ih entered (ancestors_of_mem_children (wellFormed.nestedAt _) entered)
  | addition _ _ isAugment target =>
      exact dataParent_into (stepOut_augment around isAugment target) rest
  | usesAddition _ _ _ isAugment target =>
      exact dataParent_into (stepOut_augment around isAugment target) rest

/-- A `..` step out of more copies than the chain has `uses` fails. -/
theorem dataParent_runs_out (wellFormed : scene.IsWellFormed)
    (placed : scene.Placed spot) {place uses : NodeRef}
    (inside : place ∈ scene.children spot.ref) {chain more : List NodeRef}
    (short : scene.usesLeft spot = chain ++ uses :: more) :
    scene.dataParent text place chain =
      .error (.failed (.leavesGrouping text)) := by
  have around := ancestors_of_mem_children (wellFormed.nestedAt _) inside
  induction placed generalizing place chain with
  | root => simp [usesLeft] at short
  | part => simp [usesLeft] at short
  | @child outer id kind placed entered isKind step ih =>
      by_cases transparent :
          scene.isTransparent (Spot.child outer id).ref = true
      · rw [usesLeft, if_pos transparent] at short
        rw [dataParent_congr (stepOut_through around transparent)]
        exact ih entered short (ancestors_of_mem_children (wellFormed.nestedAt _) entered)
      · simp [usesLeft, transparent] at short
  | @copy outer id body grouping placed entered isUses target ih =>
      have isGrouping := wellFormed.groupings isUses target
      have out := stepOut_grouping around isGrouping
      rw [usesLeft] at short
      cases chain with
      | nil => simp only [dataParent, out]
      | cons next chain =>
          obtain ⟨rfl, shorter⟩ := List.cons.inj short
          simp only [dataParent, out]
          exact ih entered shorter
            (ancestors_of_mem_children (wellFormed.nestedAt _) entered)
  | addition => simp [usesLeft] at short
  | usesAddition => simp [usesLeft] at short

theorem Placed.landing (placed : scene.Placed spot) :
    scene.Placed (scene.landing spot) := by
  induction placed with
  | root isModule => exact .root isModule
  | part whole declared included usable isSubmodule =>
      exact .part whole declared included usable isSubmodule
  | @child place id kind placed entered isKind step ih =>
      rw [Scene.landing]
      split
      · exact ih
      · exact .child placed entered isKind step
  | copy _ _ _ _ ih => exact ih
  | addition placed => exact placed
  | usesAddition _ placed => exact placed

theorem host_landing (spot : Spot) :
    scene.host (scene.landing spot) = scene.host spot := by
  induction spot with
  | root => rfl
  | part => rfl
  | child place id ih =>
      by_cases transparent :
          scene.isTransparent (Spot.child place id).ref = true
      · simpa [landing, host, transparent] using ih
      · simp [landing, host, transparent]
  | copy place _ _ ih => exact ih
  | addition => rfl

/-- Neither a copy nor an addition. -/
def IsNodeSpot : Spot → Prop
  | .root _ | .part _ _ | .child _ _ => True
  | .copy _ _ _ | .addition _ _ _ => False

theorem Placed.isNode_landing (placed : scene.Placed spot) :
    IsNodeSpot (scene.landing spot) := by
  induction placed with
  | root => trivial
  | part => trivial
  | child _ _ _ _ ih =>
      rw [Scene.landing]
      split
      · exact ih
      · trivial
  | copy _ _ _ _ ih => exact ih
  | addition => trivial
  | usesAddition => trivial

theorem stepOut_root (wellFormed : scene.IsWellFormed) (source : SourceId) :
    scene.stepOut ⟨source, rootId⟩ = .aboveModule := by
  rw [stepOut, ancestors_root (wellFormed.nestedAt _)]
  rfl

/-- Climbing through the units leads to where the lookup lands. -/
theorem climb_eq_ok_iff (wellFormed : scene.IsWellFormed) {count : Nat}
    (placed : scene.Placed spot) (isNode : IsNodeSpot spot)
    {chain : List NodeRef} (leads : scene.LeadsUp count spot chain)
    (node : NodeRef) :
    scene.climb text count spot.ref chain = .ok node ↔
      ∃ stand, scene.Lands count spot chain stand ∧ stand.ref = node := by
  induction count generalizing spot chain with
  | zero =>
      rw [climb, Except.ok.injEq]
      constructor
      · rintro rfl
        exact ⟨spot, .here, rfl⟩
      · rintro ⟨stand, lands, rfl⟩
        cases lands
        rfl
  | succ count ih =>
      cases placed with
      | root | part =>
          have out := stepOut_root wellFormed
          constructor
          · cases chain <;> simp [climb, dataParent, out, Spot.ref, bind,
              Except.bind]
          · rintro ⟨stand, lands, -⟩
            cases lands
      | @child place id kind placed entered isKind step =>
          obtain ⟨-, ⟨rest, rfl, further⟩ | ⟨uses, more, short⟩⟩ := leads
          · rw [climb, dataParent_eq_ok wellFormed placed entered rest]
            refine (ih placed.landing placed.isNode_landing further).trans ?_
            refine exists_congr fun stand => and_congr_left fun _ => ?_
            refine ⟨.up, fun lands => ?_⟩
            generalize same : scene.usesLeft place ++ rest = chain at lands
            cases lands with
            | up lands => exact List.append_cancel_left same ▸ lands
          · rw [climb, dataParent_runs_out wellFormed placed entered short]
            constructor
            · simp [bind, Except.bind]
            · rintro ⟨stand, lands, -⟩
              generalize same : chain = chain' at lands
              cases lands with
              | up lands => simp [same] at short
      | copy => exact isNode.elim
      | addition => exact isNode.elim
      | usesAddition => exact isNode.elim

/-- The lookup lands in the instance that the `..` steps lead up to. -/
theorem Lands.ascend? {count : Nat} {stand : Spot} {chain : List NodeRef}
    (lands : scene.Lands count spot chain stand)
    (visible : count ≠ 0 → scene.isTransparent spot.ref = false)
    (leads : scene.LeadsUp count spot chain) :
    scene.ascend? count (scene.host spot) = some (scene.host stand) := by
  induction lands with
  | here => rfl
  | @up count place stand id rest lands ih =>
      obtain ⟨visibleNext, ⟨rest', same, further⟩ | ⟨uses, more, short⟩⟩ :=
        leads
      · obtain rfl := List.append_cancel_left same
        have next := ih visibleNext further
        rw [host, visible (Nat.succ_ne_zero count), if_neg Bool.false_ne_true,
          Scene.ascend?, ← next, host_landing]
      · simp at short

end Scene

end YangSchema
