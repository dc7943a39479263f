import Mathlib.Logic.Relation
import YangSchema.Proofs.Linking.LeafrefPaths
import YangSchema.Proofs.Linking.Looking

/-!
# Walks end

A walk goes through a place and into groupings that are not being expanded yet.
Every such grouping counts with all nodes, and so does what can be reached without
expanding another one:  nodes that stand further behind for relative leafrefs,
choices, cases and augments for the children of a place.  No augment leads back to
itself, so this falls with each call, and it is less than the bound on the walk.
-/

/-!
## How augments rest on each other

The target of an augment may stand in another augment, which has been bound before
it.  So every augment rests on one that rests on no other, and no augment leads
back to itself:  going through choices, cases and the augments that are bound to
them never comes back to a place.
-/

namespace YangSchema.Scene

/-- What an augment is bound to. -/
def boundTo? (scene : Scene) (augment : NodeRef) : Option NodeRef :=
  match scene.construct? augment with
  | some (.augment body) => body.target
  | _ => none

/-- The augment that a place stands in, if there are only choices and cases
between them. -/
def augmentAround? (scene : Scene) (place : NodeRef) : Option NodeRef :=
  ((place :: scene.ancestors place).find? fun ref =>
    !scene.isTransparent ref).filter fun ref =>
      ref.node != rootId && scene.kind? ref == some .augment

/-- An augment is bound to a node that stands in no other augment, or in one that
rests. -/
inductive Rests (scene : Scene) : NodeRef → Prop
  | intro {augment target : NodeRef}
      (bound : scene.boundTo? augment = some target)
      (grounded : ∀ base, scene.augmentAround? target = some base →
        Rests scene base) : Rests scene augment

/-- A node stands in no augment, or in one that rests. -/
def IsGrounded (scene : Scene) (target : NodeRef) : Prop :=
  ∀ base, scene.augmentAround? target = some base → scene.Rests base

/-- Where a search goes on from a place, but for groupings. -/
inductive Leads (scene : Scene) : NodeRef → NodeRef → Prop
  | child {place child : NodeRef} (nested : scene.IsNestedAt place.source)
      (inside : child ∈ scene.children place)
      (transparent : scene.isTransparent child = true) :
      Leads scene place child
  | augment {target augment : NodeRef} (inner : augment.node ≠ rootId)
      (bound : scene.boundTo? augment = some target)
      (rests : scene.Rests augment) : Leads scene target augment

variable {scene : Scene} {place child node target augment base : NodeRef}

theorem boundTo?_eq_some_iff :
    scene.boundTo? augment = some target ↔ ∃ body,
      scene.construct? augment = some (.augment body) ∧
        body.target = some target := by
  unfold boundTo?
  split
  next body isAugment => simp [isAugment]
  next other =>
    simp only [reduceCtorEq, false_iff, not_exists, not_and]
    exact fun body isAugment => absurd isAugment (other body)

theorem kind?_of_boundTo? (bound : scene.boundTo? augment = some target) :
    scene.kind? augment = some .augment := by
  obtain ⟨body, isAugment, -⟩ := boundTo?_eq_some_iff.mp bound
  simp [kind?_eq, isAugment, Construct.kind]

theorem augmentAround?_eq_some_iff :
    scene.augmentAround? place = some base ↔
      (place :: scene.ancestors place).find?
          (fun ref => !scene.isTransparent ref) = some base ∧
        base.node ≠ rootId ∧ scene.kind? base = some .augment := by
  simp [augmentAround?, Option.filter_eq_some_iff]

/-- A choice or a case stands in the augment that its parent stands in. -/
theorem augmentAround?_child (nested : scene.IsNestedAt place.source)
    (inside : child ∈ scene.children place)
    (transparent : scene.isTransparent child = true) :
    scene.augmentAround? child = scene.augmentAround? place := by
  rw [augmentAround?, ancestors_of_mem_children nested inside,
    List.find?_cons_of_neg (by simp [transparent])]
  rfl

theorem augmentAround?_augment (inner : augment.node ≠ rootId)
    (kind : scene.kind? augment = some .augment) :
    scene.augmentAround? augment = some augment := by
  rw [augmentAround?_eq_some_iff, List.find?_cons_of_pos]
  · exact ⟨rfl, inner, kind⟩
  · simp [isTransparent, kind]

theorem augmentAround?_root (nested : scene.IsNestedAt place.source)
    (root : place.node = rootId) : scene.augmentAround? place = none := by
  obtain ⟨source, id⟩ := place
  obtain rfl : id = rootId := root
  refine Option.eq_none_iff_forall_ne_some.mpr fun base around => ?_
  obtain ⟨found, inner, -⟩ := augmentAround?_eq_some_iff.mp around
  rw [ancestors_root nested] at found
  obtain rfl := List.mem_singleton.mp (List.mem_of_find?_eq_some found)
  exact inner rfl

/-- A node that is neither a choice, a case nor an augment stands in no augment. -/
theorem augmentAround?_eq_none {kind : ConstructKind}
    (isKind : scene.kind? place = some kind)
    (other : kind ∉ [ConstructKind.choice, .case, .augment]) :
    scene.augmentAround? place = none := by
  simp only [List.mem_cons, List.not_mem_nil, or_false, not_or] at other
  obtain ⟨noChoice, noCase, noAugment⟩ := other
  refine Option.eq_none_iff_forall_ne_some.mpr fun base around => ?_
  obtain ⟨found, -, isAugment⟩ := augmentAround?_eq_some_iff.mp around
  rw [List.find?_cons_of_pos] at found
  · obtain rfl := Option.some.inj found
    exact noAugment (Option.some.inj (isKind.symm.trans isAugment))
  · simp [isTransparent, isKind, noChoice, noCase]

theorem Leads.mem_nodeRefs (leads : scene.Leads place node) :
    node ∈ scene.nodeRefs := by
  cases leads with
  | child _ inside => exact mem_nodeRefs_of_mem_children inside
  | augment _ bound =>
      obtain ⟨found, known, -⟩ :=
        Option.map_eq_some_iff.mp (kind?_of_boundTo? bound)
      exact mem_nodeRefs_of_node? known

/-- Whatever an augment leads to stands in an augment on the way. -/
theorem reaches_augmentAround
    (reaches : Relation.ReflTransGen scene.Leads augment node)
    (around : scene.augmentAround? augment = some augment) :
    ∃ base, scene.augmentAround? node = some base ∧
      Relation.ReflTransGen scene.Leads augment base ∧
        Relation.ReflTransGen scene.Leads base node := by
  induction reaches with
  | refl => exact ⟨augment, around, .refl, .refl⟩
  | tail reaches leads ih =>
      obtain ⟨base, around, first, second⟩ := ih
      cases leads with
      | child nested inside transparent =>
          refine ⟨base, ?_, first, second.tail (.child nested inside transparent)⟩
          rwa [augmentAround?_child nested inside transparent]
      | augment inner bound rests =>
          exact ⟨_, augmentAround?_augment inner (kind?_of_boundTo? bound),
            reaches.tail (.augment inner bound rests), .refl⟩

/-- No augment leads back to itself. -/
theorem Rests.not_leads_back (rests : scene.Rests augment) :
    ¬ Relation.TransGen scene.Leads augment augment := by
  induction rests with
  | @intro augment target bound _ ih =>
      intro round
      obtain ⟨place, reaches, last⟩ := Relation.TransGen.tail'_iff.mp round
      have kind := kind?_of_boundTo? bound
      cases last with
      | child _ _ transparent => simp [isTransparent, kind] at transparent
      | augment inner bound' rests =>
          obtain rfl := Option.some.inj (bound.symm.trans bound')
          obtain ⟨base, around, first, second⟩ :=
            reaches_augmentAround reaches (augmentAround?_augment inner kind)
          exact ih base around
            (.trans_right second (.head' (.augment inner bound rests) first))

/-- Where no augment is on the way, it leads further behind. -/
theorem leads_behind (leads : Relation.TransGen scene.Leads place node) :
    (∃ augment, scene.Rests augment ∧
      Relation.ReflTransGen scene.Leads place augment ∧
        Relation.ReflTransGen scene.Leads augment node) ∨
      place.node < node.node := by
  have once {place node : NodeRef} (leads : scene.Leads place node) :
      (scene.Rests node) ∨ place.node < node.node := by
    cases leads with
    | child nested inside => exact .inr (lt_of_mem_children nested inside).1
    | augment _ _ rests => exact .inl rests
  induction leads with
  | single leads =>
      exact (once leads).imp
        (fun rests => ⟨_, rests, .single leads, .refl⟩) id
  | tail reaches leads ih =>
      obtain rests | behind := once leads
      · exact .inl ⟨_, rests, reaches.to_reflTransGen.tail leads, .refl⟩
      · refine ih.imp ?_ (Nat.lt_trans · behind)
        exact fun ⟨augment, rests, first, second⟩ =>
          ⟨augment, rests, first, second.tail leads⟩

/-- No place leads back to itself. -/
theorem not_leads_back (place : NodeRef) :
    ¬ Relation.TransGen scene.Leads place place := by
  intro round
  obtain ⟨augment, rests, first, second⟩ | behind := leads_behind round
  · exact rests.not_leads_back (.trans_right second (.trans_left round first))
  · exact Nat.lt_irrefl _ behind

open Classical in
/-- How many places can be reached from a place. -/
noncomputable def reachCount (scene : Scene) (place : NodeRef) : Nat :=
  (scene.nodeRefs.filter fun ref =>
    Relation.TransGen scene.Leads place ref).length

theorem reachCount_le (scene : Scene) (place : NodeRef) :
    scene.reachCount place ≤ scene.nodeCount := by
  rw [← scene.length_nodeRefs]
  exact List.length_filter_le _ _

/-- Fewer places can be reached from those that a place leads to. -/
theorem Leads.reachCount_lt (leads : scene.Leads place node) :
    scene.reachCount node < scene.reachCount place := by
  classical
  have less : (scene.nodeRefs.filter fun ref =>
        Relation.TransGen scene.Leads node ref) =
      (scene.nodeRefs.filter fun ref =>
        Relation.TransGen scene.Leads place ref).filter fun ref =>
          Relation.TransGen scene.Leads node ref := by
    rw [List.filter_filter]
    refine List.filter_congr fun ref _ => ?_
    rw [← Bool.decide_and]
    refine decide_eq_decide.mpr ⟨fun reaches => ⟨reaches, .head leads reaches⟩,
      And.left⟩
  rw [reachCount, reachCount]
  convert_to (scene.nodeRefs.filter fun ref =>
    Relation.TransGen scene.Leads node ref).length < _
  rw [less, List.length_filter_lt_length_iff_exists]
  exact ⟨node, List.mem_filter.mpr
    ⟨leads.mem_nodeRefs, by simpa using .single leads⟩,
    by simpa using not_leads_back node⟩

end YangSchema.Scene

/-! ## What a walk counts down -/

namespace YangSchema.Scene

/-- Whatever linking looks at is there, in trees that are as reading leaves them,
and what augments are bound to stands in no augment or in one that rests. -/
structure IsOrderly (scene : Scene) : Prop where
  known : ∀ {ref}, scene.LooksAt ref → ref ∈ scene.nodeRefs
  nested : ∀ {ref}, scene.LooksAt ref → scene.IsNestedAt ref.source
  apart : ∀ {ref}, scene.LooksAt ref → scene.IsApartAt ref.source
  groupings : ∀ {uses target : NodeRef} {body : UsesBody},
    scene.LooksAt uses → scene.construct? uses = some (.uses body) →
      body.target = some target → scene.kind? target = some .grouping
  grounded : ∀ {augment target}, scene.LooksAt augment →
    scene.boundTo? augment = some target → scene.IsGrounded target
  augments : ∀ {target augment}, (target, augment) ∈ scene.augments →
    scene.boundTo? augment = some target ∧ augment.node ≠ rootId

variable {scene : Scene}

theorem IsOrderly.rests (orderly : scene.IsOrderly) {augment target : NodeRef}
    (looks : scene.LooksAt augment)
    (bound : scene.boundTo? augment = some target) : scene.Rests augment :=
  .intro bound (orderly.grounded looks bound)

/-- Every node that is not being expanded counts with all nodes. -/
def walkMeasure (scene : Scene) (expanding : List NodeRef) (rest : Nat) : Nat :=
  scene.unvisited expanding * (scene.nodeCount + 1) + rest

theorem walkMeasure_lt_walkBound (expanding : List NodeRef) {rest : Nat}
    (small : rest ≤ scene.nodeCount) :
    scene.walkMeasure expanding rest < scene.walkBound := by
  have most := Nat.mul_le_mul_right (scene.nodeCount + 1)
    (scene.unvisited_le expanding)
  rw [walkMeasure, walkBound, Nat.succ_mul]
  omega

/-- The measure falls when one node more is expanded. -/
theorem walkMeasure_expand {expanding : List NodeRef} {target : NodeRef}
    {rest rest' : Nat} (known : target ∈ scene.nodeRefs)
    (fresh : target ∉ expanding) (small : rest' ≤ scene.nodeCount) :
    scene.walkMeasure (target :: expanding) rest' <
      scene.walkMeasure expanding rest := by
  have expands : scene.unvisited (target :: expanding) <
      scene.unvisited expanding :=
    unvisited_lt known fresh (by simp [or_comm])
  have most := Nat.mul_le_mul_right (scene.nodeCount + 1) expands
  rw [Nat.succ_mul] at most
  rw [walkMeasure, walkMeasure]
  omega

/-- The calls of the walk for relative leafrefs, with the groupings that are being
expanded. -/
inductive BelowCalls (scene : Scene) :
    NodeRef × List NodeRef → NodeRef × List NodeRef → Prop
  | child {place child : NodeRef} {expanding : List NodeRef}
      (inside : child ∈ scene.children place) :
      BelowCalls scene (place, expanding) (child, expanding)
  | uses {place uses target : NodeRef} {expanding : List NodeRef}
      {body : UsesBody} (inside : uses ∈ scene.children place)
      (isUses : scene.construct? uses = some (.uses body))
      (linked : body.target = some target) (fresh : target ∉ expanding) :
      BelowCalls scene (place, expanding) (target, target :: expanding)

theorem leafrefsBelow_add {bound : Nat} {place : NodeRef}
    {expanding : List NodeRef}
    (ends : EndsWithin scene.BelowCalls bound (place, expanding)) (more : Nat)
    (chain : List NodeRef) :
    Linking.leafrefsBelow scene (bound + more) place chain expanding =
      Linking.leafrefsBelow scene bound place chain expanding := by
  induction bound generalizing place chain expanding with
  | zero => cases ends
  | succ bound ih =>
      rw [Nat.add_right_comm]
      unfold Linking.leafrefsBelow
      refine List.flatMap_congr fun child inside => ?_
      split
      · rfl
      next body isUses =>
        split
        · rfl
        next target linked =>
          split
          · rfl
          next fresh =>
            exact ih (ends.next (.uses inside isUses linked
              (by simpa using fresh))) _
      · rfl
      · rfl
      · rfl
      · rfl
      · rfl
      · exact ih (ends.next (.child inside)) _

/-- A walk below a grouping ends before its bound is reached. -/
theorem leafrefs_endsWithin (orderly : scene.IsOrderly) {place : NodeRef}
    (expanding : List NodeRef) (looks : scene.LooksAt place) :
    EndsWithin scene.BelowCalls scene.walkBound (place, expanding) := by
  refine .of_measure (fun state => scene.LooksAt state.1)
    (fun state => scene.walkMeasure state.2 (scene.nodeCount - state.1.node))
    ?_ looks (walkMeasure_lt_walkBound expanding (Nat.sub_le _ _))
  intro state next looks call
  cases call with
  | child inside =>
      obtain ⟨behind, among⟩ :=
        lt_of_mem_children (orderly.nested looks) inside
      exact ⟨looks.child inside, Nat.add_lt_add_left
        (Nat.sub_lt_sub_left (Nat.lt_trans behind among) behind) _⟩
  | uses inside isUses linked fresh =>
      have target := (looks.child inside).link
        (links_of_construct isUses rfl linked)
      exact ⟨target,
        walkMeasure_expand (orderly.known target) fresh (Nat.sub_le _ _)⟩

/-- A place, the overlay in force there and the groupings that are being
expanded. -/
abbrev CollectState :=
  NodeRef × List (NodeRef × NodeRef) × List NodeRef

/-- The calls of the search for what one step can name. -/
inductive CollectCalls (scene : Scene) : CollectState → CollectState → Prop
  | uses {place uses target : NodeRef} {overlay : List (NodeRef × NodeRef)}
      {expanding : List NodeRef} {body : UsesBody}
      (inside : uses ∈ scene.children place)
      (isUses : scene.construct? uses = some (.uses body))
      (linked : body.target = some target) (fresh : target ∉ expanding) :
      CollectCalls scene (place, overlay, expanding)
        (target, overlay ++ scene.usesAugments uses, target :: expanding)
  | through {place child : NodeRef} {overlay : List (NodeRef × NodeRef)}
      {expanding : List NodeRef} (inside : child ∈ scene.children place)
      (transparent : scene.isTransparent child = true) :
      CollectCalls scene (place, overlay, expanding)
        (child, overlay, expanding)
  | augment {place augment : NodeRef} {overlay : List (NodeRef × NodeRef)}
      {expanding : List NodeRef}
      (active : augment ∈ augmentsOf place (scene.augments ++ overlay)) :
      CollectCalls scene (place, overlay, expanding)
        (augment, overlay, expanding)

theorem collect_add {bound : Nat} {place : NodeRef}
    {overlay : List (NodeRef × NodeRef)} {expanding : List NodeRef}
    (ends : EndsWithin scene.CollectCalls bound (place, overlay, expanding))
    (more : Nat) (walk : Walk) :
    scene.collect walk (bound + more) place overlay expanding =
      scene.collect walk bound place overlay expanding := by
  induction bound generalizing place overlay expanding with
  | zero => cases ends
  | succ bound ih =>
      rw [Nat.add_right_comm]
      unfold collect
      dsimp only
      rw [← augmentsOf_append]
      refine congr (congrArg _ ?_) ?_
      · refine List.flatMap_congr fun child inside => ?_
        split
        · rfl
        next body isUses =>
          split
          · rfl
          next target linked =>
            split
            · rfl
            next fresh =>
              exact ih (ends.next (.uses inside isUses linked
                (by simpa using fresh)))
        next construct _ isConstruct =>
          split
          next seenThrough =>
            refine ih (ends.next (.through inside ?_))
            simpa [isTransparent, kind?_eq, isConstruct] using seenThrough.2
          · rfl
      · exact List.flatMap_congr fun augment active =>
          ih (ends.next (.augment active))

/-- What a search is about has been looked at, and the overlay holds augments that
are bound inside a `uses`. -/
structure IsSearch (scene : Scene) (state : CollectState) : Prop where
  looks : scene.LooksAt state.1
  overlay : ∀ pair ∈ state.2.1, scene.LooksAt pair.2 ∧
    scene.boundTo? pair.2 = some pair.1 ∧ pair.2.node ≠ rootId

namespace IsSearch

variable {place next : NodeRef} {overlay overlay' : List (NodeRef × NodeRef)}
  {expanding expanding' : List NodeRef}

theorem start (looks : scene.LooksAt place) (expanding : List NodeRef) :
    scene.IsSearch (place, [], expanding) :=
  ⟨looks, List.forall_mem_nil _⟩

/-- Every augment in force is bound to the place. -/
theorem active (orderly : scene.IsOrderly)
    (search : scene.IsSearch (place, overlay, expanding)) {augment : NodeRef}
    (active : augment ∈ augmentsOf place (scene.augments ++ overlay)) :
    scene.LooksAt augment ∧ scene.boundTo? augment = some place ∧
      augment.node ≠ rootId := by
  obtain listed | listed := List.mem_append.mp (mem_of_mem_augmentsOf active)
  · exact ⟨.augment listed, orderly.augments listed⟩
  · exact search.overlay _ listed

theorem call (orderly : scene.IsOrderly)
    (search : scene.IsSearch (place, overlay, expanding))
    (call : scene.CollectCalls (place, overlay, expanding)
      (next, overlay', expanding')) :
    scene.IsSearch (next, overlay', expanding') := by
  cases call with
  | @uses _ uses _ _ _ _ inside isUses linked fresh =>
      have within : scene.LooksAt uses := search.looks.child inside
      refine ⟨within.link (links_of_construct isUses rfl linked), ?_⟩
      refine List.forall_mem_append.mpr ⟨search.overlay, fun pair listed => ?_⟩
      obtain ⟨child, body, isAugment, bound⟩ := mem_usesAugments_iff.mp listed
      have behind := (lt_of_mem_children (orderly.nested within) child).1
      exact ⟨within.child child,
        boundTo?_eq_some_iff.mpr ⟨body, isAugment, bound⟩,
        (Nat.lt_of_le_of_lt (Nat.zero_le _) behind).ne'⟩
  | through inside transparent =>
      exact ⟨search.looks.child inside, search.overlay⟩
  | augment active => exact ⟨(search.active orderly active).1, search.overlay⟩

end IsSearch

/-- A search for what a step can name ends before its bound is reached. -/
theorem collect_endsWithin (orderly : scene.IsOrderly) {place : NodeRef}
    (expanding : List NodeRef) (looks : scene.LooksAt place) :
    EndsWithin scene.CollectCalls scene.walkBound (place, [], expanding) := by
  refine .of_measure scene.IsSearch
    (fun state => scene.walkMeasure state.2.2 (scene.reachCount state.1))
    ?_ (.start looks expanding)
    (walkMeasure_lt_walkBound expanding (scene.reachCount_le place))
  rintro ⟨place, overlay, expanding⟩ ⟨next, overlay', expanding'⟩ search call
  have search' := search.call orderly call
  refine ⟨search', ?_⟩
  cases call with
  | uses inside isUses linked fresh =>
      exact walkMeasure_expand (orderly.known search'.looks) fresh
        (scene.reachCount_le _)
  | through inside transparent =>
      exact Nat.add_lt_add_left (Leads.reachCount_lt (.child
        (orderly.nested search.looks) inside transparent)) _
  | augment active =>
      obtain ⟨looks, bound, inner⟩ := search.active orderly active
      exact Nat.add_lt_add_left (Leads.reachCount_lt
        (.augment inner bound (orderly.rests looks bound))) _

end YangSchema.Scene
