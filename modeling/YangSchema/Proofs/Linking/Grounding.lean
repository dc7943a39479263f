import YangSchema.Proofs.Linking.Growing
import YangSchema.Proofs.Linking.Fields
import YangSchema.Proofs.Linking.Walks

/-!
# What an augment is bound to is grounded

A path for an augment starts at a root or at a grouping and goes on through choices
and cases, into groupings and into augments that are bound already.  So whatever it
leads to stands in no augment or in one that rests, and this stays so when further
augments are bound.
-/

namespace YangSchema

/-- The augments of a unit are bound to nodes that are grounded. -/
def LinkUnit.IsGroundedIn (unit : LinkUnit) (scene : Scene) : Prop :=
  ∀ id target, unit.tree.Links id .augment target → scene.IsGrounded target

theorem SchemaTree.links_augment_iff {tree : SchemaTree} {id : NodeId}
    {target : NodeRef} :
    tree.Links id .augment target ↔ ∃ body,
      tree.construct? id = some (.augment body) ∧ body.target = some target := by
  constructor
  · intro linked
    cases linked with
    | @construct construct _ _ found ofKind linked =>
        cases construct <;> simp only [Construct.targetKind?, reduceCtorEq,
          Option.some.injEq] at ofKind
        exact ⟨_, found, linked⟩
    | type _ linked => cases linked
  · rintro ⟨body, found, linked⟩
    exact .construct found rfl linked

theorem SchemaTree.link?_augment_iff {tree : SchemaTree} {id : NodeId}
    {target : NodeRef} :
    tree.link? ⟨id, .augment⟩ = some (.node target) ↔
      tree.Links id .augment target := by
  rw [links_augment_iff, link?, Option.bind_eq_some_iff]
  simp only [construct?_eq_some_iff]
  constructor
  · rintro ⟨node, found, linked⟩
    simp only [SchemaNode.link?, Construct.link?] at linked
    split at linked
    next body is => exact ⟨body, ⟨node, found, is⟩, by simpa using linked⟩
    · simp at linked
  · rintro ⟨body, ⟨node, found, is⟩, linked⟩
    exact ⟨node, found, by simp [SchemaNode.link?, Construct.link?, is, linked]⟩

namespace Scene

variable {scene : Scene} {place node target augment : NodeRef}

theorem boundTo?_eq_some_iff_links :
    scene.boundTo? augment = some target ↔
      scene.Links augment .augment target := by
  simp only [boundTo?_eq_some_iff, Links, SchemaTree.links_augment_iff,
    construct?_eq_some_iff]
  constructor
  · rintro ⟨body, ⟨tree, isTree, found⟩, linked⟩
    exact ⟨tree, isTree, body, found, linked⟩
  · rintro ⟨tree, isTree, body, found, linked⟩
    exact ⟨body, ⟨tree, isTree, found⟩, linked⟩

theorem isGrounded_of_none (around : scene.augmentAround? node = none) :
    scene.IsGrounded node := by
  intro base found
  simp [around] at found

theorem moduleRoot_node {source : SourceId} {qualifier : Option String}
    {root : NodeRef} (found : scene.moduleRoot source qualifier = .ok root) :
    root.node = rootId := by
  obtain ⟨sources, -, found⟩ := bind_eq_ok_iff.mp found
  split at found
  · obtain rfl := pure_eq_ok_iff.mp found
    rfl
  · simp at found

section

variable (orderly : scene.IsOrderly)
include orderly

theorem IsOrderly.isGrounded_root (looks : scene.LooksAt node)
    (root : node.node = rootId) : scene.IsGrounded node :=
  isGrounded_of_none (augmentAround?_root (orderly.nested looks) root)

theorem IsOrderly.isGrounded_grouping {body : UsesBody}
    (looks : scene.LooksAt place)
    (isUses : scene.construct? place = some (.uses body))
    (linked : body.target = some target) : scene.IsGrounded target :=
  isGrounded_of_none (augmentAround?_eq_none
    (orderly.groupings looks isUses linked) (by simp))

theorem IsOrderly.isGrounded_child (looks : scene.LooksAt place)
    (grounded : scene.IsGrounded place) (inside : node ∈ scene.children place)
    {construct : Construct} (found : scene.construct? node = some construct)
    (step : isStep construct.kind = true) : scene.IsGrounded node := by
  have kind : scene.kind? node = some construct.kind := by
    simp [kind?_eq, found]
  by_cases transparent : scene.isTransparent node = true
  · intro base around
    rw [augmentAround?_child (orderly.nested looks) inside transparent] at around
    exact grounded base around
  · refine isGrounded_of_none (augmentAround?_eq_none kind ?_)
    rw [isTransparent, kind] at transparent
    intro listed
    obtain is | is | is : construct.kind = .choice ∨ construct.kind = .case ∨
        construct.kind = .augment := by simpa using listed
    · simp [is] at transparent
    · simp [is] at transparent
    · simp [is, isStep] at step

/-- What one step can name is grounded if the place is. -/
theorem IsSearch.isGrounded {walk : Walk} {bound : Nat}
    {overlay : List (NodeRef × NodeRef)} {expanding : List NodeRef}
    (search : scene.IsSearch (place, overlay, expanding))
    (grounded : scene.IsGrounded place)
    (found : node ∈ scene.collect walk bound place overlay expanding) :
    scene.IsGrounded node := by
  induction bound generalizing place overlay expanding with
  | zero => simp [collect] at found
  | succ bound ih =>
      unfold collect at found
      dsimp only at found
      rw [← augmentsOf_append, List.mem_append, List.mem_flatMap,
        List.mem_flatMap] at found
      obtain ⟨child, inside, found⟩ | ⟨augment, active, found⟩ := found
      · have within : scene.LooksAt child := search.looks.child inside
        split at found
        · simp at found
        next body isUses =>
          split at found
          · simp at found
          next target linked =>
            split at found
            · simp at found
            next fresh =>
              exact ih (search.call orderly (.uses inside isUses linked
                  (by simpa using fresh)))
                (orderly.isGrounded_grouping within isUses linked) found
        next construct _ isConstruct =>
          split at found
          next seenThrough =>
            have transparent : scene.isTransparent child = true := by
              simpa [isTransparent, kind?_eq, isConstruct]
                using seenThrough.2
            refine ih (search.call orderly (.through inside transparent)) ?_
              found
            intro base around
            rw [augmentAround?_child (orderly.nested search.looks) inside
              transparent] at around
            exact grounded base around
          · split at found
            next step =>
              obtain rfl := List.mem_singleton.mp found
              exact orderly.isGrounded_child search.looks grounded inside
                isConstruct step
            · simp at found
      · obtain ⟨looks, bound, inner⟩ := search.active orderly active
        refine ih (search.call orderly (.augment active)) ?_ found
        intro base around
        rw [augmentAround?_augment inner (kind?_of_boundTo? bound)] at around
        obtain rfl := Option.some.inj around
        exact orderly.rests looks bound

theorem IsOrderly.isGrounded_follow {walk : Walk} {steps : List QualifiedName}
    (looks : scene.LooksAt place) (grounded : scene.IsGrounded place)
    (reached : scene.follow walk place steps = .ok target) :
    scene.IsGrounded target := by
  induction steps generalizing place with
  | nil =>
      obtain rfl : place = target := by simpa [Scene.follow] using reached
      exact grounded
  | cons step steps ih =>
      unfold Scene.follow at reached
      split at reached
      next child found =>
        have listed := List.mem_of_find?_eq_some found
        refine ih (looks.stepChildren listed) ?_ reached
        obtain ⟨root, among, collected⟩ := List.mem_flatMap.mp listed
        obtain rfl | shared := List.mem_cons.mp among
        · exact (IsSearch.start looks []).isGrounded orderly grounded collected
        · have rootLooks := looks.shared shared
          exact (IsSearch.start rootLooks []).isGrounded orderly
            (orderly.isGrounded_root rootLooks (mem_sharedRoots shared).2)
            collected
      · simp at reached

/-- The target of an augment is grounded. -/
theorem IsOrderly.isGrounded_augmentTarget {text : String}
    (looks : scene.LooksAt place)
    (reached : scene.augmentTarget place text = .ok target) :
    scene.IsGrounded target := by
  simp only [Scene.augmentTarget, bind_eq_ok_iff] at reached
  obtain ⟨path, _, start, starts, found, followed, reached⟩ := reached
  obtain ⟨startLooks, grounded⟩ :
      scene.LooksAt start ∧ scene.IsGrounded start := by
    unfold augmentStart at starts
    split at starts
    · have rootLooks := looks.moduleRoot starts
      exact ⟨rootLooks,
        orderly.isGrounded_root rootLooks (moduleRoot_node starts)⟩
    · split at starts
      next body isUses =>
        obtain ⟨uses, around, isUses⟩ := Option.bind_eq_some_iff.mp isUses
        have usesLooks := looks.ancestor (List.mem_of_mem_head? around)
        split at starts
        next grouping linked =>
          obtain rfl := Except.ok.inj starts
          exact ⟨usesLooks.link (links_of_construct isUses rfl linked),
            orderly.isGrounded_grouping usesLooks isUses linked⟩
        · simp at starts
      · simp at starts
  have foundGrounded := orderly.isGrounded_follow startLooks grounded followed
  split at reached <;> simp at reached
  all_goals
    subst reached
    exact foundGrounded

end

end Scene

end YangSchema
