import YangSchema.Proofs.Instances.Search

/-!
# What a step can name

The search for what a step can name goes through the nodes, which all instances
of a node share.  It starts where the lookup stands, and from there it has some
spots in sight.  As long as nothing in sight belongs anywhere else, a step finds
the instance of a name if this is in sight.  Names that are distinct make sure
that nothing is cut off:  a way that goes round in a circle would lead to
another instance of the same name.
-/

namespace YangSchema

namespace Scene

section

variable (scene : Scene)

/-- The spots that the search has in sight from where the lookup stands, with
the augments of the `uses` on the way.  At the node that an augment is bound to
it sees the augment if this stands at the top level of a unit, or else if its
`uses` is on the way. -/
inductive Sees (stand : Spot) : Spot → List (NodeRef × NodeRef) → Prop
  | here : Sees stand stand []
  | part {submodule : SourceId}
      (shared : ⟨submodule, rootId⟩ ∈ scene.sharedRoots stand.ref) :
      Sees stand (.part (scene.host stand) submodule) []
  | through {place : Spot} {id : NodeId} {overlay : List (NodeRef × NodeRef)}
      (seen : Sees stand place overlay)
      (inside : (Spot.child place id).ref ∈ scene.children place.ref)
      (transparent : scene.isTransparent (Spot.child place id).ref = true) :
      Sees stand (.child place id) overlay
  | copy {place : Spot} {id : NodeId} {body : UsesBody} {grouping : NodeRef}
      {overlay : List (NodeRef × NodeRef)} (seen : Sees stand place overlay)
      (inside : ⟨place.ref.source, id⟩ ∈ scene.children place.ref)
      (isUses : scene.construct? ⟨place.ref.source, id⟩ = some (.uses body))
      (target : body.target = some grouping) :
      Sees stand (.copy place id grouping)
        (overlay ++ scene.usesAugments ⟨place.ref.source, id⟩)
  | addition {place : Spot} {augment : NodeRef} {uses : List NodeRef}
      {overlay : List (NodeRef × NodeRef)} (seen : Sees stand place overlay)
      (active : augment ∈ augmentsOf place.ref (scene.augments ++ overlay)) :
      Sees stand (.addition place augment uses) overlay

/-- The node of an instance is in sight. -/
def HasInSight (stand inner : Spot) : Prop :=
  ∃ spot overlay, scene.Sees stand spot overlay ∧
    scene.Offers spot.ref inner.ref

/-- What is in sight under a name belongs there. -/
def ShowsOnly (stand : Spot) (name : String) : Prop :=
  ∀ {spot : Spot} {overlay : List (NodeRef × NodeRef)} {node : NodeRef},
    scene.Sees stand spot overlay → scene.Offers spot.ref node →
      scene.nameOf node = name →
        ∃ spot', scene.Placed spot' ∧ scene.host spot' = scene.host stand ∧
          spot'.trail = spot.trail

/-- What is in sight under the names of steps belongs there, from where the
lookup stands and then from the instances that it gets to. -/
def ShowsOnlyAlong : Spot → List QualifiedName → Prop
  | _, [] => True
  | stand, step :: steps =>
      scene.ShowsOnly stand step.name ∧
        ∀ inner, scene.Contains (scene.host stand) inner →
          scene.nameOf inner.ref = step.name → ShowsOnlyAlong inner steps

/-- Named steps down, each to an instance in sight from the one before. -/
inductive DescendsInSight : Spot → List QualifiedName → Spot → Prop
  | here {stand : Spot} : DescendsInSight stand [] stand
  | step {stand inner found : Spot} {step : QualifiedName}
      {steps : List QualifiedName}
      (contains : scene.Contains (scene.host stand) inner)
      (named : scene.nameOf inner.ref = step.name)
      (inSight : scene.HasInSight stand inner)
      (descends : DescendsInSight inner steps found) :
      DescendsInSight stand (step :: steps) found

end

variable {scene : Scene} {stand spot : Spot}
  {overlay overlay' : List (NodeRef × NodeRef)}

theorem ref_eq_of_trail {other : Spot} (same : spot.trail = other.trail) :
    spot.ref = other.ref := by
  have head (spot : Spot) : spot.trail.head? = some spot.ref := by
    cases spot <;> rfl
  exact Option.some.inj ((head spot).symm.trans (same ▸ head other))

/-- What is in sight lies on a way of the search. -/
theorem Sees.visits (seen : scene.Sees stand spot overlay) :
    ∃ base ∈ stand.ref :: scene.sharedRoots stand.ref, ∃ trace,
      scene.Visits base [] trace spot.ref overlay := by
  induction seen with
  | here => exact ⟨stand.ref, List.mem_cons_self, [], .here⟩
  | part shared => exact ⟨_, List.mem_cons_of_mem _ shared, [], .here⟩
  | through seen inside transparent ih =>
      obtain ⟨base, isBase, trace, visits⟩ := ih
      exact ⟨base, isBase, _,
        visits.append (.step (.through inside transparent) .here)⟩
  | copy seen inside isUses target ih =>
      obtain ⟨base, isBase, trace, visits⟩ := ih
      exact ⟨base, isBase, _,
        visits.append (.step (.copy inside isUses target) .here)⟩
  | addition seen active ih =>
      obtain ⟨base, isBase, trace, visits⟩ := ih
      exact ⟨base, isBase, _, visits.append (.step (.addition active) .here)⟩

/-- Every way of the search begins in sight. -/
theorem sees_base {base : NodeRef}
    (isBase : base ∈ stand.ref :: scene.sharedRoots stand.ref) :
    ∃ spot, scene.Sees stand spot [] ∧ spot.ref = base := by
  rcases List.mem_cons.mp isBase with rfl | shared
  · exact ⟨stand, .here, rfl⟩
  · have isRoot : base.node = rootId := by
      unfold sharedRoots at shared
      split at shared
      · split at shared
        · obtain ⟨submodule, -, rfl⟩ := List.mem_map.mp shared
          rfl
        · simp at shared
      · simp at shared
    obtain ⟨submodule, node⟩ := base
    obtain rfl : node = rootId := isRoot
    exact ⟨_, .part shared, rfl⟩

/-- What the search enters from a spot in sight is in sight. -/
theorem Sees.enters {next : NodeRef} (seen : scene.Sees stand spot overlay)
    (enters : scene.Enters spot.ref overlay next overlay') :
    ∃ spot', scene.Sees stand spot' overlay' ∧ spot'.ref = next ∧
      spot'.trail.length = spot.trail.length + 1 := by
  cases enters with
  | through inside transparent =>
      obtain ⟨source, id⟩ := next
      obtain rfl : source = spot.ref.source := (node?_of_mem_children inside).1
      exact ⟨.child spot id, .through seen inside transparent, rfl, rfl⟩
  | @copy uses _ body inside isUses target =>
      obtain ⟨source, id⟩ := uses
      obtain rfl : source = spot.ref.source := (node?_of_mem_children inside).1
      exact ⟨.copy spot id next, .copy seen inside isUses target, rfl, rfl⟩
  | addition active =>
      exact ⟨.addition spot next [], .addition seen active, rfl, rfl⟩

theorem Visits.sees {place last : NodeRef} {trace : List NodeRef}
    (visits : scene.Visits place overlay trace last overlay')
    (seen : scene.Sees stand spot overlay) (begins : spot.ref = place) :
    ∃ spot', scene.Sees stand spot' overlay' ∧ spot'.ref = last ∧
      spot'.trail.length = spot.trail.length + trace.length := by
  induction visits generalizing spot with
  | here => exact ⟨spot, seen, begins, rfl⟩
  | step enters _ ih =>
      subst begins
      obtain ⟨middle, seen, begins, longer⟩ := seen.enters enters
      obtain ⟨spot', seen, ends, longest⟩ := ih seen begins
      refine ⟨spot', seen, ends, ?_⟩
      rw [longest, longer, List.length_cons]
      omega

theorem Placed.contains {node : NodeRef} (placed : scene.Placed spot)
    (offers : scene.Offers spot.ref node) :
    scene.Contains (scene.host spot) (.child spot node.node) ∧
      (Spot.child spot node.node).ref = node := by
  obtain ⟨source, id⟩ := node
  obtain rfl : source = spot.ref.source :=
    (node?_of_mem_children offers.inside).1
  obtain ⟨kind, isKind, step⟩ := (Option.any_eq_true _ _).mp offers.step
  exact ⟨⟨spot, id, rfl, .child placed offers.inside isKind step,
    offers.visible, rfl⟩, rfl⟩

theorem Contains.isInstance {outer inner : Spot}
    (contains : scene.Contains outer inner) : scene.host inner = inner := by
  obtain ⟨place, id, rfl, -, visible, -⟩ := contains
  rw [host, visible, if_neg Bool.false_ne_true]

theorem Contains.offers {outer place : Spot} {id : NodeId}
    (contains : scene.Contains outer (.child place id)) :
    scene.Offers place.ref (Spot.child place id).ref := by
  obtain ⟨_, _, same, placed, visible, -⟩ := contains
  cases placed with
  | child _ inside isKind step =>
      exact ⟨inside, visible, by simpa [isKind] using step⟩

/-- Nothing is found under a name but instances in sight. -/
theorem ShowsOnly.contains {name : String}
    (shows : scene.ShowsOnly stand name) {node : NodeRef}
    (found : node ∈ scene.stepChildren .data stand.ref)
    (named : scene.nameOf node = name) :
    ∃ inner, scene.Contains (scene.host stand) inner ∧
      scene.HasInSight stand inner ∧ inner.ref = node := by
  obtain ⟨base, isBase, found⟩ := List.mem_flatMap.mp found
  obtain ⟨trace, last, overlay, visits, offers⟩ := visits_of_mem_collect found
  obtain ⟨start, seen, begins⟩ := sees_base isBase
  obtain ⟨spot, seen, ends, -⟩ := visits.sees seen begins
  subst ends
  obtain ⟨spot', placed, inside, same⟩ := shows seen offers named
  rw [← ref_eq_of_trail same] at offers
  obtain ⟨contains, isNode⟩ := placed.contains offers
  refine ⟨_, inside ▸ contains, ⟨spot, overlay, seen, ?_⟩, isNode⟩
  rwa [isNode, ← ref_eq_of_trail same]

/-- An instance in sight is found under its name. -/
theorem ShowsOnly.mem_stepChildren (wellFormed : scene.IsWellFormed)
    (distinct : scene.HasDistinctSiblings) {inner : Spot}
    (shows : scene.ShowsOnly stand (scene.nameOf inner.ref))
    (inSight : scene.HasInSight stand inner) :
    inner.ref ∈ scene.stepChildren .data stand.ref := by
  obtain ⟨place, overlay, seen, offers⟩ := inSight
  obtain ⟨base, isBase, trace, visits⟩ := seen.visits
  refine List.mem_flatMap.mpr ⟨base, isBase, ?_⟩
  have once : trace.Nodup := by
    -- Going round once more leads to a second instance of the node.
    by_contra again
    obtain ⟨longer, larger, less, visits'⟩ := visits.pump again
    obtain ⟨start, seen, begins⟩ := sees_base isBase
    have instanceAt {trace : List NodeRef}
        {overlay : List (NodeRef × NodeRef)}
        (visits : scene.Visits base [] trace place.ref overlay) :
        ∃ spot, spot.trail.length = start.trail.length + trace.length ∧
          scene.Contains (scene.host stand) (.child spot inner.ref.node) ∧
          (Spot.child spot inner.ref.node).ref = inner.ref := by
      obtain ⟨spot, seen, ends, length⟩ := visits.sees seen begins
      obtain ⟨spot', placed, inside, same⟩ := shows seen (ends ▸ offers) rfl
      have isPlace := (ref_eq_of_trail same).trans ends
      obtain ⟨contains, isNode⟩ := placed.contains (isPlace ▸ offers)
      exact ⟨spot', same ▸ length, inside ▸ contains, isNode⟩
    obtain ⟨first, firstLength, contains, same⟩ := instanceAt visits
    obtain ⟨second, secondLength, contains', same'⟩ := instanceAt visits'
    have equal := distinct contains contains' (by rw [same, same'])
    obtain ⟨rfl, -⟩ := Spot.child.inj equal
    omega
  exact visits.mem_collect offers (visits.length_lt wellFormed once) once
    (by simp)

theorem Contains.node? {outer inner : Spot}
    (contains : scene.Contains outer inner) :
    ∃ found, scene.node? inner.ref = some found := by
  obtain ⟨place, id, rfl, placed, -⟩ := contains
  cases placed with
  | child _ _ isKind _ =>
      obtain ⟨found, known, -⟩ := Option.map_eq_some_iff.mp isKind
      exact ⟨found, known⟩

theorem childNamed?_found {walk : Walk} {place node : NodeRef} {name : String}
    (found : scene.childNamed? walk place name = some node) :
    node ∈ scene.stepChildren walk place ∧ scene.nameOf node = name := by
  have named := List.find?_some found
  refine ⟨List.mem_of_find?_eq_some found, ?_⟩
  split at named
  next found known => simpa [nameOf, known] using named
  · simp at named

theorem childNamed?_isSome {walk : Walk} {place node : NodeRef}
    (member : node ∈ scene.stepChildren walk place)
    {known : SchemaNode} (isNode : scene.node? node = some known) :
    ∃ other, scene.childNamed? walk place (scene.nameOf node) =
      some other := by
  rw [← Option.isSome_iff_exists, childNamed?, List.find?_isSome]
  exact ⟨node, member, by simp [nameOf, isNode]⟩

/-- A step finds the instance with its name if this is in sight. -/
theorem childNamed?_eq_some_iff (wellFormed : scene.IsWellFormed)
    (distinct : scene.HasDistinctSiblings) {name : String}
    (shows : scene.ShowsOnly stand name) (node : NodeRef) :
    scene.childNamed? .data stand.ref name = some node ↔
      ∃ inner, scene.Contains (scene.host stand) inner ∧
        scene.nameOf inner.ref = name ∧ scene.HasInSight stand inner ∧
          inner.ref = node := by
  constructor
  · intro found
    obtain ⟨member, named⟩ := childNamed?_found found
    obtain ⟨inner, contains, inSight, rfl⟩ := shows.contains member named
    exact ⟨inner, contains, named, inSight, rfl⟩
  · rintro ⟨inner, contains, rfl, inSight, rfl⟩
    obtain ⟨known, isNode⟩ := contains.node?
    obtain ⟨other, found⟩ := childNamed?_isSome
      (shows.mem_stepChildren wellFormed distinct inSight) isNode
    obtain ⟨member, named⟩ := childNamed?_found found
    obtain ⟨inner', contains', -, rfl⟩ := shows.contains member named
    rw [found, distinct contains' contains named]

/-- Named steps through the units are steps down to instances in sight. -/
theorem follow_eq_ok_iff (wellFormed : scene.IsWellFormed)
    (distinct : scene.HasDistinctSiblings) {steps : List QualifiedName}
    (shows : scene.ShowsOnlyAlong stand steps) (node : NodeRef) :
    scene.follow .data stand.ref steps = .ok node ↔
      ∃ found, scene.DescendsInSight stand steps found ∧
        found.ref = node := by
  induction steps generalizing stand with
  | nil =>
      rw [follow, Except.ok.injEq]
      constructor
      · rintro rfl
        exact ⟨stand, .here, rfl⟩
      · rintro ⟨found, descends, rfl⟩
        cases descends
        rfl
  | cons step steps ih =>
      obtain ⟨here, further⟩ := shows
      have next (node : NodeRef) :=
        childNamed?_eq_some_iff wellFormed distinct here node
      rw [follow]
      constructor
      · intro followed
        split at followed
        next child found =>
          obtain ⟨inner, contains, named, inSight, rfl⟩ :=
            (next child).mp found
          obtain ⟨found, descends, same⟩ :=
            (ih (further inner contains named)).mp followed
          exact ⟨found, .step contains named inSight descends, same⟩
        · simp at followed
      · rintro ⟨found, descends, same⟩
        cases descends with
        | @step _ inner _ _ _ contains named inSight descends =>
            rw [(next inner.ref).mpr ⟨inner, contains, named, inSight, rfl⟩]
            exact (ih (further inner contains named)).mpr
              ⟨found, descends, same⟩

/-- Steps down to instances in sight are steps down the tree of instances. -/
theorem DescendsInSight.descends {steps : List QualifiedName} {found : Spot}
    (nonempty : steps ≠ [])
    (inSight : scene.DescendsInSight stand steps found) :
    scene.Descends (scene.host stand) steps found := by
  induction inSight with
  | here => exact absurd rfl nonempty
  | @step stand inner found step steps contains named _ descends ih =>
      refine .step contains named ?_
      cases steps with
      | nil =>
          cases descends
          exact .here
      | cons => exact contains.isInstance ▸ ih (by simp)

/-- Names lead down to one instance only. -/
theorem Descends.unique (distinct : scene.HasDistinctSiblings)
    {outer found other : Spot} {steps : List QualifiedName}
    (descends : scene.Descends outer steps found)
    (descends' : scene.Descends outer steps other) : found = other := by
  induction descends with
  | here =>
      cases descends'
      rfl
  | step contains named _ ih =>
      cases descends' with
      | step contains' named' descends' =>
          obtain rfl := distinct contains contains' (named.trans named'.symm)
          exact ih descends'

end Scene

end YangSchema
