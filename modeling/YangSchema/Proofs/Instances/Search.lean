import Mathlib.Data.List.Nodup
import YangSchema.Proofs.Instances.Tree
import YangSchema.Proofs.Linking.Unblocked

/-!
# The search for what a step can name

From a place the search enters choices and cases, groupings that are used there
and augments that are bound there, and finds the nodes in all the places that it
enters.  It never enters a grouping inside itself and is cut off at a depth.
Neither matters to a way that enters every place once:  what such a way leads to
is found.
-/

namespace YangSchema

namespace Scene

variable {scene : Scene} {place next last node : NodeRef}
  {overlay overlay' overlay'' : List (NodeRef × NodeRef)}
  {expanding trace : List NodeRef} {bound : Nat}

/-- A node that a data path can name in a place. -/
structure Offers (scene : Scene) (place node : NodeRef) : Prop where
  inside : node ∈ scene.children place
  visible : scene.isTransparent node = false
  step : (scene.kind? node).any isStep = true

/-- One place leads to another one, with the augments that are in force there
because of the `uses` on the way. -/
inductive Enters (scene : Scene) (place : NodeRef)
    (overlay : List (NodeRef × NodeRef)) :
    NodeRef → List (NodeRef × NodeRef) → Prop
  | through {child : NodeRef} (inside : child ∈ scene.children place)
      (transparent : scene.isTransparent child = true) :
      Enters scene place overlay child overlay
  | copy {uses grouping : NodeRef} {body : UsesBody}
      (inside : uses ∈ scene.children place)
      (isUses : scene.construct? uses = some (.uses body))
      (target : body.target = some grouping) :
      Enters scene place overlay grouping (overlay ++ scene.usesAugments uses)
  | addition {augment : NodeRef}
      (active : augment ∈ augmentsOf place (scene.augments ++ overlay)) :
      Enters scene place overlay augment overlay

/-- A way through places, with those that it enters one after the other. -/
inductive Visits (scene : Scene) : NodeRef → List (NodeRef × NodeRef) →
    List NodeRef → NodeRef → List (NodeRef × NodeRef) → Prop
  | here {place : NodeRef} {overlay : List (NodeRef × NodeRef)} :
      Visits scene place overlay [] place overlay
  | step {place next last : NodeRef}
      {overlay overlay' overlay'' : List (NodeRef × NodeRef)}
      {trace : List NodeRef} (enters : scene.Enters place overlay next overlay')
      (visits : Visits scene next overlay' trace last overlay'') :
      Visits scene place overlay (next :: trace) last overlay''

theorem Visits.append {middle : NodeRef} {trace' : List NodeRef}
    (first : scene.Visits place overlay trace middle overlay')
    (second : scene.Visits middle overlay' trace' last overlay'') :
    scene.Visits place overlay (trace ++ trace') last overlay'' := by
  induction first with
  | here => exact second
  | step enters _ ih => exact .step enters (ih second)

theorem isTransparent_iff {ref : NodeRef} :
    scene.isTransparent ref = true ↔
      (∃ body, scene.construct? ref = some (.choice body)) ∨
        scene.construct? ref = some .case := by
  rw [isTransparent, kind?_eq]
  cases scene.construct? ref with
  | none => simp
  | some construct => cases construct <;> simp [Construct.kind]

/-- How a node that the search finds has been come by. -/
inductive Finds (scene : Scene) (place : NodeRef)
    (overlay : List (NodeRef × NodeRef)) (expanding : List NodeRef)
    (bound : Nat) (node : NodeRef) : Prop
  | here (offers : scene.Offers place node)
  | through {child : NodeRef} (inside : child ∈ scene.children place)
      (transparent : scene.isTransparent child = true)
      (found : node ∈ scene.collect .data bound child overlay expanding)
  | copy {uses grouping : NodeRef} {body : UsesBody}
      (inside : uses ∈ scene.children place)
      (isUses : scene.construct? uses = some (.uses body))
      (target : body.target = some grouping) (fresh : grouping ∉ expanding)
      (found : node ∈ scene.collect .data bound grouping
        (overlay ++ scene.usesAugments uses) (grouping :: expanding))
  | addition {augment : NodeRef}
      (active : augment ∈ augmentsOf place (scene.augments ++ overlay))
      (found : node ∈ scene.collect .data bound augment overlay expanding)

theorem finds_of_mem_collect
    (found : node ∈
      scene.collect .data (bound + 1) place overlay expanding) :
    scene.Finds place overlay expanding bound node := by
  rw [collect, List.mem_append, List.mem_flatMap, List.mem_flatMap,
    ← augmentsOf_append] at found
  rcases found with ⟨child, inside, found⟩ | ⟨augment, active, found⟩
  · split at found
    · simp at found
    next body isUses =>
      split at found
      · simp at found
      next grouping target =>
        split at found
        · simp at found
        next fresh =>
          exact .copy inside isUses target (by simpa using fresh) found
    next construct _ isConstruct =>
      have kind := scene.kind?_eq child
      rw [isConstruct, Option.map_some] at kind
      have transparent : scene.isTransparent child = true ↔
          construct.kind = .choice ∨ construct.kind = .case := by
        simp [isTransparent, kind]
      dsimp only at found
      split at found
      next seenThrough =>
        exact .through inside (transparent.mpr seenThrough.2) found
      next visible =>
        split at found
        next step =>
          obtain rfl := List.mem_singleton.mp found
          refine .here ⟨inside, ?_, by simpa [kind] using step⟩
          rw [← Bool.not_eq_true, transparent]
          exact fun either => visible ⟨rfl, either⟩
        · simp at found
  · exact .addition active found

theorem Finds.mem_collect
    (finds : scene.Finds place overlay expanding bound node) :
    node ∈ scene.collect .data (bound + 1) place overlay expanding := by
  rw [collect, List.mem_append, List.mem_flatMap, List.mem_flatMap,
    ← augmentsOf_append]
  cases finds with
  | here offers =>
      refine .inl ⟨node, offers.inside, ?_⟩
      have visible := offers.visible
      have step := offers.step
      rw [isTransparent] at visible
      rw [kind?_eq] at visible step
      cases is : scene.construct? node with
      | none => simp [is] at step
      | some construct =>
          cases construct <;> simp_all [Construct.kind, isStep]
  | @through child inside transparent found =>
      refine .inl ⟨child, inside, ?_⟩
      rcases isTransparent_iff.mp transparent with ⟨body, is⟩ | is
      all_goals simpa [is, Construct.kind] using found
  | @copy uses grouping body inside isUses target fresh found =>
      refine .inl ⟨uses, inside, ?_⟩
      simpa [isUses, target, fresh] using found
  | @addition augment active found => exact .inr ⟨augment, active, found⟩

/-- Whatever is found lies at the end of a way. -/
theorem visits_of_mem_collect
    (found : node ∈ scene.collect .data bound place overlay expanding) :
    ∃ trace last overlay', scene.Visits place overlay trace last overlay' ∧
      scene.Offers last node := by
  induction bound generalizing place overlay expanding with
  | zero => simp [collect] at found
  | succ bound ih =>
      cases finds_of_mem_collect found with
      | here offers => exact ⟨[], place, overlay, .here, offers⟩
      | through inside transparent found =>
          obtain ⟨trace, last, overlay', visits, offers⟩ := ih found
          exact ⟨_, last, overlay',
            .step (.through inside transparent) visits, offers⟩
      | copy inside isUses target fresh found =>
          obtain ⟨trace, last, overlay', visits, offers⟩ := ih found
          exact ⟨_, last, overlay',
            .step (.copy inside isUses target) visits, offers⟩
      | addition active found =>
          obtain ⟨trace, last, overlay', visits, offers⟩ := ih found
          exact ⟨_, last, overlay', .step (.addition active) visits, offers⟩

/-- What lies at the end of a way that enters every place once is found. -/
theorem Visits.mem_collect
    (visits : scene.Visits place overlay trace last overlay')
    (offers : scene.Offers last node) (short : trace.length < bound)
    (once : trace.Nodup) (fresh : ∀ entered ∈ trace, entered ∉ expanding) :
    node ∈ scene.collect .data bound place overlay expanding := by
  induction visits generalizing bound expanding with
  | here =>
      obtain ⟨bound, rfl⟩ := Nat.exists_eq_add_of_lt short
      simp only [List.length_nil, Nat.zero_add]
      exact Finds.mem_collect (.here offers)
  | @step place next last overlay overlay' overlay'' trace enters visits ih =>
      obtain ⟨bound, rfl⟩ : ∃ less, bound = less + 1 :=
        Nat.exists_eq_succ_of_ne_zero (by omega)
      rw [List.length_cons] at short
      rw [List.nodup_cons] at once
      rw [List.forall_mem_cons] at fresh
      apply Finds.mem_collect
      cases enters with
      | through inside transparent =>
          exact .through inside transparent
            (ih offers (by omega) once.2 fresh.2)
      | copy inside isUses target =>
          refine .copy inside isUses target fresh.1 ?_
          refine ih offers (by omega) once.2 fun entered member => ?_
          rw [List.mem_cons, not_or]
          exact ⟨fun same => once.1 (same ▸ member), fresh.2 entered member⟩
      | addition active =>
          exact .addition active (ih offers (by omega) once.2 fresh.2)

/-- With more augments in force the same places can be entered. -/
theorem Enters.mono {larger : List (NodeRef × NodeRef)}
    (enters : scene.Enters place overlay next overlay')
    (more : overlay ⊆ larger) :
    ∃ larger', overlay' ⊆ larger' ∧
      scene.Enters place larger next larger' := by
  cases enters with
  | through inside transparent =>
      exact ⟨larger, more, .through inside transparent⟩
  | copy inside isUses target =>
      refine ⟨_, ?_, .copy inside isUses target⟩
      exact List.append_subset.mpr ⟨List.subset_append_of_subset_left _ more,
        List.subset_append_right _ _⟩
  | addition active =>
      refine ⟨larger, more, .addition ?_⟩
      simp only [augmentsOf, List.mem_map, List.mem_filter,
        List.mem_append] at active ⊢
      obtain ⟨pair, ⟨listed, about⟩, same⟩ := active
      exact ⟨pair, ⟨listed.imp id (more ·), about⟩, same⟩

theorem Enters.grows (enters : scene.Enters place overlay next overlay') :
    overlay ⊆ overlay' := by
  cases enters with
  | through => exact List.Subset.refl overlay
  | copy => exact List.subset_append_left _ _
  | addition => exact List.Subset.refl overlay

theorem Visits.mono {larger : List (NodeRef × NodeRef)}
    (visits : scene.Visits place overlay trace last overlay')
    (more : overlay ⊆ larger) :
    ∃ larger', scene.Visits place larger trace last larger' := by
  induction visits generalizing larger with
  | here => exact ⟨larger, .here⟩
  | step enters _ ih =>
      obtain ⟨middle, more, enters⟩ := enters.mono more
      obtain ⟨larger', visits⟩ := ih more
      exact ⟨larger', .step enters visits⟩

theorem Visits.grows
    (visits : scene.Visits place overlay trace last overlay') :
    overlay ⊆ overlay' := by
  induction visits with
  | here => exact List.Subset.refl _
  | step enters _ ih => exact List.Subset.trans enters.grows ih

/-- A way can be cut at every place that it enters. -/
theorem Visits.split {middle : NodeRef}
    (visits : scene.Visits place overlay trace last overlay')
    (member : middle ∈ trace) :
    ∃ before after between, before ≠ [] ∧ trace = before ++ after ∧
      scene.Visits place overlay before middle between ∧
      scene.Visits middle between after last overlay' := by
  induction visits with
  | here => simp at member
  | @step place next last overlay between overlay' rest enters visits ih =>
      rcases List.mem_cons.mp member with rfl | member
      · exact ⟨[middle], rest, between, by simp, rfl, .step enters .here,
          visits⟩
      · obtain ⟨before, after, between, -, rfl, first, second⟩ := ih member
        exact ⟨next :: before, after, between, by simp, rfl,
          .step enters first, second⟩

/-- A way that enters a place twice can go round once more:  on the second time
at least the same augments are in force. -/
theorem Visits.pump (visits : scene.Visits place overlay trace last overlay')
    (again : ¬ trace.Nodup) :
    ∃ longer larger, trace.length < longer.length ∧
      scene.Visits place overlay longer last larger := by
  induction visits with
  | here => simp at again
  | @step place next last overlay between overlay' rest enters visits ih =>
      by_cases repeated : next ∈ rest
      · obtain ⟨round, after, later, nonempty, rfl, around, onwards⟩ :=
          visits.split repeated
        obtain ⟨latest, around'⟩ := around.mono around.grows
        obtain ⟨larger, onwards'⟩ := onwards.mono around'.grows
        refine ⟨next :: (round ++ (round ++ after)), larger, ?_,
          .step enters (around.append (around'.append onwards'))⟩
        have positive := List.length_pos_iff.mpr nonempty
        simp only [List.length_cons, List.length_append]
        omega
      · rw [List.nodup_cons, not_and] at again
        obtain ⟨longer, larger, less, visits⟩ := ih (again repeated)
        exact ⟨next :: longer, larger, by simpa using less,
          .step enters visits⟩

/-- All places that a way enters are nodes of the scene. -/
theorem Visits.mem_nodeRefs (wellFormed : scene.IsWellFormed)
    (visits : scene.Visits place overlay trace last overlay')
    (known : ∀ pair ∈ overlay, pair.2 ∈ scene.nodeRefs) :
    ∀ entered ∈ trace, entered ∈ scene.nodeRefs := by
  induction visits with
  | here => simp
  | @step place next last overlay between overlay' rest enters visits ih =>
      rw [List.forall_mem_cons]
      cases enters with
      | through inside transparent =>
          exact ⟨mem_nodeRefs_of_mem_children inside, ih known⟩
      | @copy uses _ body inside isUses target =>
          have kind := wellFormed.groupings isUses target
          obtain ⟨found, isNode, -⟩ := Option.map_eq_some_iff.mp kind
          refine ⟨mem_nodeRefs_of_node? isNode, ih fun pair member => ?_⟩
          rcases List.mem_append.mp member with member | member
          · exact known pair member
          · exact mem_nodeRefs_of_mem_children
              (mem_usesAugments_iff.mp member).1
      | addition active =>
          refine ⟨?_, ih known⟩
          simp only [augmentsOf, List.mem_map, List.mem_filter,
            List.mem_append] at active
          obtain ⟨pair, ⟨listed, -⟩, rfl⟩ := active
          exact listed.elim (wellFormed.augments pair) (known pair)

/-- A way that enters every place once is short. -/
theorem Visits.length_lt (wellFormed : scene.IsWellFormed)
    (visits : scene.Visits place [] trace last overlay')
    (once : trace.Nodup) : trace.length < scene.walkBound := by
  have inside := visits.mem_nodeRefs wellFormed (by simp)
  have short := once.length_le_of_subset inside
  rw [length_nodeRefs] at short
  calc
    trace.length < scene.nodeCount + 1 := Nat.lt_succ_of_le short
    _ ≤ scene.walkBound := Nat.le_mul_of_pos_right _ (Nat.succ_pos _)

end Scene

end YangSchema
