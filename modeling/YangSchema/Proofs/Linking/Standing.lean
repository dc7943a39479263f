import YangSchema.Proofs.Linking.Binding
import YangSchema.Proofs.Linking.Fixpoint

/-!
# References with one outcome

What an outcome writes to the fields of its reference depends on the statements
of the unit only.  So if nothing but one outcome is ever found for a reference, it
is at every moment of linking either as it was at the start or as it is with that
outcome written down:  other references have other fields.
-/

namespace YangSchema

namespace Construct

/-- The types of a construct without its links have no links either. -/
theorem typeAt?_unlinked (construct : Construct) (member : Option Nat) :
    construct.unlinked.typeAt? member =
      (construct.typeAt? member).map (·.unlinked) := by
  cases member <;> cases construct <;> simp [unlinked, typeAt?, type?]

end Construct

namespace SchemaTree

variable {before after : SchemaTree}

/-- What is read off a node without its links is the same if only links differ. -/
theorem bind_node?_congr {α : Type} {read : SchemaNode → Option α}
    (erased : ∀ node, read node.unlinked = read node)
    (nodes : ∀ id,
      (after.node? id).map (·.unlinked) = (before.node? id).map (·.unlinked))
    (id : NodeId) : (after.node? id).bind read = (before.node? id).bind read := by
  have same := congrArg (·.bind read) (nodes id)
  simpa only [Option.bind_map, Function.comp_def, erased] using same

theorem link?_modifyConstruct (tree : SchemaTree) (id : NodeId)
    (change : Construct → Construct) (part : LinkPart) :
    (tree.modifyConstruct id change).link? ⟨id, part⟩ =
      (tree.node? id).bind fun node =>
        ({ node with construct := change node.construct } : SchemaNode).link?
          part := by
  rw [link?, node?_modifyConstruct, if_pos rfl, Option.bind_map]
  rfl

theorem link?_modifyMetadata (tree : SchemaTree) (id : NodeId)
    (change : Metadata → Metadata) (part : LinkPart) :
    (tree.modifyMetadata id change).link? ⟨id, part⟩ =
      (tree.node? id).bind fun node =>
        ({ node with metadata := change node.metadata } : SchemaNode).link?
          part := by
  rw [link?, node?_modifyMetadata, if_pos rfl, Option.bind_map]
  rfl

/-- A link that is set in a type does not depend on those that were there. -/
theorem bind_typeAt?_congr {slot : TypeSlot} {change : TypeLinks → TypeLinks}
    {read : TypeUse → Option LinkValue}
    (constant : ∀ use other,
      read (relink change use) = read (relink change other))
    (nodes : ∀ id,
      (after.node? id).map (·.unlinked) = (before.node? id).map (·.unlinked)) :
    ((after.modifyLinks slot change).typeAt? slot).bind read =
      ((before.modifyLinks slot change).typeAt? slot).bind read := by
  have set (tree : SchemaTree) :
      ((tree.modifyLinks slot change).typeAt? slot).bind read =
        (tree.node? slot.node).bind fun node =>
          (node.construct.typeAt? slot.member).bind fun use =>
            read (relink change use) := by
    rw [typeAt?_modifyLinks, if_pos rfl, typeAt?_eq, construct?,
      Option.bind_map, Option.bind_map, Option.bind_assoc]
    rfl
  rw [set, set]
  refine bind_node?_congr (fun node => ?_) nodes slot.node
  rw [SchemaNode.unlinked, Construct.typeAt?_unlinked, Option.bind_map]
  exact Option.bind_congr fun use _ => constant use.unlinked use

theorem link?_type (tree : SchemaTree) (slot : TypeSlot) :
    tree.link? ⟨slot.node, .typedef slot.member⟩ =
        (tree.typeAt? slot).bind (·.links.typedef.map .node) ∧
      tree.link? ⟨slot.node, .effective slot.member⟩ =
        (tree.typeAt? slot).bind (·.links.effective.map .effective) ∧
      tree.link? ⟨slot.node, .identity slot.member⟩ =
        (tree.typeAt? slot).bind (·.links.identity.map .node) ∧
      tree.link? ⟨slot.node, .leafrefTarget slot.member⟩ =
        (tree.typeAt? slot).bind (·.links.leafrefTarget.map .node) := by
  simp only [typeAt?_eq, construct?, Option.bind_map, Option.bind_assoc]
  exact ⟨rfl, rfl, rfl, rfl⟩

end SchemaTree

namespace LinkUnit

section

variable {before after : SchemaTree} {item : Reference} {field : LinkField}
  (nodes : ∀ id,
    (after.node? id).map (·.unlinked) = (before.node? id).map (·.unlinked))
  (listed : field ∈ item.results)
include nodes listed

/-- What a target is written to depends on the statements only. -/
theorem link?_bindTarget_congr (target : NodeRef)
    (direct : ∀ slot, item.kind ≠ .derivedType slot) :
    (bindTarget after item target).link? field =
      (bindTarget before item target).link? field := by
  cases made : item.origin with
  | some origin => simp [Reference.results, made] at listed
  | none =>
      cases kind : item.kind with
      | derivedType slot => exact absurd kind (direct slot)
      | uses | augment | base =>
          obtain rfl : field = _ := by
            simpa [Reference.results, made, kind] using listed
          simp only [bindTarget, made, kind, Option.isSome_none,
            Bool.false_eq_true, if_false, SchemaTree.link?_modifyConstruct]
          refine SchemaTree.bind_node?_congr (fun node => ?_) nodes _
          simp only [SchemaNode.link?, SchemaNode.unlinked]
          cases node.construct <;> rfl
      | ifFeature index =>
          obtain rfl : field = _ := by
            simpa [Reference.results, made, kind] using listed
          simp only [bindTarget, made, kind, Option.isSome_none,
            Bool.false_eq_true, if_false, SchemaTree.link?_modifyMetadata]
          refine SchemaTree.bind_node?_congr (fun node => ?_) nodes _
          simp [SchemaNode.link?, SchemaNode.unlinked, Metadata.unlinked,
            Option.map_map, Option.bind_map, Function.comp_def]
      | identityref slot | leafref slot =>
          obtain rfl : field = _ := by
            simpa [Reference.results, made, kind] using listed
          simp only [bindTarget, made, kind, Option.isSome_none,
            Bool.false_eq_true, if_false, (SchemaTree.link?_type _ slot).2]
          exact SchemaTree.bind_typeAt?_congr (fun _ _ => rfl) nodes

/-- What a derivation is written to depends on the statements only. -/
theorem link?_bindDerivation_congr {slot : TypeSlot}
    (kind : item.kind = .derivedType slot) (derivation : Derivation) :
    (bindDerivation after item slot derivation).link? field =
      (bindDerivation before item slot derivation).link? field := by
  cases made : item.origin with
  | some origin => simp [Reference.results, made] at listed
  | none =>
      simp only [bindDerivation, made, Option.isSome_none, Bool.false_eq_true,
        if_false]
      simp only [Reference.results, made, kind, List.mem_cons,
        List.not_mem_nil, or_false] at listed
      obtain rfl | rfl | rfl := listed
      all_goals
        simp only [SchemaTree.link?_type]
        exact SchemaTree.bind_typeAt?_congr (fun _ _ => rfl) nodes

end

variable {start unit : LinkUnit} {item : Reference} {index : Nat}
  {outcome : Outcome}

/-- Writing an outcome down touches the fields of its reference only. -/
theorem apply_writesTo (found : unit.queue[index]? = some item)
    (outcome : Outcome) :
    unit.tree.WritesTo (· ∈ item.results) (unit.apply index outcome).tree := by
  simp only [LinkUnit.apply, found]
  cases outcome with
  | pending | blocked | failed => exact .refl _ unit.tree
  | target target => exact bindTarget_writesTo unit.tree item target
  | derived derivation members =>
      dsimp only
      split
      next slot kind => exact bindDerivation_writesTo unit.tree kind derivation
      · exact .refl _ unit.tree

/-- Two units have the same reference at a place, in the same state and with the
same in its fields. -/
structure AgreesAt (unit other : LinkUnit) (index : Nat) (item : Reference) :
    Prop where
  state : other.queue[index]? = unit.queue[index]?
  fields : ∀ field ∈ item.results,
    other.tree.link? field = unit.tree.link? field

theorem AgreesAt.refl (unit : LinkUnit) (index : Nat) (item : Reference) :
    unit.AgreesAt unit index item :=
  ⟨rfl, fun _ _ => rfl⟩

theorem AgreesAt.trans {middle other : LinkUnit}
    (first : unit.AgreesAt middle index item)
    (second : middle.AgreesAt other index item) :
    unit.AgreesAt other index item :=
  ⟨second.state.trans first.state, fun field listed =>
    (second.fields field listed).trans (first.fields field listed)⟩

theorem AgreesAt.symm {other : LinkUnit}
    (agree : unit.AgreesAt other index item) :
    other.AgreesAt unit index item :=
  ⟨agree.state.symm, fun field listed => (agree.fields field listed).symm⟩

/-- The state that an outcome puts the reference of a kind into. -/
def stateOf (kind : ReferenceKind) (state : ReferenceState) :
    Outcome → ReferenceState
  | .pending => state
  | .blocked => .blocked
  | .failed failure => .failed failure
  | .target target => .resolved target
  | .derived derivation _ =>
      match kind with
      | .derivedType _ => .resolved derivation.typedef
      | _ => state

theorem getElem?_apply_self (found : unit.queue[index]? = some item)
    (outcome : Outcome) :
    (unit.apply index outcome).queue[index]? =
      some { item with state := stateOf item.kind item.state outcome } := by
  have inside := (List.getElem?_eq_some_iff.mp found).1
  simp only [LinkUnit.apply, found]
  cases outcome with
  | pending => exact found
  | blocked | failed | target =>
      simp [ReferenceQueue.getElem?_setState, found, stateOf]
  | derived derivation members =>
      dsimp only
      split
      next slot kind =>
        simp [ReferenceQueue.getElem?_setState, stateOf, kind,
          List.getElem?_append_left inside, found]
      next other =>
        have same : stateOf item.kind item.state
            (.derived derivation members) = item.state := by
          cases kind : item.kind <;> simp_all [stateOf]
        rw [same]
        exact found

/-- Writing an outcome down twice is writing it down once. -/
theorem stateOf_stateOf (kind : ReferenceKind) (state : ReferenceState)
    (outcome : Outcome) :
    stateOf kind (stateOf kind state outcome) outcome =
      stateOf kind state outcome := by
  cases outcome with
  | derived derivation members => cases kind <;> rfl
  | _ => rfl

/-- Where an outcome is written down later, the same comes of its reference. -/
theorem apply_agreesAt (found : start.queue[index]? = some item)
    (further : start.LinksFurther unit)
    (agree : start.AgreesAt unit index item ∨
      (start.apply index outcome).AgreesAt unit index item) :
    (start.apply index outcome).AgreesAt (unit.apply index outcome) index
      item := by
  obtain ⟨state, found', -⟩ := further.queue found
  constructor
  · have same : stateOf item.kind state outcome =
        stateOf item.kind item.state outcome := by
      obtain agree | agree := agree
      · rw [agree.state, found, Option.some.injEq] at found'
        rw [congrArg (·.state) found']
      · rw [agree.state, getElem?_apply_self found, Option.some.injEq] at found'
        obtain rfl : stateOf item.kind item.state outcome = state :=
          congrArg (·.state) found'
        exact stateOf_stateOf item.kind item.state outcome
    rw [getElem?_apply_self found, getElem?_apply_self found']
    simp only [same]
  · intro field listed
    -- What does not write to the tree leaves it as the units agree on it.
    have untouched (same : (start.apply index outcome).tree = start.tree)
        (same' : (unit.apply index outcome).tree = unit.tree) :
        (unit.apply index outcome).tree.link? field =
          (start.apply index outcome).tree.link? field := by
      obtain agree | agree := agree
      · rw [same, same', agree.fields field listed]
      · rw [same', agree.fields field listed]
    cases outcome with
    | pending | blocked | failed =>
        refine untouched ?_ ?_ <;> simp only [LinkUnit.apply, found, found']
    | target target =>
        by_cases direct : ∀ slot, item.kind ≠ .derivedType slot
        · simp only [LinkUnit.apply, found, found']
          exact link?_bindTarget_congr further.tree.nodes listed target direct
        · obtain ⟨slot, kind⟩ := not_forall_not.mp direct
          refine untouched ?_ ?_ <;>
            simp [LinkUnit.apply, found, found', bindTarget, kind]
    | derived derivation members =>
        cases kind : item.kind with
        | derivedType slot =>
            simp only [LinkUnit.apply, found, found', kind]
            exact link?_bindDerivation_congr further.tree.nodes listed kind
              derivation
        | _ =>
            refine untouched ?_ ?_ <;>
              simp only [LinkUnit.apply, found, found', kind]

/-- Other references write to other fields. -/
theorem IsTidy.apply_agreesAt {other : Nat} (tidy : unit.IsTidy)
    (found : unit.queue[index]? = some item) (apart : other ≠ index)
    (outcome : Outcome) :
    unit.AgreesAt (unit.apply other outcome) index item where
  state := by rw [getElem?_apply outcome apart found, found]
  fields field listed := by
    cases found' : unit.queue[other]? with
    | none => simp only [LinkUnit.apply, found']
    | some item' =>
        refine (apply_writesTo found' outcome).others field fun listed' => ?_
        -- The claims of the two references are disjoint.
        have claims := (List.nodup_flatMap.mp tidy.apart).2
        rw [List.pairwise_iff_getElem] at claims
        obtain ⟨inside, is⟩ := List.getElem?_eq_some_iff.mp found
        obtain ⟨inside', is'⟩ := List.getElem?_eq_some_iff.mp found'
        have mine := item.results_sublist.mem listed
        have theirs := item'.results_sublist.mem listed'
        obtain before | behind := Nat.lt_or_gt_of_ne apart
        · have disjoint := claims other index inside' inside before
          rw [is, is'] at disjoint
          exact disjoint theirs mine
        · have disjoint := claims index other inside inside' behind
          rw [is, is'] at disjoint
          exact disjoint mine theirs

end LinkUnit

namespace Linking

section

variable {phase : LinkPhase} {place index : Nat} {start : LinkUnit}
  {item : Reference} {outcome : Outcome} {before after : Moment}

/-- A reference is as it was at the start or as its only outcome makes it, and
no other outcome waits for it. -/
structure Moment.Stands (moment : Moment) (place index : Nat)
    (start : LinkUnit) (item : Reference) (outcome : Outcome) : Prop where
  unit : ∃ unit, moment.units[place]? = some unit ∧ start.LinksFurther unit ∧
    (start.AgreesAt unit index item ∨
      (start.apply index outcome).AgreesAt unit index item)
  waiting : ∀ settled ∈ moment.waiting, settled.unit = place →
    settled.index = index → settled.outcome = outcome

/-- One step leaves a reference with one outcome as it was or writes this down. -/
theorem Moment.Step.stands (step : Moment.Step phase before after)
    (tidy : before.IsTidy) (found : start.queue[index]? = some item)
    (only : ∀ state,
      (Scene.ofUnits before.units phase).outcome start.source
          { item with state } ≠ .pending →
        (Scene.ofUnits before.units phase).outcome start.source
          { item with state } = outcome)
    (stands : before.Stands place index start item outcome) :
    after.Stands place index start item outcome := by
  obtain ⟨⟨unit, known, further, agree⟩, waiting⟩ := stands
  obtain ⟨state, found', -⟩ := further.queue found
  cases step with
  | rank units rank =>
      refine ⟨⟨unit, known, further, agree⟩, fun settled listed here at_ => ?_⟩
      obtain ⟨unit', item', known', -, queued, -, -, settles, same⟩ :=
        mem_rankOutcomes_iff.mp listed
      subst here at_
      obtain rfl := Option.some.inj (known.symm.trans known')
      obtain rfl := Option.some.inj (found'.symm.trans queued)
      have source : unit.source = start.source := further.tree.source
      rw [same, source] at settles ⊢
      exact only state settles
  | write units settled rest =>
      obtain ⟨first, others⟩ := List.forall_mem_cons.mp waiting
      obtain ⟨expects, -⟩ := List.forall_mem_cons.mp tidy.expected
      refine ⟨?_, others⟩
      by_cases here : settled.unit = place
      · subst here
        obtain ⟨unit', known', expects⟩ := expects
        obtain rfl := Option.some.inj (known.symm.trans known')
        have tidyUnit := tidy.units unit (List.mem_of_getElem? known)
          expects.usable
        refine ⟨unit.apply settled.index settled.outcome, by simp [known],
          further.trans (tidyUnit.apply expects).2, ?_⟩
        by_cases at_ : settled.index = index
        · rw [at_, first rfl at_]
          exact .inr (LinkUnit.apply_agreesAt found further agree)
        · have kept := tidyUnit.apply_agreesAt found' at_ settled.outcome
          have kept : unit.AgreesAt (unit.apply settled.index settled.outcome)
            index item := ⟨kept.state, kept.fields⟩
          exact agree.imp (·.trans kept) (·.trans kept)
      · exact ⟨unit, by simpa [List.getElem?_modify, here] using known, further,
          agree⟩
  | instances units across =>
      have evolved := (Step.instances units across).keeps tidy
      obtain ⟨unit', known', further'⟩ := evolved.2.unit known
      refine ⟨⟨unit', known', further.trans further', ?_⟩, List.forall_mem_nil _⟩
      have kept : unit.AgreesAt unit' index item := by
        simp only [instantiateGroupings, List.getElem?_map, known,
          Option.map_some, Option.some.injEq] at known'
        subst known'
        split
        · exact ⟨List.getElem?_append_left
            (List.getElem?_eq_some_iff.mp found').1, fun _ _ => rfl⟩
        · exact .refl unit index item
      exact agree.imp (·.trans kept) (·.trans kept)

theorem Moment.Steps.evolves (steps : Moment.Steps phase before after) :
    Evolves before.units after.units := by
  induction steps with
  | refl => exact .refl before.units
  | tail _ step ih => exact ih.trans step.evolves

/-- Wherever linking gets to, nothing but one outcome is found for a reference. -/
def HasOnly (phase : LinkPhase) (units : List LinkUnit) (source : SourceId)
    (item : Reference) (outcome : Outcome) : Prop :=
  ∀ after, Evolves units after → ∀ state,
    (Scene.ofUnits after phase).outcome source { item with state } ≠ .pending →
      (Scene.ofUnits after phase).outcome source { item with state } = outcome

/-- Any number of steps leaves a reference with one outcome as it was or writes
this down. -/
theorem Moment.Steps.stands (steps : Moment.Steps phase before after)
    (tidy : before.IsTidy) (found : start.queue[index]? = some item)
    (only : HasOnly phase before.units start.source item outcome)
    (stands : before.Stands place index start item outcome) :
    after.Stands place index start item outcome := by
  induction steps with
  | refl => exact stands
  | tail steps step ih =>
      exact step.stands (Moment.Steps.keeps steps tidy).1 found
        (only _ (Moment.Steps.evolves steps)) ih

variable {units units' : List LinkUnit} {unit : LinkUnit}
  (reached : Moment.Steps phase ⟨units, []⟩ ⟨units', []⟩)
include reached

/-- Where linking gets to, a reference with one outcome is as it was or this has
been written down. -/
theorem Moment.Steps.stands_unit
    (tidy : ∀ unit ∈ units, unit.usable = true → unit.IsTidy)
    (found : start.queue[index]? = some item)
    (only : HasOnly phase units start.source item outcome)
    (known : units[place]? = some unit) (further : start.LinksFurther unit)
    (agree : start.AgreesAt unit index item ∨
      (start.apply index outcome).AgreesAt unit index item) :
    ∃ unit', units'[place]? = some unit' ∧
      start.LinksFurther unit' ∧ (start.AgreesAt unit' index item ∨
        (start.apply index outcome).AgreesAt unit' index item) :=
  (Moment.Steps.stands reached (Moment.isTidy_of_units tidy) found only
    ⟨⟨unit, known, further, agree⟩, List.forall_mem_nil _⟩).unit

/-- Where nothing more can be settled, the outcome of a reference has been written
down, if it always has the same. -/
theorem Moment.Steps.agreesAt
    (tidy : ∀ unit ∈ units, unit.usable = true → unit.IsTidy)
    (settled : IsSettled phase units')
    (found : start.queue[index]? = some item)
    (pending : item.state = .unresolved)
    (always : ∀ after, Evolves units after → ∀ state,
      (Scene.ofUnits after phase).outcome start.source { item with state } =
        outcome)
    (known : units[place]? = some unit) (usable : unit.usable = true)
    (further : start.LinksFurther unit)
    (agree : start.AgreesAt unit index item ∨
      (start.apply index outcome).AgreesAt unit index item) :
    ∃ unit', units'[place]? = some unit' ∧
      (start.apply index outcome).AgreesAt unit' index item := by
  obtain ⟨unit', known', further', agree' | agree'⟩ :=
    Moment.Steps.stands_unit reached tidy found
      (fun after evolves state _ => always after evolves state) known further
      agree
  · refine ⟨unit', known', ?_⟩
    have evolves : Evolves units units' := Moment.Steps.evolves reached
    have usable' : unit'.usable = true := by
      obtain ⟨_, same, evolved⟩ := evolves.unit known
      obtain rfl := Option.some.inj (known'.symm.trans same)
      exact evolved.usable.trans usable
    have queued : item ∈ unit'.queue :=
      List.mem_of_getElem? (agree'.state.trans found)
    have nothing := settled unit' (List.mem_of_getElem? known') usable' item
      queued pending
    have source : unit'.source = start.source := further'.tree.source
    have same := always _ evolves item.state
    rw [Scene.outcome, ← source, nothing] at same
    subst same
    have unchanged : start.apply index .pending = start := by
      simp only [LinkUnit.apply, found]
    exact (congrArg (LinkUnit.AgreesAt · unit' index item) unchanged).mpr agree'
  · exact ⟨unit', known', agree'⟩

end

end Linking

end YangSchema
