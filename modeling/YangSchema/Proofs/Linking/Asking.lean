import YangSchema.Proofs.Compilation.Phases

/-!
# Linking asks for no further names

What linking adds to a queue are references on behalf of other places and leafrefs.
So a name that a unit looks up for itself has been in its queue since the unit was
read.
-/

namespace YangSchema

/-- A name that a unit looks up for itself. -/
structure Reference.IsOwnName (item : Reference) : Prop where
  own : item.origin = none
  named : item.kind.isName = true

/-- A queue has no own names but those that another one has at the same places. -/
structure ReferenceQueue.AsksNoMore (before after : ReferenceQueue) : Prop where
  earlier : ∀ (index : Nat) (item : Reference), after[index]? = some item →
    item.IsOwnName → ∃ state, before[index]? = some { item with state := state }

namespace ReferenceQueue

variable {before middle after queue more : ReferenceQueue}

theorem AsksNoMore.refl (queue : ReferenceQueue) : queue.AsksNoMore queue :=
  ⟨fun _ item found _ => ⟨item.state, found⟩⟩

theorem AsksNoMore.trans (first : before.AsksNoMore middle)
    (second : middle.AsksNoMore after) : before.AsksNoMore after where
  earlier index item found own := by
    obtain ⟨state, found⟩ := second.earlier index item found own
    exact first.earlier index { item with state } found ⟨own.own, own.named⟩

/-- Nothing is asked for by references that are no own names. -/
theorem asksNoMore_append (foreign : ∀ item ∈ more, ¬ item.IsOwnName) :
    queue.AsksNoMore (queue ++ more) where
  earlier index item found own := by
    by_cases inside : index < queue.length
    · rw [List.getElem?_append_left inside] at found
      exact ⟨item.state, found⟩
    · rw [List.getElem?_append_right (Nat.le_of_not_lt inside)] at found
      exact absurd own (foreign item (List.mem_of_getElem? found))

theorem asksNoMore_setState (index : Nat) (state : ReferenceState) :
    queue.AsksNoMore (queue.setState index state) where
  earlier other item found _ := by
    rw [getElem?_setState] at found
    split at found
    · obtain ⟨old, known, rfl⟩ := Option.map_eq_some_iff.mp found
      exact ⟨old.state, known⟩
    · exact ⟨item.state, found⟩

end ReferenceQueue

namespace LinkUnit

variable {unit : LinkUnit} {index : Nat} {outcome : Outcome}

/-- What a derived type adds are no names of the unit. -/
theorem not_isOwnName_followUps {tree : SchemaTree} {item : Reference}
    {slot : TypeSlot} {derivation : Derivation} {members : List Reference}
    (foreign : ∀ member ∈ members, member.origin.isSome) :
    ∀ reference ∈ followUps tree item slot derivation members,
      ¬ reference.IsOwnName := by
  intro reference listed own
  obtain member | leafref :=
    List.mem_append.mp (List.mem_filter.mp listed).1
  · simpa [own.own] using foreign reference member
  · have named := own.named
    unfold chainLeafref at leafref
    split at leafref
    · simp at leafref
    · obtain rfl := List.mem_singleton.mp leafref
      simp [Reference.ofText, ReferenceKind.isName] at named

theorem apply_asksNoMore
    (foreign : ∀ member ∈ outcome.members, member.origin.isSome) :
    unit.queue.AsksNoMore (unit.apply index outcome).queue := by
  unfold apply
  split
  · exact .refl unit.queue
  next item _ =>
    cases outcome with
    | pending => exact .refl unit.queue
    | blocked | failed | target =>
        exact ReferenceQueue.asksNoMore_setState index _
    | derived derivation members =>
        dsimp only
        split
        · exact (ReferenceQueue.asksNoMore_append
            (not_isOwnName_followUps foreign)).trans
              (ReferenceQueue.asksNoMore_setState index _)
        · exact .refl unit.queue

end LinkUnit

namespace Linking

variable {phase : LinkPhase}

/-- Every unit asks for no more names in its place. -/
structure AsksNoMore (before after : List LinkUnit) : Prop where
  earlier : ∀ (place : Nat) (unit : LinkUnit), after[place]? = some unit →
    ∃ start, before[place]? = some start ∧ start.queue.AsksNoMore unit.queue

theorem Moment.Step.asksNoMore {before after : Moment}
    (step : Moment.Step phase before after) (tidy : before.IsTidy) :
    AsksNoMore before.units after.units := by
  cases step with
  | rank units rank =>
      exact ⟨fun _ unit found => ⟨unit, found, .refl unit.queue⟩⟩
  | write units settled waiting =>
      obtain ⟨expects, -⟩ := List.forall_mem_cons.mp tidy.expected
      refine ⟨fun place unit found => ?_⟩
      rw [List.getElem?_modify] at found
      split at found
      next same =>
        obtain ⟨start, known, rfl⟩ := Option.map_eq_some_iff.mp found
        obtain ⟨_, known', expects⟩ := expects
        exact ⟨start, known, LinkUnit.apply_asksNoMore expects.foreign⟩
      · exact ⟨unit, by simpa using found, .refl unit.queue⟩
  | instances units across =>
      refine ⟨fun place unit found => ?_⟩
      simp only [instantiateGroupings, List.getElem?_map] at found
      obtain ⟨start, known, rfl⟩ := Option.map_eq_some_iff.mp found
      refine ⟨start, known, ?_⟩
      split
      · refine ReferenceQueue.asksNoMore_append fun item made own => ?_
        obtain ⟨uses, -, made⟩ := List.mem_flatMap.mp made
        simpa [own.own] using (instances_made made).2
      · exact .refl start.queue

theorem Moment.Steps.asksNoMore {before after : Moment}
    (steps : Moment.Steps phase before after) (tidy : before.IsTidy) :
    AsksNoMore before.units after.units := by
  induction steps with
  | refl => exact ⟨fun _ unit found => ⟨unit, found, .refl unit.queue⟩⟩
  | tail steps step ih =>
      refine ⟨fun place unit found => ?_⟩
      obtain ⟨middle, known, second⟩ := (step.asksNoMore
        (Moment.Steps.keeps steps tidy).1).earlier place unit found
      obtain ⟨start, known, first⟩ := ih.earlier place middle known
      exact ⟨start, known, first.trans second⟩

theorem bindSources_asksNoMore (units : List LinkUnit) :
    AsksNoMore units (bindSources units).1 where
  earlier place bound found := by
    rw [getElem?_bindSources] at found
    obtain ⟨unit, known, rfl⟩ := Option.map_eq_some_iff.mp found
    have queue : (rejectUnit (entriesOf units) unit).1.queue = unit.queue := by
      unfold rejectUnit
      split
      · split <;> rfl
      · rfl
    rw [bindUnit_queue, queue]
    exact ⟨unit, known, .refl unit.queue⟩

theorem link_asksNoMore {units : List LinkUnit}
    (tidy : ∀ unit ∈ units, unit.usable = true → unit.IsTidy) :
    AsksNoMore units (link phase units) :=
  Moment.Steps.asksNoMore (link_steps phase units)
    (Moment.isTidy_of_units tidy)

section

variable {units : List LinkUnit} {late : LinkUnit} {place index : Nat}
  {item : Reference} (distinct : (units.map (·.source)).Nodup)
  (finished : ∀ unit ∈ units, unit.usable = true →
    ∃ draft : Draft, draft.IsFinished ∧ unit = draft.asUnit)
include finished

theorem linkAlone_asksNoMore : AsksNoMore units (linkAlone units) where
  earlier place alone found := by
    obtain ⟨unit, known, -⟩ := (linkAlone_evolves units).unit_before found
    obtain ⟨_, same, isAlone⟩ := getElem?_linkAlone known
    obtain rfl := Option.some.inj (found.symm.trans same)
    refine ⟨unit, known, ?_⟩
    have tidy : ∀ other ∈ [unit], other.usable = true → other.IsTidy := by
      intro other listed usable
      obtain rfl := List.mem_singleton.mp listed
      exact (isPrepared_of_finished finished other (List.mem_of_getElem? known)
        usable).isTidy
    obtain ⟨_, same, asks⟩ := (@link_asksNoMore .intraFile [unit] tidy).earlier
      0 alone (by rw [isAlone]; rfl)
    obtain rfl : unit = _ := by simpa using same
    exact asks

include distinct

/-- A name that a unit has looked up for itself in the end has been in its queue
since it was read, and stands at its outcome among all units. -/
theorem linkAlone_ownName
    (known : (link .interFile (bindSources (linkAlone units)).1)[place]? =
      some late) (usable : late.usable = true)
    (found : late.queue[index]? = some item) (own : item.IsOwnName) :
    ∃ unit, units[place]? = some unit ∧ unit.usable = true ∧
      late.source = unit.source ∧
      unit.queue[index]? = some { item with state := .unresolved } ∧
      (unit.apply index ((Scene.ofUnits (bindSources units).1
        .interFile).outcome unit.source item)).AgreesAt late index item := by
  have prepared := isPrepared_linkAlone finished
  have distinctAlone := (linkAlone_evolves units).map_source ▸ distinct
  have orderly := bindSources_isOrderly_of_prepared distinctAlone prepared
  obtain ⟨early, knownEarly, asks⟩ :=
    (link_asksNoMore orderly.tidy).earlier place late known
  obtain ⟨alone, knownAlone, asks'⟩ :=
    (bindSources_asksNoMore (linkAlone units)).earlier place early knownEarly
  obtain ⟨unit, knownUnit, asks''⟩ :=
    (linkAlone_asksNoMore finished).earlier place alone knownAlone
  obtain ⟨state, queued⟩ :=
    ((asks''.trans asks').trans asks).earlier index item found own
  have evolves := (linkAlone_evolves units).bindSources.trans
    (link_evolves .interFile _)
  obtain ⟨bound, knownBound, evolved⟩ := evolves.unit_before known
  have isUsable := evolved.usable.symm.trans usable
  obtain ⟨usable', isBound⟩ :=
    getElem?_bindSources_eq_some knownUnit knownBound isUsable
  have source : late.source = unit.source := by
    have source : late.source = bound.source := evolved.text.source
    rw [source, isBound, (bindUnit_front _ _).1]
  obtain rfl : state = .unresolved := by
    obtain ⟨draft, isFinished, rfl⟩ :=
      finished unit (List.mem_of_getElem? knownUnit) usable'
    exact (isFinished.unlinked.queued _ (List.mem_of_getElem? queued)).pending
  obtain ⟨_, same, agree⟩ := linkAlone_agreesAt distinct finished knownUnit
    knownBound isUsable queued own.named (link_steps .interFile _)
    orderly.ends.settled
  obtain rfl := Option.some.inj (known.symm.trans same)
  rw [Scene.outcome_setState] at agree
  exact ⟨unit, knownUnit, usable', source, queued, agree.state, agree.fields⟩

/-- In the end it stands at what is then found for it. -/
theorem linkAlone_standing
    (known : (link .interFile (bindSources (linkAlone units)).1)[place]? =
      some late) (usable : late.usable = true)
    (found : late.queue[index]? = some item) (own : item.IsOwnName) :
    ∃ unit : LinkUnit,
      unit.queue[index]? = some { item with state := .unresolved } ∧
      unit.tree.SameOutline late.tree ∧
      (unit.apply index ((Scene.ofUnits (link .interFile (bindSources
        (linkAlone units)).1) .interFile).outcome late.source item)).AgreesAt
          late index item := by
  obtain ⟨unit, knownUnit, isUsable, source, queued, agree⟩ :=
    linkAlone_ownName distinct finished known usable found own
  have evolves : Evolves (bindSources units).1
      (link .interFile (bindSources (linkAlone units)).1) :=
    (linkAlone_evolves units).bindSources.trans (link_evolves .interFile _)
  obtain ⟨bound, knownBound, evolved⟩ := evolves.unit_before known
  obtain ⟨-, rfl⟩ := getElem?_bindSources_eq_some knownUnit knownBound
    (evolved.usable.symm.trans usable)
  have prepared := isPrepared_of_finished finished unit
    (List.mem_of_getElem? knownUnit) isUsable
  have outline := (prepared.alone.bindUnit (entriesOf units)).resembles.outline
  refine ⟨unit, queued, outline.trans evolved.text.outline, ?_⟩
  rw [source]
  exact outcome_bindSources distinct finished evolves unit.source own.own own.named
    item.state ▸ agree

end

end Linking

end YangSchema
