import Mathlib.Logic.Relation
import YangSchema.Proofs.Linking.Claims
import YangSchema.Proofs.Linking.Settling

/-!
# Linking only adds links

Linking writes one outcome after the other.  At every moment some outcomes of a
rank wait to be written:  each belongs to a pending reference of its own, so no
two write to the same field, and what one writes is not there yet.  Hence every
step takes the units further:  they keep what they say, the links that they have
and the states of their references that are settled.
-/

namespace YangSchema

/-- A unit has the links and the references of another one, and perhaps more.
A unit that cannot be used stays as it is. -/
structure LinkUnit.LinksFurther (before after : LinkUnit) : Prop where
  tree : before.tree.LinksFurther after.tree
  usable : after.usable = true → before.usable = true
  frozen : before.usable = false → after = before
  deferred : after.deferredKeys = before.deferredKeys
  queue : ∀ {index : Nat} {item : Reference},
    before.queue[index]? = some item →
      ∃ state, after.queue[index]? = some { item with state } ∧
        (item.isPending = false → state = item.state)

namespace LinkUnit

variable {unit before middle after : LinkUnit} {item : Reference} {index : Nat}

theorem LinksFurther.refl (unit : LinkUnit) : unit.LinksFurther unit :=
  ⟨.refl unit.tree, id, fun _ => rfl, rfl,
    fun {_ item} found => ⟨item.state, found, fun _ => rfl⟩⟩

theorem LinksFurther.trans (first : before.LinksFurther middle)
    (second : middle.LinksFurther after) : before.LinksFurther after where
  tree := first.tree.trans second.tree
  usable := first.usable ∘ second.usable
  frozen unusable := by
    have same := first.frozen unusable
    exact (second.frozen (same ▸ unusable)).trans same
  deferred := second.deferred.trans first.deferred
  queue {index item} found := by
    obtain ⟨state, found', kept⟩ := first.queue found
    obtain ⟨state', found'', kept'⟩ := second.queue found'
    refine ⟨state', found'', fun settled => ?_⟩
    have same := kept settled
    subst same
    exact kept' settled

/-- A unit that can be used has settled a reference and got further ones. -/
theorem LinksFurther.setState {tree : SchemaTree} {more : ReferenceQueue}
    {state : ReferenceState} (usable : unit.usable = true)
    (tree_further : unit.tree.LinksFurther tree)
    (found : unit.queue[index]? = some item)
    (pending : item.isPending = true) :
    unit.LinksFurther { unit with
      tree
      queue := ReferenceQueue.setState (unit.queue ++ more) index state } where
  tree := tree_further
  usable := id
  frozen unusable := by simp [usable] at unusable
  deferred := rfl
  queue {other item'} found' := by
    have inside : (unit.queue ++ more)[other]? = some item' := by
      rwa [List.getElem?_append_left (List.getElem?_eq_some_iff.mp found').1]
    rw [ReferenceQueue.getElem?_setState, inside]
    split
    next same =>
      subst same
      obtain rfl := Option.some.inj (found.symm.trans found')
      exact ⟨state, rfl, fun settled => by simp [pending] at settled⟩
    · exact ⟨item'.state, rfl, fun _ => rfl⟩

end LinkUnit

/-- A reference splits its queue, and changing its state changes nothing else. -/
theorem ReferenceQueue.setState_split {queue : ReferenceQueue} {index : Nat}
    {item : Reference} (found : queue[index]? = some item) :
    ∃ front back, queue = front ++ item :: back ∧
      ∀ more state, ReferenceQueue.setState (queue ++ more) index state =
        front ++ { item with state } :: (back ++ more) := by
  induction queue generalizing index with
  | nil => simp at found
  | cons first rest ih =>
      cases index with
      | zero =>
          obtain rfl : first = item := by simpa using found
          exact ⟨[], rest, rfl, fun more state => by simp [setState]⟩
      | succ index =>
          obtain ⟨front, back, rfl, changed⟩ := ih (by simpa using found)
          refine ⟨first :: front, back, rfl, fun more state => ?_⟩
          simpa [setState] using changed more state

/-- The references that an outcome brings in for the members of a union. -/
def Outcome.members : Outcome → List Reference
  | .derived _ members => members
  | _ => []

namespace LinkUnit

variable {unit : LinkUnit} {item : Reference} {index : Nat}
  {outcome : Outcome}

/-- A unit that can be used waits for an outcome:  the reference at its place is
pending, and the references that come with it are made for other places. -/
structure Expects (unit : LinkUnit) (index : Nat) (outcome : Outcome) :
    Prop where
  usable : unit.usable = true
  pending : ∃ item, unit.queue[index]? = some item ∧ item.isPending = true
  foreign : ∀ member ∈ outcome.members, member.origin.isSome

/-- Writing an outcome down keeps a unit tidy and takes its links further. -/
theorem IsTidy.apply (tidy : unit.IsTidy) (expects : unit.Expects index outcome) :
    (unit.apply index outcome).IsTidy ∧
      unit.LinksFurther (unit.apply index outcome) := by
  obtain ⟨usable, ⟨item, found, pending⟩, foreign⟩ := expects
  obtain ⟨front, back, split, changed⟩ := ReferenceQueue.setState_split found
  have member : item ∈ unit.queue := List.mem_of_getElem? found
  have settle {tree : SchemaTree} (more : ReferenceQueue)
      {state : ReferenceState} (settled : state ≠ .unresolved)
      (writes : unit.tree.WritesTo (· ∈ item.results) tree)
      (taken : (more.flatMap (·.claims)).Sublist item.legacy) :
      let after := { unit with
        tree
        queue := ReferenceQueue.setState (unit.queue ++ more) index state }
      after.IsTidy ∧ unit.LinksFurther after := by
    have vacant : ∀ field ∈ item.results, unit.tree.link? field = none :=
      fun field written => tidy.vacant item member pending field
        (item.results_sublist.mem written)
    refine ⟨?_, .setState usable (writes.linksFurther vacant) found pending⟩
    rw [changed]
    exact tidy.settle split pending settled writes taken
  have settleOnly {tree : SchemaTree} {state : ReferenceState}
      (settled : state ≠ .unresolved)
      (writes : unit.tree.WritesTo (· ∈ item.results) tree) :
      let after :=
        { unit with tree, queue := unit.queue.setState index state }
      after.IsTidy ∧ unit.LinksFurther after := by
    simpa using settle [] settled writes (List.nil_sublist _)
  simp only [LinkUnit.apply, found]
  cases outcome with
  | pending => exact ⟨tidy, .refl unit⟩
  | blocked => exact settleOnly (by simp) (.refl _ unit.tree)
  | failed failure => exact settleOnly (by simp) (.refl _ unit.tree)
  | target target =>
      exact settleOnly (by simp) (bindTarget_writesTo unit.tree item target)
  | derived derivation members =>
      dsimp only
      split
      next slot kind =>
        exact settle _ (by simp)
          (bindDerivation_writesTo unit.tree kind derivation)
          (claims_followUps kind pending foreign)
      · exact ⟨tidy, .refl unit⟩

/-- Settling a reference leaves all others as they are. -/
theorem getElem?_apply {other : Nat} (another : Outcome) (apart : other ≠ index)
    (found : unit.queue[index]? = some item) :
    (unit.apply other another).queue[index]? = some item := by
  have kept (more : ReferenceQueue) (state : ReferenceState) :
      (ReferenceQueue.setState (unit.queue ++ more) other state)[index]? =
        some item := by
    rw [ReferenceQueue.getElem?_setState, if_neg apart,
      List.getElem?_append_left (List.getElem?_eq_some_iff.mp found).1, found]
  have keptOnly {state : ReferenceState} :
      (unit.queue.setState other state)[index]? = some item := by
    simpa using kept [] state
  unfold LinkUnit.apply
  split
  · exact found
  · cases another with
    | pending => exact found
    | blocked | failed | target => exact keptOnly
    | derived derivation members =>
        dsimp only
        split
        · exact kept _ _
        · exact found

/-- A unit still waits for an outcome when another reference is settled. -/
theorem Expects.apply {other : Nat} {another : Outcome}
    (expects : unit.Expects index outcome) (apart : other ≠ index) :
    (unit.apply other another).Expects index outcome := by
  obtain ⟨usable, ⟨item, found, pending⟩, foreign⟩ := expects
  exact ⟨(unit.apply_evolves other another).usable.trans usable,
    ⟨item, getElem?_apply another apart found, pending⟩, foreign⟩

end LinkUnit

namespace Linking

/-- Every unit has been taken further in its place. -/
structure LinksFurther (before after : List LinkUnit) : Prop where
  length : after.length = before.length
  unit : ∀ {place : Nat} {unit : LinkUnit}, before[place]? = some unit →
    ∃ unit', after[place]? = some unit' ∧ unit.LinksFurther unit'

namespace LinksFurther

variable {before middle after units : List LinkUnit}

theorem refl (units : List LinkUnit) : LinksFurther units units :=
  ⟨rfl, fun {_ unit} found => ⟨unit, found, .refl unit⟩⟩

theorem trans (first : LinksFurther before middle)
    (second : LinksFurther middle after) : LinksFurther before after := by
  refine ⟨second.length.trans first.length, fun found => ?_⟩
  obtain ⟨unit', found', further⟩ := first.unit found
  obtain ⟨unit'', found'', further'⟩ := second.unit found'
  exact ⟨unit'', found'', further.trans further'⟩

theorem modify {place : Nat} {change : LinkUnit → LinkUnit}
    (further : ∀ unit, units[place]? = some unit →
      unit.LinksFurther (change unit)) :
    LinksFurther units (units.modify place change) := by
  refine ⟨by simp, fun {other unit} found => ?_⟩
  rw [List.getElem?_modify]
  split
  next same =>
    subst same
    exact ⟨change unit, by simp [found], further unit found⟩
  · exact ⟨unit, by simpa using found, .refl unit⟩

theorem set {place : Nat} {unit unit' : LinkUnit}
    (found : units[place]? = some unit) (further : unit.LinksFurther unit') :
    LinksFurther units (units.set place unit') := by
  refine ⟨by simp, fun {other unit''} found' => ?_⟩
  rw [List.getElem?_set]
  split
  next same =>
    subst same
    obtain rfl := Option.some.inj (found.symm.trans found')
    exact ⟨unit', by simp [(List.getElem?_eq_some_iff.mp found).1], further⟩
  · exact ⟨unit'', found', .refl unit''⟩

theorem map {change : LinkUnit → LinkUnit}
    (further : ∀ unit ∈ units, unit.LinksFurther (change unit)) :
    LinksFurther units (units.map change) :=
  ⟨by simp, fun {place unit} found =>
    ⟨change unit, by simp [found], further unit (List.mem_of_getElem? found)⟩⟩

end LinksFurther

/-- A moment of linking:  the units, and the outcomes that wait to be written
down. -/
structure Moment where
  units : List LinkUnit
  waiting : List Settled

/-- What linking does next. -/
inductive Moment.Step (phase : LinkPhase) : Moment → Moment → Prop
  | rank (units : List LinkUnit) (rank : Nat) :
      Step phase ⟨units, []⟩ ⟨units, rankOutcomes units phase rank⟩
  | write (units : List LinkUnit) (settled : Settled)
      (waiting : List Settled) :
      Step phase ⟨units, settled :: waiting⟩
        ⟨units.modify settled.unit (·.apply settled.index settled.outcome),
          waiting⟩
  | instances (units : List LinkUnit) (across : phase = .interFile) :
      Step phase ⟨units, []⟩ ⟨instantiateGroupings units, []⟩

abbrev Moment.Steps (phase : LinkPhase) : Moment → Moment → Prop :=
  Relation.ReflTransGen (Moment.Step phase)

/-- One of the units waits for an outcome. -/
def Settled.IsExpected (settled : Settled) (units : List LinkUnit) : Prop :=
  ∃ unit, units[settled.unit]? = some unit ∧
    unit.Expects settled.index settled.outcome

/-- The units that can be used are tidy, and every outcome that waits belongs to
a pending reference of its own. -/
structure Moment.IsTidy (moment : Moment) : Prop where
  units : ∀ unit ∈ moment.units, unit.usable = true → unit.IsTidy
  expected : ∀ settled ∈ moment.waiting, settled.IsExpected moment.units
  apart : (moment.waiting.map fun settled =>
    (settled.unit, settled.index)).Nodup

variable {phase : LinkPhase} {units : List LinkUnit} {rank : Nat}

/-- The outcome of one reference, unless that is still pending. -/
def outcomeAt (scene : Scene) (unit : LinkUnit) (place index : Nat) :
    Option Settled :=
  (unit.queue[index]?).bind fun item =>
    match scene.outcome unit.source item with
    | .pending => none
    | outcome => some ⟨place, index, outcome⟩

/-- The outcomes of a rank in one unit. -/
def outcomesOf (scene : Scene) (rank : Nat) (unit : LinkUnit) (place : Nat) :
    List Settled :=
  if unit.usable then
    (unit.queue.pendingOfRank rank).filterMap (outcomeAt scene unit place)
  else
    []

theorem rankOutcomes_eq (units : List LinkUnit) (phase : LinkPhase)
    (rank : Nat) :
    rankOutcomes units phase rank = units.zipIdx.flatMap fun entry =>
      outcomesOf (.ofUnits units phase) rank entry.1 entry.2 := rfl

theorem outcomeAt_eq_some_iff {scene : Scene} {unit : LinkUnit}
    {place index : Nat} {settled : Settled} :
    outcomeAt scene unit place index = some settled ↔
      ∃ item, unit.queue[index]? = some item ∧
        scene.outcome unit.source item ≠ .pending ∧
        settled = ⟨place, index, scene.outcome unit.source item⟩ := by
  rw [outcomeAt, Option.bind_eq_some_iff]
  refine exists_congr fun item => and_congr_right fun _ => ?_
  split
  next pending => simp [pending]
  next settles =>
    rw [Option.some.injEq, eq_comm]
    exact ⟨fun same => ⟨settles, same⟩, And.right⟩

theorem mem_outcomesOf_iff {scene : Scene} {unit : LinkUnit} {place : Nat}
    {settled : Settled} :
    settled ∈ outcomesOf scene rank unit place ↔
      settled.unit = place ∧ unit.usable = true ∧ ∃ item,
        unit.queue[settled.index]? = some item ∧ item.isPending = true ∧
        item.kind.rank = rank ∧ settled.outcome ≠ .pending ∧
        settled.outcome = scene.outcome unit.source item := by
  unfold outcomesOf
  split
  next usable =>
    simp only [List.mem_filterMap, outcomeAt_eq_some_iff]
    constructor
    · rintro ⟨index, waits, item, queued, settles, rfl⟩
      have ranked := (List.mem_filter.mp waits).2
      simp only [queued, Bool.and_eq_true, beq_iff_eq] at ranked
      exact ⟨rfl, usable, item, queued, ranked.1, ranked.2, settles, rfl⟩
    · rintro ⟨rfl, -, item, queued, pending, ranked, settles, outcome⟩
      refine ⟨settled.index, List.mem_filter.mpr ⟨List.mem_range.mpr ?_, ?_⟩,
        item, queued, outcome ▸ settles, by rw [← outcome]⟩
      · exact (List.getElem?_eq_some_iff.mp queued).1
      · simp [queued, pending, ranked]
  next unusable => simp [unusable]

/-- The outcomes of a rank are those of its pending references in the units that
can be used. -/
theorem mem_rankOutcomes_iff {settled : Settled} :
    settled ∈ rankOutcomes units phase rank ↔
      ∃ unit item, units[settled.unit]? = some unit ∧ unit.usable = true ∧
        unit.queue[settled.index]? = some item ∧ item.isPending = true ∧
        item.kind.rank = rank ∧ settled.outcome ≠ .pending ∧
        settled.outcome =
          (Scene.ofUnits units phase).outcome unit.source item := by
  simp only [rankOutcomes_eq, List.mem_flatMap, Prod.exists,
    mem_outcomesOf_iff, List.mk_mem_zipIdx_iff_getElem?]
  constructor
  · rintro ⟨unit, _, found, rfl, usable, item, known⟩
    exact ⟨unit, item, found, usable, known⟩
  · rintro ⟨unit, item, found, usable, known⟩
    exact ⟨unit, settled.unit, found, rfl, usable, item, known⟩

/-- No reference has two outcomes in one rank. -/
theorem rankOutcomes_apart (units : List LinkUnit) (phase : LinkPhase)
    (rank : Nat) :
    ((rankOutcomes units phase rank).map fun settled =>
      (settled.unit, settled.index)).Nodup := by
  have places : (units.zipIdx.map (·.2)).Nodup := by
    rw [List.zipIdx_map_snd]
    exact List.nodup_range'
  rw [rankOutcomes_eq, List.map_flatMap]
  refine List.nodup_flatMap.mpr ⟨fun ⟨unit, place⟩ _ => ?_, ?_⟩
  · unfold outcomesOf
    split
    · rw [List.map_filterMap]
      refine (List.nodup_range.filter _).filterMap ?_
      intro index index' key made made'
      obtain ⟨_, found, rfl⟩ := Option.map_eq_some_iff.mp made
      obtain ⟨_, found', same⟩ := Option.map_eq_some_iff.mp made'
      obtain ⟨_, -, -, rfl⟩ := outcomeAt_eq_some_iff.mp found
      obtain ⟨_, -, -, rfl⟩ := outcomeAt_eq_some_iff.mp found'
      exact (congrArg Prod.snd same).symm
    · exact List.nodup_nil
  · refine (List.pairwise_map.mp places).imp ?_
    intro entry other apart key made made'
    obtain ⟨settled, listed, rfl⟩ := List.mem_map.mp made
    obtain ⟨settled', listed', same⟩ := List.mem_map.mp made'
    refine apart ?_
    rw [← (mem_outcomesOf_iff.mp listed).1, ← (mem_outcomesOf_iff.mp listed').1]
    exact (congrArg Prod.fst same).symm

/-- The members that an outcome brings in are references for other places. -/
theorem outcome_foreign (scene : Scene) (source : SourceId) (item : Reference) :
    ∀ member ∈ (scene.outcome source item).members, member.origin.isSome := by
  unfold Scene.outcome
  split
  next outcome found =>
    cases Scene.lookupReference_found found with
    | derived kind written derived made =>
        obtain rfl | ⟨typedef, -, made⟩ := made
        · exact List.forall_mem_nil _
        · exact fun member listed =>
            (Scene.unionReferences_made made member listed).2
    | _ => exact List.forall_mem_nil _
  next miss found => cases miss <;> exact List.forall_mem_nil _

theorem rankOutcomes_isExpected {settled : Settled}
    (listed : settled ∈ rankOutcomes units phase rank) :
    settled.IsExpected units := by
  obtain ⟨unit, item, found, usable, queued, pending, -, -, outcome⟩ :=
    mem_rankOutcomes_iff.mp listed
  exact ⟨unit, found, usable, ⟨item, queued, pending⟩,
    outcome ▸ outcome_foreign _ unit.source item⟩

namespace Moment

variable {before after : Moment}

/-- Between ranks nothing waits. -/
theorem isTidy_of_units {units : List LinkUnit}
    (tidy : ∀ unit ∈ units, unit.usable = true → unit.IsTidy) :
    IsTidy ⟨units, []⟩ :=
  ⟨tidy, List.forall_mem_nil _, List.nodup_nil⟩

/-- One step keeps a moment tidy and takes the units further. -/
theorem Step.keeps (step : Step phase before after) (tidy : before.IsTidy) :
    after.IsTidy ∧ LinksFurther before.units after.units := by
  cases step with
  | rank units rank =>
      exact ⟨⟨tidy.units, fun _ => rankOutcomes_isExpected,
        rankOutcomes_apart units phase rank⟩, .refl units⟩
  | write units settled waiting =>
      obtain ⟨tidyUnits, expected, apart⟩ := tidy
      obtain ⟨first, others⟩ := List.forall_mem_cons.mp expected
      obtain ⟨alone, apart⟩ := List.nodup_cons.mp apart
      obtain ⟨unit, found, expects⟩ := first
      have applied := (tidyUnits unit (List.mem_of_getElem? found)
        expects.usable).apply expects
      refine ⟨⟨?_, fun other listed => ?_, apart⟩, .modify ?_⟩
      · intro unit' member usable
        obtain ⟨place, found'⟩ := List.mem_iff_getElem?.mp member
        rw [List.getElem?_modify] at found'
        split at found'
        next same =>
          subst same
          obtain rfl : unit.apply settled.index settled.outcome = unit' := by
            simpa [found] using found'
          exact applied.1
        · exact tidyUnits unit' (List.mem_of_getElem? (by simpa using found'))
            usable
      · obtain ⟨unit', found', expects'⟩ := others other listed
        simp only [Settled.IsExpected, List.getElem?_modify]
        split
        next same =>
          have another : settled.index ≠ other.index := fun index =>
            alone (List.mem_map.mpr ⟨other, listed, by simp [same, index]⟩)
          refine ⟨unit'.apply settled.index settled.outcome, ?_,
            expects'.apply another⟩
          simp [found']
        · exact ⟨unit', by simpa using found', expects'⟩
      · intro unit' found'
        obtain rfl := Option.some.inj (found.symm.trans found')
        exact applied.2
  | instances units across =>
      have foreign (scene : Scene) (unit : LinkUnit) : ∀ item ∈
          unit.queue.flatMap (Linking.instances scene unit),
            item.origin.isSome := by
        intro item made
        obtain ⟨uses, -, made⟩ := List.mem_flatMap.mp made
        exact (instances_made made).2
      refine ⟨⟨?_, List.forall_mem_nil _, List.nodup_nil⟩, .map ?_⟩
      · intro unit' member usable
        obtain ⟨unit, listed, rfl⟩ := List.mem_map.mp member
        split at usable
        next isUsable =>
          rw [if_pos isUsable]
          exact (tidy.units unit listed isUsable).append (foreign _ unit)
        next unusable => exact absurd usable unusable
      · intro unit _
        split
        next usable =>
          exact
            { tree := .refl unit.tree
              usable := id
              frozen := fun unusable => by simp [usable] at unusable
              deferred := rfl
              queue := fun {index item} found => ⟨item.state, by
                rwa [List.getElem?_append_left
                  (List.getElem?_eq_some_iff.mp found).1], fun _ => rfl⟩ }
        · exact .refl unit

theorem Step.evolves (step : Step phase before after) :
    Evolves before.units after.units := by
  cases step with
  | rank units rank => exact .refl units
  | write units settled waiting => exact Linking.apply_evolves units settled
  | instances units across => exact instantiateGroupings_evolves units

/-- Any number of steps keeps a moment tidy and takes the units further. -/
theorem Steps.keeps (steps : Steps phase before after) (tidy : before.IsTidy) :
    after.IsTidy ∧ LinksFurther before.units after.units := by
  induction steps with
  | refl => exact ⟨tidy, .refl before.units⟩
  | tail _ step ih =>
      obtain ⟨tidy', further⟩ := ih
      obtain ⟨tidy'', further'⟩ := step.keeps tidy'
      exact ⟨tidy'', further.trans further'⟩

end Moment

section

variable (phase) (units)

theorem applyAll_steps (waiting : List Settled) :
    Moment.Steps phase ⟨units, waiting⟩ ⟨applyAll units waiting, []⟩ := by
  induction waiting generalizing units with
  | nil => exact .refl
  | cons settled waiting ih => exact .head (.write units settled waiting) (ih _)

theorem roundFrom_steps (ranks rank : Nat) :
    Moment.Steps phase ⟨units, []⟩ ⟨(roundFrom phase ranks rank units).1, []⟩ := by
  induction ranks generalizing rank units with
  | zero => exact .refl
  | succ ranks ih =>
      exact .head (.rank units rank)
        ((applyAll_steps phase units _).trans (ih _ _))

theorem settle_steps :
    Moment.Steps phase ⟨units, []⟩ ⟨settle phase units, []⟩ :=
  repeatRounds_keeps (fun after => Moment.Steps phase ⟨units, []⟩ ⟨after, []⟩)
    (fun _ before => before.trans (roundFrom_steps phase _ _ _)) _ .refl

/-- Linking is a run of steps. -/
theorem link_steps :
    Moment.Steps phase ⟨units, []⟩ ⟨link phase units, []⟩ := by
  have settled := settle_steps phase units
  cases phase with
  | intraFile => exact settled
  | interFile =>
      exact (settled.tail (.instances _ rfl)).trans (settle_steps .interFile _)

end

end Linking

end YangSchema
