import Mathlib.Data.List.Nodup
import YangSchema.Proofs.Linking.Applying
import YangSchema.Proofs.Linking.Unblocked

/-!
# Linking keeps units sound

Outcomes are computed among the units as they are at the start of a rank and
written down one after the other.  The units evolve by this, so outcomes that
were accepted at the start are still accepted at their turn.  Sound units that
can all be used stay so through ranks, rounds and phases.
-/

namespace YangSchema

/-- What other units see of a unit before they look into it. -/
def LinkUnit.front (unit : LinkUnit) : Bool × SourceId × Option ModuleHeader :=
  (unit.usable, unit.source, unit.tree.header?)

theorem LinkUnit.Evolves.front {before after : LinkUnit}
    (evolves : before.Evolves after) : after.front = before.front := by
  have source : after.source = before.source := evolves.text.source
  simp only [LinkUnit.front, evolves.usable, source, evolves.text.header?]

theorem LinkUnit.Evolves.trans {before middle after : LinkUnit}
    (first : before.Evolves middle) (second : middle.Evolves after) :
    before.Evolves after where
  text := first.text.trans second.text
  usable := second.usable.trans first.usable
  deferred := second.deferred.trans first.deferred
  queue found := by
    obtain ⟨_, found'⟩ := first.queue found
    obtain ⟨state, found''⟩ := second.queue found'
    exact ⟨state, found''⟩

namespace Linking

/-- Sound units of different sources that can all be used. -/
structure IsSound (units : List LinkUnit) : Prop where
  usable : AllUsable units
  distinct : (units.map (·.source)).Nodup
  units : ∀ unit ∈ units, unit.IsSound

/-- Every unit has evolved in its place. -/
structure Evolves (before after : List LinkUnit) : Prop where
  length : after.length = before.length
  unit : ∀ {place : Nat} {unit : LinkUnit}, before[place]? = some unit →
    ∃ unit', after[place]? = some unit' ∧ unit.Evolves unit'

namespace Evolves

variable {before middle after : List LinkUnit}

theorem refl (units : List LinkUnit) : Evolves units units :=
  ⟨rfl, fun {_ unit} found => ⟨unit, found, .refl unit⟩⟩

theorem trans (first : Evolves before middle) (second : Evolves middle after) :
    Evolves before after := by
  refine ⟨second.length.trans first.length, fun found => ?_⟩
  obtain ⟨unit', found', evolves⟩ := first.unit found
  obtain ⟨unit'', found'', evolves'⟩ := second.unit found'
  exact ⟨unit'', found'', evolves.trans evolves'⟩

theorem map_front (evolves : Evolves before after) :
    after.map (·.front) = before.map (·.front) := by
  apply List.ext_getElem?
  intro place
  simp only [List.getElem?_map]
  cases found : before[place]? with
  | none =>
      have outside : after[place]? = none := by
        rw [List.getElem?_eq_none_iff] at found ⊢
        rwa [evolves.length]
      simp [outside]
  | some unit =>
      obtain ⟨unit', found', evolved⟩ := evolves.unit found
      simp [found', evolved.front]

theorem map_source (evolves : Evolves before after) :
    after.map (·.source) = before.map (·.source) := by
  have sources := congrArg (List.map (·.2.1)) evolves.map_front
  simp only [List.map_map] at sources
  exact sources

/-- What a unit has evolved from stood in the same place. -/
theorem unit_before (evolves : Evolves before after) {place : Nat}
    {unit' : LinkUnit} (found : after[place]? = some unit') :
    ∃ unit, before[place]? = some unit ∧ unit.Evolves unit' := by
  have inside := (List.getElem?_eq_some_iff.mp found).1
  rw [evolves.length] at inside
  have known := List.getElem?_eq_getElem inside
  obtain ⟨other, found', evolved⟩ := evolves.unit known
  obtain rfl := Option.some.inj (found'.symm.trans found)
  exact ⟨before[place], known, evolved⟩

theorem earlier (evolves : Evolves before after) {unit' : LinkUnit}
    (member : unit' ∈ after) : ∃ unit ∈ before, unit.Evolves unit' := by
  obtain ⟨place, found⟩ := List.mem_iff_getElem?.mp member
  obtain ⟨unit, known, evolved⟩ := evolves.unit_before found
  exact ⟨unit, List.mem_of_getElem? known, evolved⟩

theorem modify {units : List LinkUnit} {place : Nat}
    {change : LinkUnit → LinkUnit}
    (evolves : ∀ unit, units[place]? = some unit →
      unit.Evolves (change unit)) : Evolves units (units.modify place change) := by
  refine ⟨by simp, fun {other unit} found => ?_⟩
  rw [List.getElem?_modify]
  split
  next same =>
    subst same
    exact ⟨change unit, by simp [found], evolves unit found⟩
  · exact ⟨unit, by simpa using found, .refl unit⟩

theorem map {units : List LinkUnit} {change : LinkUnit → LinkUnit}
    (evolves : ∀ unit : LinkUnit, unit.Evolves (change unit)) :
    Evolves units (units.map change) :=
  ⟨by simp, fun {place unit} found =>
    ⟨change unit, by simp [found], evolves unit⟩⟩

end Evolves

/-- Whether all units can be used can be seen from outside. -/
theorem AllUsable.congr {before after : List LinkUnit}
    (same : after.map (·.front) = before.map (·.front))
    (usable : AllUsable before) : AllUsable after := by
  have earlier : ∀ unit' ∈ after, ∃ unit ∈ before, unit.front = unit'.front :=
    fun unit' member => List.mem_map.mp (same ▸ List.mem_map_of_mem member)
  have later : ∀ unit ∈ before, ∃ unit' ∈ after, unit'.front = unit.front :=
    fun unit member => List.mem_map.mp (same ▸ List.mem_map_of_mem member)
  constructor
  · intro unit' member
    obtain ⟨unit, member, front⟩ := earlier unit' member
    exact (congrArg (·.1) front).symm.trans (usable.usable unit member)
  · intro unit' member header declared declaration listed source resolved
    obtain ⟨unit, member, front⟩ := earlier unit' member
    have header' : unit.tree.header? = some header :=
      (congrArg (·.2.2) front).trans declared
    obtain ⟨other, member, rfl⟩ := usable.imports unit member header header'
      declaration listed source resolved
    obtain ⟨other', member, front⟩ := later other member
    exact ⟨other', member, congrArg (·.2.1) front⟩

theorem IsSound.evolves {before after : List LinkUnit}
    (sound : IsSound before) (evolves : Evolves before after)
    (units : ∀ unit ∈ after, unit.IsSound) : IsSound after where
  usable := sound.usable.congr evolves.map_front
  distinct := evolves.map_source ▸ sound.distinct
  units := units

/-- A unit is the one that is found at its source. -/
theorem IsSound.tree? {scene : Scene} (sound : IsSound scene.units)
    {unit : LinkUnit} (member : unit ∈ scene.units) :
    scene.tree? unit.source = some unit.tree := by
  simp [Scene.tree?, Scene.unit?_of_mem sound.distinct member]

/-- Outcomes that are found among sound units are accepted. -/
theorem outcome_accepted {scene : Scene} (sound : IsSound scene.units)
    {unit : LinkUnit} (member : unit ∈ scene.units) (item : Reference) :
    unit.Accepts item (scene.outcome unit.source item) := by
  have free := Scene.outcome_ne_blocked sound.usable unit.source item
  unfold Scene.outcome at free ⊢
  split
  next outcome found =>
    cases Scene.lookupReference_found found with
    | @derived slot place use derivation members kind written derived made =>
        have declared (own : item.origin = none) :
            unit.tree.typeAt? slot = some use := by
          simp only [Scene.derivedUse, own, sound.tree? member,
            Option.bind_some, Prod.mk.injEq] at written
          exact written.2
        have complete (own : item.origin = none) :
            use.builtin = none ∧ derivation.IsComplete :=
          Scene.derive_isComplete (fun unit member =>
            (sound.units unit member).nodes) derived
            (SchemaTree.IsSound.typeAt (sound.units unit member).nodes
              (declared own)).named
        refine .derived kind (fun own => (complete own).2) ?_ ?_
        · intro own use' declared'
          obtain rfl : use = use' := by simpa [declared own] using declared'
          exact (complete own).1
        · obtain rfl | ⟨typedef, _, made⟩ := made
          · exact List.forall_mem_nil _
          · exact fun member listed =>
              (Scene.unionReferences_made made member listed).1
    | _ => exact .target _ (by simp [*])
  next miss found =>
    cases miss with
    | notFound => exact .pending
    | failed failure => exact .failed failure
    | blocked => simp [found, Outcome.ofMiss] at free

/-- An outcome is for a reference of one of the units that accepts it. -/
def Settled.IsFor (settled : Settled) (units : List LinkUnit) : Prop :=
  ∃ unit, units[settled.unit]? = some unit ∧
    unit.AcceptsAt settled.index settled.outcome

theorem apply_evolves (units : List LinkUnit) (settled : Settled) :
    Evolves units (units.modify settled.unit
      (·.apply settled.index settled.outcome)) :=
  .modify fun unit _ => unit.apply_evolves settled.index settled.outcome

theorem Settled.IsFor.evolves {settled : Settled}
    {before after : List LinkUnit} (isFor : settled.IsFor before)
    (evolves : Evolves before after) : settled.IsFor after := by
  obtain ⟨unit, found, accepts⟩ := isFor
  obtain ⟨unit', found', evolved⟩ := evolves.unit found
  exact ⟨unit', found', accepts.evolves evolved⟩

theorem rankOutcomes_isFor {units : List LinkUnit} (sound : IsSound units)
    {phase : LinkPhase} {rank : Nat} {settled : Settled}
    (listed : settled ∈ rankOutcomes units phase rank) :
    settled.IsFor units := by
  obtain ⟨⟨unit, place⟩, atPlace, listed⟩ := List.mem_flatMap.mp listed
  have found := List.mk_mem_zipIdx_iff_getElem?.mp atPlace
  dsimp only at listed
  split at listed
  · obtain ⟨index, _, listed⟩ := List.mem_filterMap.mp listed
    obtain ⟨item, queued, listed⟩ := Option.bind_eq_some_iff.mp listed
    have accepted : unit.Accepts item
        ((Scene.ofUnits units phase).outcome unit.source item) :=
      outcome_accepted sound (List.mem_of_getElem? found) item
    split at listed
    · simp at listed
    · obtain rfl := Option.some.inj listed
      exact ⟨unit, found, item, queued, accepted⟩
  · simp at listed

theorem applyAll_evolves (units : List LinkUnit) (outcomes : List Settled) :
    Evolves units (applyAll units outcomes) := by
  induction outcomes generalizing units with
  | nil => exact .refl units
  | cons settled rest ih =>
      exact (apply_evolves units settled).trans (ih _)

/-- What is kept when a fitting outcome is written down is kept by all of them,
if outcomes still fit when a unit has evolved. -/
theorem applyAll_keeps {keeps : LinkUnit → Prop}
    (fits : Settled → LinkUnit → Prop)
    (evolve : ∀ {settled unit unit'}, fits settled unit →
      LinkUnit.Evolves unit unit' → fits settled unit')
    (step : ∀ {settled unit}, keeps unit → fits settled unit →
      keeps (unit.apply settled.index settled.outcome))
    {units : List LinkUnit} {outcomes : List Settled}
    (start : ∀ unit ∈ units, unit.usable = true → keeps unit)
    (each : ∀ settled ∈ outcomes, ∃ unit, units[settled.unit]? = some unit ∧
      fits settled unit) :
    ∀ unit ∈ applyAll units outcomes, unit.usable = true → keeps unit := by
  induction outcomes generalizing units with
  | nil => exact start
  | cons settled rest ih =>
      obtain ⟨⟨unit, found, here⟩, others⟩ := List.forall_mem_cons.mp each
      refine ih ?_ fun other listed => ?_
      · intro unit' member usable
        obtain ⟨place, found'⟩ := List.mem_iff_getElem?.mp member
        rw [List.getElem?_modify] at found'
        split at found'
        next same =>
          subst same
          obtain rfl : unit.apply settled.index settled.outcome = unit' := by
            simpa [found] using found'
          rw [(unit.apply_evolves _ _).usable] at usable
          exact step (start unit (List.mem_of_getElem? found) usable) here
        · exact start unit' (List.mem_of_getElem? (by simpa using found'))
            usable
      · obtain ⟨unit, found, fits⟩ := others other listed
        obtain ⟨unit', found', evolved⟩ :=
          (apply_evolves units settled).unit found
        exact ⟨unit', found', evolve fits evolved⟩

theorem roundFrom_evolves (phase : LinkPhase) (ranks rank : Nat)
    (units : List LinkUnit) :
    Evolves units (roundFrom phase ranks rank units).1 := by
  induction ranks generalizing rank units with
  | zero => exact .refl units
  | succ ranks ih => exact (applyAll_evolves units _).trans (ih _ _)

/-- What a round keeps is kept by any number of rounds. -/
theorem repeatRounds_keeps {phase : LinkPhase} (keeps : List LinkUnit → Prop)
    (step : ∀ units, keeps units → keeps (round phase units).1) (bound : Nat)
    {units : List LinkUnit} (start : keeps units) :
    keeps (repeatRounds phase bound units) := by
  induction bound generalizing units with
  | zero => exact start
  | succ bound ih =>
      have next := step units start
      unfold repeatRounds
      split
      next units' again =>
        rw [again] at next
        exact ih next
      next units' stopped => rwa [stopped] at next

theorem settle_evolves (phase : LinkPhase) (units : List LinkUnit) :
    Evolves units (settle phase units) :=
  repeatRounds_keeps (Evolves units) (fun _ before =>
    before.trans (roundFrom_evolves phase _ _ _)) _ (.refl units)

theorem append_evolves (unit : LinkUnit) (more : ReferenceQueue) :
    unit.Evolves { unit with queue := unit.queue ++ more } where
  text := .refl unit.tree
  usable := rfl
  deferred := rfl
  queue {index item} found := ⟨item.state, by
    rwa [List.getElem?_append_left (List.getElem?_eq_some_iff.mp found).1]⟩

theorem instantiateGroupings_evolves (units : List LinkUnit) :
    Evolves units (instantiateGroupings units) := by
  apply Evolves.map
  intro unit
  split
  · exact append_evolves unit _
  · exact .refl unit

/-- Linking changes nothing about the units but links and queues. -/
theorem link_evolves (phase : LinkPhase) (units : List LinkUnit) :
    Evolves units (link phase units) := by
  have settled := settle_evolves phase units
  cases phase with
  | intraFile => exact settled
  | interFile =>
      exact (settled.trans (instantiateGroupings_evolves _)).trans
        (settle_evolves .interFile _)

/-- One outcome is written down. -/
theorem apply_isSound {units : List LinkUnit} {settled : Settled}
    (sound : IsSound units) (isFor : settled.IsFor units) :
    IsSound (units.modify settled.unit
      (·.apply settled.index settled.outcome)) := by
  refine sound.evolves (apply_evolves units settled) fun unit' member => ?_
  obtain ⟨unit, found, accepts⟩ := isFor
  obtain ⟨place, found'⟩ := List.mem_iff_getElem?.mp member
  rw [List.getElem?_modify] at found'
  split at found'
  next same =>
    subst same
    obtain rfl : unit.apply settled.index settled.outcome = unit' := by
      simpa [found] using found'
    exact LinkUnit.apply_isSound
      (sound.units unit (List.mem_of_getElem? found)) accepts
  · exact sound.units unit' (List.mem_of_getElem? (by simpa using found'))

theorem applyAll_isSound {units : List LinkUnit} {outcomes : List Settled}
    (sound : IsSound units)
    (isFor : ∀ settled ∈ outcomes, settled.IsFor units) :
    IsSound (applyAll units outcomes) := by
  induction outcomes generalizing units with
  | nil => exact sound
  | cons settled rest ih =>
      obtain ⟨first, others⟩ := List.forall_mem_cons.mp isFor
      exact ih (apply_isSound sound first) fun other member =>
        (others other member).evolves (apply_evolves units settled)

theorem roundFrom_isSound {phase : LinkPhase} {ranks rank : Nat}
    {units : List LinkUnit} (sound : IsSound units) :
    IsSound (roundFrom phase ranks rank units).1 := by
  induction ranks generalizing rank units with
  | zero => exact sound
  | succ ranks ih =>
      exact ih (applyAll_isSound sound fun settled => rankOutcomes_isFor sound)

theorem settle_isSound {phase : LinkPhase} {units : List LinkUnit}
    (sound : IsSound units) : IsSound (settle phase units) :=
  repeatRounds_keeps IsSound (fun _ before => roundFrom_isSound before) _ sound

/-- What a `uses` instantiates has yet to be resolved, and it is made on behalf of
a leaf in the grouping. -/
theorem instances_made {scene : Scene} {unit : LinkUnit}
    {item reference : Reference}
    (made : reference ∈ instances scene unit item) :
    reference.state = .unresolved ∧ reference.origin.isSome := by
  unfold instances at made
  split at made
  · split at made
    · simp at made
    · obtain ⟨leafref, _, rfl⟩ := List.mem_map.mp made
      exact ⟨rfl, rfl⟩
  · simp at made

theorem instantiateGroupings_isSound {units : List LinkUnit}
    (sound : IsSound units) : IsSound (instantiateGroupings units) := by
  refine sound.evolves (instantiateGroupings_evolves units)
    fun unit' member => ?_
  obtain ⟨unit, earlier, rfl⟩ := List.mem_map.mp member
  have before := sound.units unit earlier
  split
  · refine before.of_sameText (.refl unit.tree)
      (fun gap => (before.accounts gap).append_left _) fun item queued => ?_
    obtain old | added := List.mem_append.mp queued
    · exact .inl old
    · obtain ⟨_, _, made⟩ := List.mem_flatMap.mp added
      exact .inr (by simp [(instances_made made).1])
  · exact before

/-- Linking keeps units sound. -/
theorem link_isSound (phase : LinkPhase) {units : List LinkUnit}
    (sound : IsSound units) : IsSound (link phase units) := by
  have settled : IsSound (settle phase units) := settle_isSound sound
  cases phase with
  | intraFile => exact settled
  | interFile => exact settle_isSound (instantiateGroupings_isSound settled)

end Linking

end YangSchema
