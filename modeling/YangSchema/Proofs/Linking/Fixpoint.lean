import YangSchema.Proofs.Linking.Order

/-!
# Linking ends when nothing more can be settled

Rounds that are repeated without a bound until one settles nothing come to an end:
with every outcome less is left to be settled.  At this end nothing is found for
any reference that is still pending.  The bounds that linking works with are never
reached, neither on the number of rounds nor on the depth of a walk.
-/

namespace YangSchema

namespace Linking

/-- Rounds are repeated until one settles nothing. -/
inductive Settles (phase : LinkPhase) : List LinkUnit → List LinkUnit → Prop
  | done {units : List LinkUnit} (quiet : (round phase units).2 = false) :
      Settles phase units (round phase units).1
  | again {units after : List LinkUnit}
      (progress : (round phase units).2 = true)
      (rest : Settles phase (round phase units).1 after) :
      Settles phase units after

/-- All of a phase, without a bound on the number of rounds. -/
inductive Runs : LinkPhase → List LinkUnit → List LinkUnit → Prop
  | alone {units after : List LinkUnit}
      (settles : Settles .intraFile units after) : Runs .intraFile units after
  | across {units middle after : List LinkUnit}
      (first : Settles .interFile units middle)
      (second : Settles .interFile (instantiateGroupings middle) after) :
      Runs .interFile units after

/-- Nothing is found for any reference that is still pending. -/
def IsSettled (phase : LinkPhase) (units : List LinkUnit) : Prop :=
  ∀ unit ∈ units, unit.usable = true →
    ∀ item ∈ unit.queue, item.state = .unresolved →
      (Scene.ofUnits units phase).lookupReference unit.source item =
        .error .notFound

section

variable {phase : LinkPhase} {base units before after : List LinkUnit}
  {rank : Nat}

theorem cost_eq_of_evolves (evolves : Evolves before after)
    (units : List LinkUnit) : cost after units = cost before units := by
  simp only [cost, ReferenceQueue.cost, Reference.cost_eq evolves]

/-- One of the units waits for an outcome, which costs less than its reference. -/
def Settled.IsAffordable (settled : Settled) (base units : List LinkUnit) :
    Prop :=
  ∃ unit item, units[settled.unit]? = some unit ∧
    unit.queue[settled.index]? = some item ∧ item.isPending = true ∧
      item.Affords base settled.outcome

theorem Settled.IsAffordable.apply {settled other : Settled}
    (affordable : settled.IsAffordable base units)
    (apart : (other.unit, other.index) ≠ (settled.unit, settled.index)) :
    settled.IsAffordable base
      (units.modify other.unit (·.apply other.index other.outcome)) := by
  obtain ⟨unit, item, found, queued, waits⟩ := affordable
  by_cases same : other.unit = settled.unit
  · refine ⟨unit.apply other.index other.outcome, item, ?_,
      LinkUnit.getElem?_apply _ (fun index => apart (by rw [same, index]))
        queued, waits⟩
    simp [same, found]
  · exact ⟨unit, item, by simpa [List.getElem?_modify, same] using found,
      queued, waits⟩

/-- With every outcome that is written down less is left to be settled. -/
theorem cost_applyAll_le {outcomes : List Settled}
    (apart : (outcomes.map fun settled =>
      (settled.unit, settled.index)).Nodup)
    (affordable : ∀ settled ∈ outcomes, settled.IsAffordable base units) :
    cost base (applyAll units outcomes) + outcomes.length ≤
      cost base units := by
  induction outcomes generalizing units with
  | nil => exact Nat.le_refl _
  | cons settled rest ih =>
      obtain ⟨first, others⟩ := List.forall_mem_cons.mp affordable
      obtain ⟨alone, apart⟩ := List.nodup_cons.mp apart
      have later := @ih
        (units.modify settled.unit (·.apply settled.index settled.outcome))
        apart fun other listed => (others other listed).apply fun same =>
          alone (List.mem_map.mpr ⟨other, listed, same.symm⟩)
      obtain ⟨unit, item, found, queued, pending, affords⟩ := first
      have less := LinkUnit.cost_apply_lt queued pending affords
      obtain ⟨front, unit', back, split, length, changed⟩ :=
        List.exists_of_modify (·.apply settled.index settled.outcome)
          (List.getElem?_eq_some_iff.mp found).1
      obtain rfl : unit' = unit := by
        rw [split, ← length] at found
        simpa using found
      have now : cost base (units.modify settled.unit
          (·.apply settled.index settled.outcome)) < cost base units := by
        rw [changed, split]
        simp only [cost, List.map_append, List.map_cons, List.sum_append,
          List.sum_cons]
        omega
      simp only [applyAll, List.foldl_cons, List.length_cons] at later ⊢
      omega

namespace IsOrderly

variable (orderly : IsOrderly phase units)
include orderly

/-- What an outcome brings in costs less than the reference that it settles. -/
theorem affords {unit : LinkUnit} {item : Reference} (member : unit ∈ units)
    (usable : unit.usable = true) (queued : item ∈ unit.queue)
    (pending : item.isPending = true)
    (settles :
      (Scene.ofUnits units phase).outcome unit.source item ≠ .pending) :
    item.Affords units
      ((Scene.ofUnits units phase).outcome unit.source item) := by
  have looks {ref : NodeRef} (named : item.Names unit.source ref) :
      (Scene.ofUnits units phase).LooksAt ref :=
    .queued member usable queued named
  have once := orderly.once unit member usable item queued
  have known : ∀ typedef ∈ Scene.expandedTypedefs item,
      typedef ∈ (Scene.ofUnits units phase).nodeRefs := fun typedef listed =>
    orderly.scene.known (Scene.expandedTypedefs_looks looks typedef listed)
  unfold Scene.outcome at settles ⊢
  split
  next outcome ok =>
    cases Scene.lookupReference_found ok with
    | derived kind written derived made =>
        refine .derived kind ?_
        obtain rfl | ⟨typedef, ends, made⟩ := made
        · exact Scene.one_lt_cost kind pending once known
        · obtain ⟨ending, along⟩ := Scene.derive_eq_ok derived
          obtain rfl : ending.typedef = typedef := by
            rw [along.membersFrom] at ends
            split at ends <;> simp_all
          have endLooks :=
            ((Scene.derivedUse_looks looks kind written).derive along).2.1
          exact Scene.cost_unionReferences_lt kind pending once known
            (orderly.scene.apart endLooks) made
    | _ => exact .target _
  next miss failing =>
    cases miss with
    | notFound => simp [failing, Outcome.ofMiss] at settles
    | blocked => exact .blocked
    | failed failure => exact .failed failure

theorem cost_applyAll_le (rank : Nat) :
    let after := Linking.applyAll units (rankOutcomes units phase rank)
    cost after after + (rankOutcomes units phase rank).length ≤
      cost units units := by
  intro after
  rw [cost_eq_of_evolves (applyAll_evolves units _)]
  refine Linking.cost_applyAll_le (rankOutcomes_apart units phase rank)
    fun settled listed => ?_
  obtain ⟨unit, item, found, usable, queued, pending, -, settles, same⟩ :=
    mem_rankOutcomes_iff.mp listed
  refine ⟨unit, item, found, queued, pending, ?_⟩
  rw [same] at settles ⊢
  exact orderly.affords (List.mem_of_getElem? found) usable
    (List.mem_of_getElem? queued) pending settles

/-- A round that settles something leaves less to be settled. -/
theorem cost_roundFrom_le (ranks rank : Nat) :
    let after := (roundFrom phase ranks rank units).1
    cost after after + (roundFrom phase ranks rank units).2.toNat ≤
      cost units units := by
  induction ranks generalizing rank units with
  | zero => exact Nat.le_refl _
  | succ ranks ih =>
      have here := orderly.cost_applyAll_le rank
      have later := ih (orderly.applyAll rank) (rank + 1)
      dsimp only [roundFrom] at here later ⊢
      cases outcomes : rankOutcomes units phase rank with
      | nil =>
          simp only [outcomes, List.isEmpty_nil, Bool.not_true,
            Bool.false_or, List.length_nil] at here later ⊢
          omega
      | cons settled rest =>
          simp only [outcomes, List.isEmpty_cons, Bool.not_false,
            Bool.true_or, Bool.toNat_true, List.length_cons] at here later ⊢
          omega

theorem round : IsOrderly phase (round phase units).1 :=
  orderly.of_passes (Passes.start.roundFrom ReferenceKind.rankCount 0)

/-- As many rounds as there is left to be settled are enough. -/
theorem repeatRounds_settles {bound : Nat} (room : cost units units < bound) :
    Settles phase units (repeatRounds phase bound units) := by
  induction bound generalizing units with
  | zero => exact absurd room (Nat.not_lt_zero _)
  | succ bound ih =>
      have falls := orderly.cost_roundFrom_le ReferenceKind.rankCount 0
      unfold repeatRounds
      split
      next units' again =>
        have progress : (Linking.round phase units).2 = true := by rw [again]
        have same : (Linking.round phase units).1 = units' := by rw [again]
        refine .again progress ?_
        have next := orderly.round
        rw [same] at next ⊢
        refine ih next ?_
        rw [Linking.round] at same progress
        rw [same, progress] at falls
        simp only [Bool.toNat_true] at falls
        omega
      next units' stopped =>
        have quiet : (Linking.round phase units).2 = false := by rw [stopped]
        have same : (Linking.round phase units).1 = units' := by rw [stopped]
        exact same ▸ .done quiet

omit orderly in
theorem cost_le_potential (units : List LinkUnit) :
    cost units units ≤ potential units := by
  have each (queue : ReferenceQueue) : queue.cost units ≤
      ((queue.filter (·.isPending)).map (weight units)).sum := by
    induction queue with
    | nil => exact Nat.le_refl 0
    | cons item rest ih =>
        have most : item.cost units ≤ weight units item := item.cost_le_weight
        cases pending : item.isPending with
        | false =>
            simpa [ReferenceQueue.cost, Reference.cost, pending] using ih
        | true =>
            simp only [ReferenceQueue.cost, List.map_cons, List.sum_cons,
              List.filter_cons, pending, if_true] at ih ⊢
            omega
  have total : potential units = (units.map fun unit =>
      ((unit.queue.filter (·.isPending)).map (weight units)).sum).sum := by
    rw [potential, foldl_add_eq, Nat.zero_add, List.filter_flatMap,
      List.map_flatMap, List.flatMap_def, List.sum_flatten, List.map_map]
    rfl
  rw [total, cost]
  exact List.sum_le_sum fun unit _ => each unit.queue

/-- The bound on the number of rounds is never reached. -/
theorem settle_settles : Settles phase units (settle phase units) :=
  orderly.repeatRounds_settles (Nat.lt_succ_of_le (cost_le_potential units))

end IsOrderly

/-- A round that settles nothing changes nothing, and no rank has an outcome. -/
theorem roundFrom_quiet {ranks : Nat}
    (quiet : (roundFrom phase ranks rank units).2 = false) :
    (roundFrom phase ranks rank units).1 = units ∧
      ∀ other, rank ≤ other → other < rank + ranks →
        rankOutcomes units phase other = [] := by
  induction ranks generalizing rank units with
  | zero => exact ⟨rfl, fun other above below => by omega⟩
  | succ ranks ih =>
      simp only [roundFrom, Bool.or_eq_false_iff, Bool.not_eq_false',
        List.isEmpty_iff] at quiet ⊢
      obtain ⟨none, quiet⟩ := quiet
      rw [none, applyAll, List.foldl_nil] at quiet ⊢
      obtain ⟨same, others⟩ := ih quiet
      refine ⟨same, fun other above below => ?_⟩
      obtain rfl | above := Nat.eq_or_lt_of_le above
      · exact none
      · exact others other above (by omega)

theorem rank_lt_rankCount (kind : ReferenceKind) :
    kind.rank < ReferenceKind.rankCount := by
  cases kind <;> simp [ReferenceKind.rank, ReferenceKind.rankCount]

/-- When a round settles nothing, nothing is found for what is still pending. -/
theorem isSettled_of_quiet (quiet : (round phase units).2 = false) :
    IsSettled phase units := by
  obtain ⟨-, none⟩ := roundFrom_quiet quiet
  intro unit member usable item queued unresolved
  obtain ⟨place, found⟩ := List.mem_iff_getElem?.mp member
  obtain ⟨index, queued⟩ := List.mem_iff_getElem?.mp queued
  have pending : (Scene.ofUnits units phase).outcome unit.source item =
      .pending := by
    by_contra settles
    have listed : Settled.mk place index _ ∈
        rankOutcomes units phase item.kind.rank :=
      mem_rankOutcomes_iff.mpr ⟨unit, item, found, usable, queued,
        by simp [Reference.isPending, unresolved], rfl, settles, rfl⟩
    rw [none _ (Nat.zero_le _)
      (by simpa using rank_lt_rankCount item.kind)] at listed
    simp at listed
  unfold Scene.outcome at pending
  split at pending
  next outcome ok =>
    subst pending
    cases Scene.lookupReference_found ok
  next miss failing =>
    cases miss <;> simp_all [Outcome.ofMiss]

theorem Settles.isSettled (settles : Settles phase units after) :
    IsSettled phase after := by
  induction settles with
  | done quiet =>
      have settled := isSettled_of_quiet quiet
      rwa [← (roundFrom_quiet quiet).1] at settled
  | again _ _ ih => exact ih

/-- There is only one way to repeat rounds. -/
theorem Settles.unique {other : List LinkUnit}
    (settles : Settles phase units after)
    (settles' : Settles phase units other) : other = after := by
  induction settles with
  | done quiet =>
      cases settles' with
      | done => rfl
      | again progress => simp [quiet] at progress
  | again progress _ ih =>
      cases settles' with
      | done quiet => simp [quiet] at progress
      | again _ rest => exact ih rest

/-- All of a phase comes to one end, which is what linking gives. -/
theorem IsOrderly.runs_iff (orderly : IsOrderly phase units) :
    Runs phase units after ↔ after = link phase units := by
  have settles := orderly.settle_settles
  cases phase with
  | intraFile =>
      constructor
      · rintro ⟨settles'⟩
        exact settles.unique settles'
      · rintro rfl
        exact .alone settles
  | interFile =>
      have second := (orderly.of_passes
        (Passes.start.settle.instances rfl)).settle_settles
      constructor
      · intro runs
        cases runs with
        | across first second' =>
            obtain rfl := settles.unique first
            exact second.unique second'
      · rintro rfl
        exact .across settles second

end

end Linking

/-- A recursion ends by itself within a bound, so that no larger one changes what
it gives. -/
structure Completes {α β : Type} (calls : α → α → Prop) (state : α)
    (result : Nat → β) (bound : Nat) : Prop where
  ends : EndsWithin calls bound state
  exact : ∀ more, result (bound + more) = result bound

/-- Nothing that linking looks for in a scene is cut off at a bound. -/
structure Scene.IsExhaustive (scene : Scene) : Prop where
  chains : ∀ first layers, Completes scene.ChainCalls (first, [first])
    (scene.chainEnd · first [first] layers) (scene.nodeCount + 1)
  members : ∀ {union}, scene.LooksAt union → ∀ item slot typedefs,
    Completes scene.MemberCalls union
      (scene.memberReferences item slot typedefs · union)
      (scene.nodeCount + 1)
  steps : ∀ {place}, scene.LooksAt place → ∀ walk,
    Completes scene.CollectCalls (place, [], [])
      (scene.collect walk · place [] []) scene.walkBound
  paths : ∀ {leaf use}, scene.LooksAt leaf → scene.type? leaf = some use →
    Completes scene.PathCalls ([(leaf, use)], [])
      (Linking.leafrefPaths scene · [(leaf, use)] []) (Linking.pathBound scene)
  leafrefs : ∀ {grouping}, scene.LooksAt grouping → ∀ uses,
    Completes scene.BelowCalls (grouping, [grouping])
      (Linking.leafrefsBelow scene · grouping [uses] [grouping])
      scene.walkBound

theorem Scene.IsOrderly.isExhaustive {scene : Scene}
    (orderly : scene.IsOrderly) : scene.IsExhaustive where
  chains first layers :=
    ⟨chain_endsWithin first, fun more =>
      chainEnd_add (chain_endsWithin first) more layers⟩
  members looks item slot typedefs :=
    have ends := members_endsWithin (orderly.apart looks)
    ⟨ends, memberReferences_add ends⟩
  steps looks walk :=
    have ends := collect_endsWithin orderly [] looks
    ⟨ends, fun more => collect_add ends more walk⟩
  paths {leaf use} looks declared := by
    obtain ⟨construct, found, declared⟩ := Option.bind_eq_some_iff.mp declared
    have ends : EndsWithin scene.PathCalls (Linking.pathBound scene)
        ([(leaf, use)], []) :=
      paths_endsWithin orderly.apart
        ⟨looks, construct, none, found, declared⟩
    exact ⟨ends, leafrefPaths_add ends⟩
  leafrefs {grouping} looks uses :=
    have ends := leafrefs_endsWithin orderly [grouping] looks
    ⟨ends, fun more => leafrefsBelow_add ends more [uses]⟩

namespace Linking

/-- Linking comes to one end without its bounds, and there nothing is found for
what is still pending. -/
structure Ends (phase : LinkPhase) (units : List LinkUnit) : Prop where
  runs : ∀ after, Runs phase units after ↔ after = link phase units
  exhaustive : ∀ passed, Passes phase units passed →
    (Scene.ofUnits passed phase).IsExhaustive
  settled : IsSettled phase (link phase units)

theorem IsOrderly.ends {phase : LinkPhase} {units : List LinkUnit}
    (orderly : IsOrderly phase units) : Ends phase units where
  runs _ := orderly.runs_iff
  exhaustive _ passes := (orderly.of_passes passes).scene.isExhaustive
  settled := by
    cases orderly.runs_iff.mpr rfl with
    | alone settles => exact settles.isSettled
    | across _ settles => exact settles.isSettled

end Linking

end YangSchema
