import YangSchema.Proofs.Compilation.Completeness
import Mathlib.Data.Fintype.EquivFin
import Mathlib.Logic.Relation

/-!
# Identities that are derived from themselves

From each identity its bases are followed until they come back to it, end, or
run into a circle that it is not on.  All that is met on the way is different,
so this happens before the bound on the steps is reached, and the identities
that are reported are those on circles.  Where none is reported, all bases of an
identity come to an end.
-/

namespace YangSchema

namespace Linking

variable {scene : Scene} {start base derived : NodeRef}
  {visited : List NodeRef} {current : Option NodeRef} {bound : Nat}

/-- One identity is the base of another. -/
def IsBaseOf (scene : Scene) (base derived : NodeRef) : Prop :=
  baseOf scene derived = some base

/-- An identity is derived from itself, directly or through others. -/
def IsCircular (scene : Scene) (identity : NodeRef) : Prop :=
  Relation.TransGen (IsBaseOf scene) identity identity

/-- What stands so many bases above an identity. -/
def baseAfter (scene : Scene) (start : NodeRef) : Nat → Option NodeRef
  | 0 => some start
  | steps + 1 => (baseAfter scene start steps).bind (baseOf scene)

theorem baseAfter_congr {first second : Nat}
    (same : baseAfter scene start first = baseAfter scene start second)
    (steps : Nat) :
    baseAfter scene start (first + steps) =
      baseAfter scene start (second + steps) := by
  induction steps with
  | zero => exact same
  | succ steps ih =>
      rw [← Nat.add_assoc, ← Nat.add_assoc, baseAfter, ih, baseAfter]

theorem transGen_isBaseOf_iff {target : NodeRef} :
    Relation.TransGen (IsBaseOf scene) target start ↔
      ∃ steps, baseAfter scene start (steps + 1) = some target := by
  constructor
  · intro above
    induction above using Relation.TransGen.head_induction_on with
    | single last => exact ⟨0, last⟩
    | head next _ ih =>
        obtain ⟨steps, met⟩ := ih
        exact ⟨steps + 1, by rw [baseAfter, met]; exact next⟩
  · rintro ⟨steps, met⟩
    induction steps generalizing target with
    | zero => exact .single met
    | succ steps ih =>
        obtain ⟨middle, met, next⟩ := Option.bind_eq_some_iff.mp met
        exact .head next (ih met)

theorem baseAfter_add {middle : NodeRef} {first : Nat}
    (met : baseAfter scene start first = some middle) (steps : Nat) :
    baseAfter scene start (first + steps) = baseAfter scene middle steps := by
  induction steps with
  | zero => exact met
  | succ steps ih => rw [← Nat.add_assoc, baseAfter, ih, baseAfter]

/-- A walk that ends never goes on. -/
theorem baseAfter_eq_none {first : Nat}
    (ended : baseAfter scene start first = none) (steps : Nat) :
    baseAfter scene start (first + steps) = none := by
  induction steps with
  | zero => exact ended
  | succ steps ih => rw [← Nat.add_assoc, baseAfter, ih, Option.bind_none]

/-- A walk that runs into a circle behind its start never comes back to its
start. -/
theorem baseAfter_ne_start {first second : Nat} (behind : 0 < first)
    (same : baseAfter scene start first = baseAfter scene start second)
    (later : first < second)
    (others : ∀ steps, 0 < steps → steps < second →
      baseAfter scene start steps ≠ some start) (steps : Nat)
    (moved : 0 < steps) : baseAfter scene start steps ≠ some start := by
  induction steps using Nat.strongRecOn with
  | ind steps ih =>
      by_cases early : steps < second
      · exact others steps moved early
      · obtain ⟨more, rfl⟩ := Nat.exists_eq_add_of_le (Nat.le_of_not_lt early)
        rw [← baseAfter_congr same]
        exact ih (first + more) (by omega) (by omega)

/-- The identities that have been met, all different, from the start on. -/
structure HasMet (scene : Scene) (start : NodeRef) (visited : List NodeRef) :
    Prop where
  started : visited ≠ []
  met : ∀ steps < visited.length,
    visited[steps]? = baseAfter scene start steps
  distinct : visited.Nodup

namespace HasMet

theorem initial (scene : Scene) (start : NodeRef) :
    HasMet scene start [start] where
  started := by simp
  met := by simp [baseAfter]
  distinct := List.nodup_singleton start

theorem ne_start (has : HasMet scene start visited) {steps : Nat}
    (moved : 0 < steps) (within : steps < visited.length) :
    baseAfter scene start steps ≠ some start := by
  intro back
  have first : visited[0]? = some start :=
    has.met 0 (List.length_pos_iff.mpr has.started)
  have again : visited[steps]? = some start := (has.met steps within).trans back
  have same := (List.getElem?_inj within has.distinct).mp
    (again.trans first.symm)
  omega

theorem push (has : HasMet scene start visited) {next : NodeRef}
    (current : baseAfter scene start visited.length = some next)
    (fresh : next ∉ visited) : HasMet scene start (visited ++ [next]) where
  started := by simp
  met := by
    intro steps within
    rw [List.length_append, List.length_singleton] at within
    obtain early | rfl := Nat.lt_succ_iff_lt_or_eq.mp within
    · rw [List.getElem?_append_left early]
      exact has.met steps early
    · simp [current]
  distinct := has.distinct.append (List.nodup_singleton next) (by simpa)

/-- Everything that has been met but the last is a node of the scene. -/
theorem length_le (has : HasMet scene start visited) :
    visited.length ≤ scene.nodeCount + 1 := by
  have among : visited.dropLast ⊆ scene.nodeRefs := by
    intro identity listed
    obtain ⟨steps, within, is⟩ := List.mem_iff_getElem.mp listed
    rw [List.length_dropLast] at within
    rw [List.getElem_dropLast] at is
    have met := has.met steps (by omega)
    rw [List.getElem?_eq_getElem (by omega), is] at met
    have next := has.met (steps + 1) (by omega)
    rw [List.getElem?_eq_getElem (by omega), baseAfter, ← met,
      Option.bind_some] at next
    unfold baseOf at next
    split at next
    next body isIdentity =>
      obtain ⟨node, found, -⟩ := Option.map_eq_some_iff.mp isIdentity
      exact Scene.mem_nodeRefs_of_node? found
    · simp at next
  have most := Scene.length_le_nodeCount
    (has.distinct.sublist (List.dropLast_sublist _)) among
  rw [List.length_dropLast] at most
  omega

end HasMet

/-- A walk along the bases that comes back to its start with its last step. -/
structure IsRoundTrip (scene : Scene) (start : NodeRef)
    (chain : List NodeRef) : Prop where
  met : ∀ steps < chain.length, chain[steps]? = baseAfter scene start steps
  moved : 1 < chain.length
  back : chain.getLast? = some start
  first : ∀ steps, 0 < steps → steps + 1 < chain.length →
    chain[steps]? ≠ some start

theorem HasMet.isRoundTrip (has : HasMet scene start visited)
    (back : baseAfter scene start visited.length = some start) :
    IsRoundTrip scene start (visited ++ [start]) where
  met := by
    intro steps within
    rw [List.length_append, List.length_singleton] at within
    obtain early | rfl := Nat.lt_succ_iff_lt_or_eq.mp within
    · rw [List.getElem?_append_left early]
      exact has.met steps early
    · simp [back]
  moved := by simpa using List.length_pos_iff.mpr has.started
  back := by simp
  first := by
    intro steps moved within
    have early : steps < visited.length := by simpa using within
    rw [List.getElem?_append_left early, has.met steps early]
    exact has.ne_start moved early

/-- There is at most one such walk. -/
theorem IsRoundTrip.unique {chain chain' : List NodeRef}
    (trip : IsRoundTrip scene start chain)
    (trip' : IsRoundTrip scene start chain') : chain = chain' := by
  have shortest {chain chain' : List NodeRef}
      (trip : IsRoundTrip scene start chain)
      (trip' : IsRoundTrip scene start chain') :
      chain.length ≤ chain'.length := by
    by_contra longer
    have moved := trip'.moved
    have back := trip'.back
    rw [List.getLast?_eq_getElem?, trip'.met _ (by omega)] at back
    exact trip.first (chain'.length - 1) (by omega) (by omega)
      ((trip.met _ (by omega)).trans back)
  have length := Nat.le_antisymm (shortest trip trip') (shortest trip' trip)
  refine List.ext_getElem? fun steps => ?_
  by_cases within : steps < chain.length
  · rw [trip.met steps within, trip'.met steps (length ▸ within)]
  · rw [List.getElem?_eq_none (by omega), List.getElem?_eq_none (by omega)]

/-- What is found is the walk back to the start. -/
theorem isRoundTrip_of_baseCycle {chain : List NodeRef}
    (has : HasMet scene start visited)
    (next : current = baseAfter scene start visited.length)
    (found : baseCycle scene start bound visited current = some chain) :
    IsRoundTrip scene start chain := by
  induction bound generalizing visited current with
  | zero => simp [baseCycle] at found
  | succ bound ih =>
      cases current with
      | none => simp [baseCycle] at found
      | some current =>
          unfold baseCycle at found
          split at found
          next same =>
            obtain rfl := Option.some.inj found
            exact has.isRoundTrip (same ▸ next.symm)
          next other =>
            split at found
            · simp at found
            next fresh =>
              refine ih (has.push next.symm (by simpa using fresh)) ?_ found
              rw [List.length_append, List.length_singleton, baseAfter, ← next,
                Option.bind_some]

/-- The walk back to the start is found if there is one and enough steps are
left to visit every node. -/
theorem baseCycle_isSome (has : HasMet scene start visited)
    (next : current = baseAfter scene start visited.length)
    (room : scene.nodeCount + 1 < bound + visited.length)
    (circular : IsCircular scene start) :
    (baseCycle scene start bound visited current).isSome = true := by
  obtain ⟨last, returns⟩ := transGen_isBaseOf_iff.mp circular
  induction bound generalizing visited current with
  | zero =>
      have most := has.length_le
      omega
  | succ bound ih =>
      have notYet : visited.length ≤ last + 1 := by
        by_contra early
        exact has.ne_start (Nat.succ_pos last) (Nat.lt_of_not_le early) returns
      cases current with
      | none =>
          have ended := baseAfter_eq_none next.symm (last + 1 - visited.length)
          rw [Nat.add_sub_cancel' notYet, returns] at ended
          simp at ended
      | some current =>
          unfold baseCycle
          split
          · rfl
          next other =>
            split
            next again =>
              obtain ⟨steps, within, is⟩ := List.mem_iff_getElem.mp
                (List.contains_iff_mem.mp again)
              have met := has.met steps within
              rw [List.getElem?_eq_getElem within, is] at met
              have behind : 0 < steps := by
                refine Nat.pos_of_ne_zero fun zero => other ?_
                rw [zero] at met
                exact Option.some.inj met
              exact absurd returns (baseAfter_ne_start behind
                (met.symm.trans next) within (fun _ => has.ne_start) _
                (Nat.succ_pos last))
            next fresh =>
              refine ih (has.push next.symm (by simpa using fresh)) ?_ ?_
              · rw [List.length_append, List.length_singleton, baseAfter, ← next,
                  Option.bind_some]
              · rw [List.length_append, List.length_singleton]
                omega

theorem IsRoundTrip.isCircular {chain : List NodeRef}
    (trip : IsRoundTrip scene start chain) : IsCircular scene start := by
  have moved := trip.moved
  have back := trip.back
  rw [List.getLast?_eq_getElem?, trip.met _ (by omega),
    show chain.length - 1 = chain.length - 2 + 1 by omega] at back
  exact transGen_isBaseOf_iff.mpr ⟨_, back⟩

/-- A search with room for every node finds the walk back to its start exactly
if there is one. -/
theorem baseCycle_eq_some_iff {chain : List NodeRef}
    (room : scene.nodeCount < bound) :
    baseCycle scene start bound [start] (baseOf scene start) = some chain ↔
      IsRoundTrip scene start chain := by
  have has := HasMet.initial scene start
  have next : baseOf scene start = baseAfter scene start [start].length := rfl
  constructor
  · exact isRoundTrip_of_baseCycle has next
  · intro trip
    have found := baseCycle_isSome has next (Nat.succ_lt_succ room)
      trip.isCircular
    obtain ⟨chain', found⟩ := Option.isSome_iff_exists.mp found
    rw [found, trip.unique (isRoundTrip_of_baseCycle has next found)]

theorem IsCircular.exists_isRoundTrip (circular : IsCircular scene start) :
    ∃ chain, IsRoundTrip scene start chain := by
  have has := HasMet.initial scene start
  have found := baseCycle_isSome has rfl
    (Nat.lt_succ_self (scene.nodeCount + 1)) circular
  obtain ⟨chain, found⟩ := Option.isSome_iff_exists.mp found
  exact ⟨chain, isRoundTrip_of_baseCycle has rfl found⟩

/-- Where no identity is derived from itself, all bases come to an end. -/
theorem exists_baseAfter_eq_none (acyclic : ∀ ref, ¬ IsCircular scene ref)
    (start : NodeRef) : ∃ steps, baseAfter scene start steps = none := by
  by_contra endless
  have goesOn (steps : Nat) :
      ∃ next, baseAfter scene start steps = some next :=
    Option.ne_none_iff_exists'.mp fun ended => endless ⟨steps, ended⟩
  -- So ever more different identities are met, but there are only so many.
  have meets (count : Nat) :
      ∃ visited, HasMet scene start visited ∧ visited.length = count + 1 := by
    induction count with
    | zero => exact ⟨_, .initial scene start, rfl⟩
    | succ count ih =>
        obtain ⟨visited, has, length⟩ := ih
        obtain ⟨next, current⟩ := goesOn visited.length
        refine ⟨visited ++ [next], has.push current fun again => ?_,
          by simp [length]⟩
        obtain ⟨steps, within, is⟩ := List.mem_iff_getElem.mp again
        have met := has.met steps within
        rw [List.getElem?_eq_getElem within, is] at met
        rw [show visited.length = steps + (visited.length - steps - 1 + 1) by
          omega, baseAfter_add met.symm] at current
        exact acyclic next (transGen_isBaseOf_iff.mpr ⟨_, current⟩)
  obtain ⟨visited, has, length⟩ := meets (scene.nodeCount + 1)
  have most := has.length_le
  omega

theorem acc_isBaseOf {steps : Nat}
    (ended : baseAfter scene start steps = none) :
    Acc (IsBaseOf scene) start := by
  induction steps generalizing start with
  | zero => simp [baseAfter] at ended
  | succ steps ih =>
      refine .intro _ fun base next => ih ?_
      have first : baseAfter scene start 1 = some base := next
      rw [← baseAfter_add first, Nat.add_comm]
      exact ended

theorem wellFounded_isBaseOf (acyclic : ∀ ref, ¬ IsCircular scene ref) :
    WellFounded (IsBaseOf scene) :=
  ⟨fun start => (exists_baseAfter_eq_none acyclic start).elim
    fun _ => acc_isBaseOf⟩

/-- What is reported about an identity that is derived from itself. -/
def circularityError (scene : Scene) (node : SchemaNode)
    (cycle : List NodeRef) : StatementError :=
  let chain := " -> ".intercalate (cycle.map scene.nameOf)
  .atPlace .dataModelConstraintViolation "identity" (some node.name)
    node.position node.span s!"base chain `{chain}` is circular"

/-- Exactly the identities that are derived from themselves are reported, with
the way back to them. -/
theorem mem_cycleErrors_iff {unit : LinkUnit} {id : NodeId} {node : SchemaNode}
    (found : unit.tree.node? id = some node) {error : StatementError} :
    error ∈ cycleErrors scene unit id ↔
      ∃ chain, IsRoundTrip scene ⟨unit.source, id⟩ chain ∧
        error = circularityError scene node chain := by
  have same (chain : List NodeRef) := @baseCycle_eq_some_iff scene
    ⟨unit.source, id⟩ (scene.nodeCount + 2) chain (by omega)
  simp only [cycleErrors, found, ← same]
  cases baseCycle scene ⟨unit.source, id⟩ (scene.nodeCount + 2)
      [⟨unit.source, id⟩] (baseOf scene ⟨unit.source, id⟩) with
  | none => simp
  | some chain => simp [circularityError]

/-- An identity that is derived from itself is a node of some unit. -/
theorem IsCircular.exists_node {units : List LinkUnit} {ref : NodeRef}
    (circular : IsCircular (Scene.ofUnits units .interFile) ref) :
    ∃ unit ∈ units, ∃ node, unit.source = ref.source ∧
      unit.tree.node? ref.node = some node := by
  obtain ⟨base, -, next⟩ := Relation.TransGen.tail'_iff.mp circular
  rw [IsBaseOf, baseOf] at next
  split at next
  next body isIdentity =>
    obtain ⟨node, found, -⟩ := Option.map_eq_some_iff.mp isIdentity
    obtain ⟨tree, isTree, inTree⟩ := Option.bind_eq_some_iff.mp found
    obtain ⟨unit, member, rfl, source⟩ := Scene.tree?_mem isTree
    exact ⟨unit, member, node, source, inTree⟩
  · simp at next

/-- Where nothing is found wrong, no identity of a usable unit is derived from
itself. -/
theorem not_isCircular_of_quiet {units : List LinkUnit}
    (quiet : (findings units).hasErrors = false)
    (usable : ∀ unit ∈ units, unit.usable = true) (ref : NodeRef) :
    ¬ IsCircular (Scene.ofUnits units .interFile) ref := by
  intro circular
  obtain ⟨unit, member, node, source, found⟩ := circular.exists_node
  obtain ⟨chain, trip⟩ := circular.exists_isRoundTrip
  obtain ⟨_, id⟩ := ref
  obtain rfl : unit.source = _ := source
  have reported := (mem_cycleErrors_iff found).mpr ⟨chain, trip, rfl⟩
  have severe : (circularityError (Scene.ofUnits units .interFile) node
    chain).IsSevere := rfl
  refine not_mem_unitErrors quiet member (usable unit member) severe ?_
  rw [unitErrors, List.mem_append]
  exact .inr (List.mem_flatMap.mpr
    ⟨id, List.mem_range.mpr (SchemaTree.lt_size_of_node? found), reported⟩)

theorem cycleErrors_ne_nil_iff {unit : LinkUnit} {id : NodeId}
    {node : SchemaNode} (found : unit.tree.node? id = some node) :
    cycleErrors scene unit id ≠ [] ↔ IsCircular scene ⟨unit.source, id⟩ := by
  constructor
  · intro reported
    obtain ⟨error, raised⟩ := List.exists_mem_of_ne_nil _ reported
    obtain ⟨chain, trip, -⟩ := (mem_cycleErrors_iff found).mp raised
    exact trip.isCircular
  · intro circular
    obtain ⟨chain, trip⟩ := circular.exists_isRoundTrip
    exact List.ne_nil_of_mem ((mem_cycleErrors_iff found).mpr ⟨chain, trip, rfl⟩)

theorem mem_findings_of_cycleErrors {units : List LinkUnit} {unit : LinkUnit}
    (member : unit ∈ units) (usable : unit.usable = true) {id : NodeId}
    (known : id < unit.tree.size) {error : StatementError}
    (raised : error ∈ cycleErrors (.ofUnits units .interFile) unit id) :
    error.toDiagnostic unit.source ∈ findings units := by
  refine List.mem_flatMap.mpr ⟨unit, List.mem_filter.mpr ⟨member, usable⟩,
    List.mem_map_of_mem (List.mem_mergeSort.mpr ?_)⟩
  rw [unitErrors, List.mem_append]
  exact .inr (List.mem_flatMap.mpr ⟨id, List.mem_range.mpr known, raised⟩)

end Linking

/-- An identity of a usable unit is reported as circular exactly if its bases
lead back to it, with the way back, and a search with more steps would find no
more.  So in a valid set every identity comes before those that are derived from
it. -/
theorem identity_cycles_are_reported :
    (∀ units : List LinkUnit,
      let scene := Scene.ofUnits units .interFile
      ∀ unit ∈ units, ∀ id node, unit.tree.node? id = some node →
        let identity : NodeRef := ⟨unit.source, id⟩
        let search (bound : Nat) : Option (List NodeRef) :=
          Linking.baseCycle scene identity bound [identity]
            (Linking.baseOf scene identity)
        (∀ more, search (scene.nodeCount + 2 + more) =
          search (scene.nodeCount + 2)) ∧
        (Linking.cycleErrors scene unit id ≠ [] ↔
          Linking.IsCircular scene identity) ∧
        ∀ error ∈ Linking.cycleErrors scene unit id,
          (∃ chain, Linking.IsRoundTrip scene identity chain ∧
            error = Linking.circularityError scene node chain) ∧
          (unit.usable = true →
            error.toDiagnostic unit.source ∈ Linking.findings units)) ∧
    ∀ limits sources compilation, compile limits sources = .ok compilation →
      compilation.isValid = true →
        WellFounded (Relation.TransGen
          (Linking.IsBaseOf (.ofUnits compilation.units .interFile))) := by
  constructor
  · intro units scene unit member id node found identity search
    refine ⟨fun more => Option.ext fun chain => ?_,
      Linking.cycleErrors_ne_nil_iff found, fun error raised =>
        ⟨(Linking.mem_cycleErrors_iff found).mp raised, fun usable =>
          Linking.mem_findings_of_cycleErrors member usable
            (SchemaTree.lt_size_of_node? found) raised⟩⟩
    simp only [search]
    rw [Linking.baseCycle_eq_some_iff (by omega),
      Linking.baseCycle_eq_some_iff (by omega)]
  · intro limits sources compilation compiled valid
    have quiet := Compilation.findings_of_isValid compiled valid
    have usable : ∀ unit ∈ compilation.units, unit.usable = true :=
      fun unit member =>
        (Compilation.isLinked_of_isValid compiled valid unit member).usable
    exact (Linking.wellFounded_isBaseOf
      (Linking.not_isCircular_of_quiet quiet usable)).transGen

end YangSchema
