import YangSchema.Proofs.Interval.Narrowing

/-!
# The values that restrictions leave

A restriction whose symbols are bound stands for a set of integers, and if it lies
within what it inherits, it adds none.  So what a chain of restrictions leaves in
the end are the values that every one of them admits.  Where some restriction
reaches beyond what it inherits, or the built-in type takes none of its kind, the
chain as a whole is refused.
-/

namespace YangSchema

/-- No bound of some intervals is a decimal. -/
def Intervals.AreWhole (intervals : Intervals) : Prop :=
  ∀ part ∈ intervals, ∀ bound ∈ [part.min, part.max],
    ∀ decimal, bound ≠ .decimal decimal

/-- A value lies between the ends of some interval. -/
def Intervals.Admits (intervals : Intervals) (value : Int) : Prop :=
  ∃ low high : Int, ⟨.int low, .int high⟩ ∈ intervals ∧
    low ≤ value ∧ value ≤ high

namespace BuiltinType

/-- A type takes restrictions of a kind. -/
def supports (builtin : BuiltinType) : IntervalKind → Bool
  | .range => builtin.supportsRange
  | .length => builtin.supportsLength

/-- The intervals that restrictions of a built-in type start from. -/
def natural? (builtin : BuiltinType) (fractionDigits : Option Nat) :
    IntervalKind → Option Intervals
  | .range => builtin.naturalRange? fractionDigits
  | .length => builtin.naturalLength?

theorem natural?_eq_none {builtin : BuiltinType} {kind : IntervalKind}
    (untaken : builtin.supports kind = false) (fractionDigits : Option Nat) :
    builtin.natural? fractionDigits kind = none := by
  cases kind <;> cases builtin <;>
    simp_all [supports, supportsRange, supportsLength, natural?, naturalRange?,
      naturalLength?, integerLimits?, isInteger]

end BuiltinType

/-- A target that was found cannot be used. -/
def Miss.IsFailure (miss : Miss) : Prop :=
  ∃ failure, miss = .failed failure

namespace Intervals

variable {inherited : Intervals} {restrictions : List Intervals}
  {pairs : List (Int × Int)} {value : Int}

theorem admits_ofPairs_iff : (ofPairs pairs).Admits value ↔
    ∃ pair ∈ pairs, pair.1 ≤ value ∧ value ≤ pair.2 := by
  constructor
  · rintro ⟨low, high, listed, between⟩
    obtain ⟨pair, among, same⟩ := List.mem_map.mp listed
    simp only [Interval.mk.injEq, Bound.int.injEq] at same
    exact ⟨pair, among, same.1 ▸ same.2 ▸ between⟩
  · rintro ⟨pair, among, between⟩
    exact ⟨pair.1, pair.2, List.mem_map_of_mem among, between⟩

/-- Among intervals that have ends a bound that is no decimal stands for an
integer. -/
theorem exists_resolveBound {bound : Bound} (nonempty : pairs ≠ [])
    (whole : ∀ decimal, bound ≠ .decimal decimal) :
    ∃ value, resolveBound (ofPairs pairs) bound = .int value := by
  cases bound with
  | min =>
      exact ⟨(pairs.head nonempty).1, by
        simp [resolveBound, lowest, ofPairs,
          List.head?_eq_some_head nonempty]⟩
  | max =>
      exact ⟨(pairs.getLast nonempty).2, by
        simp [resolveBound, highest, ofPairs,
          List.getLast?_eq_some_getLast nonempty]⟩
  | int value => exact ⟨value, rfl⟩
  | decimal value => exact absurd rfl (whole value)

/-- A restriction within what it inherits is bound to intervals between integers,
each of them inside an inherited one. -/
theorem resolve_within {restriction : Intervals} (whole : restriction.AreWhole)
    (within : restriction.isWithin (ofPairs pairs) = true) :
    ∃ inner, restriction.resolve (ofPairs pairs) = ofPairs inner ∧
      ∀ pair ∈ inner, ∃ outer ∈ pairs,
        outer.1 ≤ pair.1 ∧ pair.2 ≤ outer.2 := by
  have each : ∀ part ∈ restriction.resolve (ofPairs pairs),
      ∃ low high : Int, part = ⟨.int low, .int high⟩ ∧
        ∃ outer ∈ pairs, outer.1 ≤ low ∧ high ≤ outer.2 := by
    intro part bound
    obtain ⟨outer, listed, contains⟩ :=
      List.any_eq_true.mp (List.all_eq_true.mp within part bound)
    obtain ⟨pair, among, rfl⟩ := List.mem_map.mp listed
    obtain ⟨written, member, rfl⟩ := List.mem_map.mp bound
    have nonempty : pairs ≠ [] := List.ne_nil_of_mem among
    obtain ⟨low, isLow⟩ := exists_resolveBound nonempty
      (whole written member written.min (by simp))
    obtain ⟨high, isHigh⟩ := exists_resolveBound nonempty
      (whole written member written.max (by simp))
    refine ⟨low, high, by simp [isLow, isHigh], pair, among, ?_⟩
    simpa [Interval.contains, Bound.compare, isLow, isHigh,
      Int.compare_eq_gt, Int.compare_eq_lt] using contains
  generalize restriction.resolve (ofPairs pairs) = parts at each
  induction parts with
  | nil => exact ⟨[], rfl, by simp⟩
  | cons part rest ih =>
      obtain ⟨⟨low, high, rfl, inside⟩, others⟩ := List.forall_mem_cons.mp each
      obtain ⟨inner, rfl, innerInside⟩ := ih others
      exact ⟨(low, high) :: inner, rfl,
        List.forall_mem_cons.mpr ⟨inside, innerInside⟩⟩

/-- A restriction within what it inherits adds no value to that. -/
theorem admits_of_resolve {restriction : Intervals}
    (whole : restriction.AreWhole)
    (within : restriction.isWithin (ofPairs pairs) = true)
    (admitted : (restriction.resolve (ofPairs pairs)).Admits value) :
    (ofPairs pairs).Admits value := by
  obtain ⟨inner, bound, inside⟩ := resolve_within whole within
  rw [bound, admits_ofPairs_iff] at admitted
  obtain ⟨pair, among, above, below⟩ := admitted
  obtain ⟨outer, listed, lower, upper⟩ := inside pair among
  exact admits_ofPairs_iff.mpr ⟨outer, listed, by omega, by omega⟩

section

variable (whole : ∀ restriction ∈ restrictions, restriction.AreWhole)
  (within : ∀ binding ∈ bindings (ofPairs pairs) restrictions, binding.IsWithin)
include whole within

/-- No restriction of a chain, each within what it inherits, adds a value. -/
theorem bindings_add_nothing :
    ∀ binding ∈ bindings (ofPairs pairs) restrictions,
      binding.result.Admits value → binding.inherited.Admits value := by
  induction restrictions generalizing pairs with
  | nil => simp [bindings]
  | cons restriction outer ih =>
      simp only [bindings, List.forall_mem_cons] at whole within ⊢
      refine ⟨admits_of_resolve whole.1 within.1, ?_⟩
      obtain ⟨inner, bound, -⟩ := resolve_within whole.1 within.1
      rw [bound] at within ⊢
      exact ih whole.2 within.2

/-- What restrictions leave, one within the other, are the values that all of them
admit. -/
theorem bindings_admit_iff :
    (((bindings (ofPairs pairs) restrictions).getLast?.map (·.result)).getD
        (ofPairs pairs)).Admits value ↔
      (ofPairs pairs).Admits value ∧
        ∀ binding ∈ bindings (ofPairs pairs) restrictions,
          binding.result.Admits value := by
  induction restrictions generalizing pairs with
  | nil => simp [bindings]
  | cons restriction outer ih =>
      simp only [bindings, List.forall_mem_cons] at whole within ⊢
      have narrows := @admits_of_resolve pairs value restriction whole.1 within.1
      obtain ⟨inner, bound, -⟩ := resolve_within whole.1 within.1
      have result : Binding.result ⟨restriction, ofPairs pairs⟩ =
          ofPairs inner := bound
      rw [bound] at within narrows ⊢
      have rest := ih whole.2 within.2
      rw [List.getLast?_cons, Option.map_some, Option.getD_some,
        ← Option.getD_map Binding.result, result, rest]
      constructor
      · rintro ⟨first, others⟩
        exact ⟨narrows first, first, others⟩
      · exact fun admitted => admitted.2

end

end Intervals

namespace ValueSpace

variable {builtin : BuiltinType} {layer : TypeUse} {layers : List TypeUse}
  {space final : ValueSpace} {kind : IntervalKind}

theorem ofBuiltin_natural (fractionDigits : Option Nat) :
    (ofBuiltin builtin fractionDigits).intervals? kind =
      builtin.natural? fractionDigits kind := by
  cases kind <;> rfl

theorem restrictRange_keeps
    (restricted : restrictRange builtin layer space = .ok final) :
    final.length = space.length ∧ final.patterns = space.patterns ∧
      (layer.range = none → final.range = space.range) := by
  have restricted := restrictRange_eq_ok restricted
  split at restricted
  · simp [restricted]
  · obtain ⟨_, _, _, rfl⟩ := restricted
    simp_all

theorem restrictLength_keeps
    (restricted : restrictLength builtin layer space = .ok final) :
    final.range = space.range ∧ final.patterns = space.patterns ∧
      (layer.length = none → final.length = space.length) := by
  have restricted := restrictLength_eq_ok restricted
  split at restricted
  · simp [restricted]
  · obtain ⟨_, _, _, rfl⟩ := restricted
    simp_all

/-- Layers are merged without a restriction that the space does not take. -/
theorem restrict_inapplicable
    (restricted : restrict builtin space layer = .ok final)
    (untaken : space.intervals? kind = none) :
    layer.restriction? kind = none ∧ final.intervals? kind = none := by
  simp only [restrict, bind_eq_ok_iff] at restricted
  obtain ⟨ranged, range, measured, length, restricted⟩ := restricted
  rw [(restrictPatterns_intervals kind restricted).1]
  have keptLength := restrictRange_keeps range
  have keptRange := restrictLength_keeps length
  have range := restrictRange_eq_ok range
  have length := restrictLength_eq_ok length
  cases kind with
  | range =>
      simp only [TypeUse.restriction?, intervals?] at untaken ⊢
      cases declared : layer.range with
      | none => exact ⟨rfl, by rw [keptRange.1, keptLength.2.2 declared, untaken]⟩
      | some restriction => simp [declared, untaken] at range
  | length =>
      simp only [TypeUse.restriction?, intervals?] at untaken ⊢
      cases declared : layer.length with
      | none => exact ⟨rfl, by rw [keptRange.2.2 declared, keptLength.1, untaken]⟩
      | some restriction => simp [declared, keptLength.1, untaken] at length

theorem foldlM_restrict_inapplicable
    (restricted : layers.foldlM (restrict builtin) space = .ok final)
    (untaken : space.intervals? kind = none) :
    final.intervals? kind = none ∧
      ∀ layer ∈ layers, layer.restriction? kind = none := by
  induction layers generalizing space with
  | nil =>
      obtain rfl : space = final := by simpa using restricted
      simp [untaken]
  | cons layer outer ih =>
      rw [List.foldlM_cons, bind_eq_ok_iff] at restricted
      obtain ⟨next, first, rest⟩ := restricted
      have step := restrict_inapplicable first untaken
      have others := ih rest step.2
      exact ⟨others.1, List.forall_mem_cons.mpr ⟨step.1, others.2⟩⟩

theorem restrict_patterns
    (restricted : restrict builtin space layer = .ok final) :
    final.patterns = space.patterns ++ layer.patterns.map (·.regex) ∧
      (layer.patterns = [] ∨ builtin.supportsPattern = true) := by
  simp only [restrict, bind_eq_ok_iff] at restricted
  obtain ⟨ranged, range, measured, length, restricted⟩ := restricted
  have kept : measured.patterns = space.patterns := by
    rw [(restrictLength_keeps length).2.1, (restrictRange_keeps range).2.1]
  unfold restrictPatterns at restricted
  split at restricted
  next absent =>
    obtain rfl : measured = final := by simpa using restricted
    rw [List.isEmpty_iff] at absent
    simp [kept, absent]
  · split at restricted
    next supported =>
      obtain rfl := by simpa using restricted
      exact ⟨by simp [kept], .inr supported⟩
    · simp at restricted

theorem foldlM_restrict_patterns
    (restricted : layers.foldlM (restrict builtin) space = .ok final) :
    final.patterns = space.patterns ++
        layers.flatMap (·.patterns.map (·.regex)) ∧
      ∀ layer ∈ layers, layer.patterns = [] ∨
        builtin.supportsPattern = true := by
  induction layers generalizing space with
  | nil =>
      obtain rfl : space = final := by simpa using restricted
      simp
  | cons layer outer ih =>
      rw [List.foldlM_cons, bind_eq_ok_iff] at restricted
      obtain ⟨next, first, rest⟩ := restricted
      have step := restrict_patterns first
      obtain ⟨patterns, supported⟩ := ih rest
      refine ⟨?_, List.forall_mem_cons.mpr ⟨step.2, supported⟩⟩
      rw [patterns, step.1, List.append_assoc, List.flatMap_cons]

theorem narrow_raises (keyword : String) (restriction : Intervals)
    (inherited? : Option Intervals) :
    Raises Miss.IsFailure
      (narrow keyword builtin restriction inherited?) := by
  unfold narrow
  split
  · simp [Miss.IsFailure]
  · split <;> simp [Miss.IsFailure]

/-- The layers of a chain are refused for what they restrict and for nothing
else. -/
theorem foldlM_restrict_raises :
    Raises Miss.IsFailure
      (layers.foldlM (restrict builtin) space) := by
  induction layers generalizing space with
  | nil => simp
  | cons layer outer ih =>
      rw [List.foldlM_cons, raises_bind_iff]
      refine ⟨?_, fun next _ => ih⟩
      simp only [restrict, raises_bind_iff]
      refine ⟨?_, fun ranged _ => ⟨?_, fun measured _ => ?_⟩⟩
      · unfold restrictRange
        split <;> simp [narrow_raises]
      · unfold restrictLength
        split <;> simp [narrow_raises]
      · unfold restrictPatterns
        split
        · simp
        · split <;> simp [Miss.IsFailure]

end ValueSpace

end YangSchema
