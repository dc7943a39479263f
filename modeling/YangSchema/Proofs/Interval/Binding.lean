import Mathlib.Data.List.Chain
import Mathlib.Data.List.Forall2
import Mathlib.Order.Basic
import YangSchema.Interval
import YangSchema.Proofs.Except

/-!
# Intervals whose symbolic bounds are bound

Reading an expression leaves its parts ascending and disjoint in an order in
which `min` and `max` stand outside of all numbers.  Binding them to the ends of
inherited intervals can break that order.  This file states when it does not:
every number must be an integer between the ends, and no part may repeat an end
that its neighbor stands for symbolically.
-/

namespace YangSchema

namespace Intervals

/-- The intervals between pairs of integers. -/
def ofPairs (pairs : List (Int × Int)) : Intervals :=
  pairs.map fun pair => ⟨.int pair.1, .int pair.2⟩

/-- At least one interval, each between two integers of a value space in their
order, and each below all that follow it. -/
def IsRegular (least greatest : Int) (intervals : Intervals) : Prop :=
  ∃ pairs, intervals = ofPairs pairs ∧ pairs ≠ [] ∧
    (∀ pair ∈ pairs,
      least ≤ pair.1 ∧ pair.1 ≤ pair.2 ∧ pair.2 ≤ greatest) ∧
    pairs.Pairwise fun earlier later => earlier.2 < later.1

/-- The order in which an expression is read: no part is inverted, and each is
below the next one. -/
def IsAscending (parts : Intervals) : Prop :=
  (∀ part ∈ parts, part.min.compare part.max ≠ .gt) ∧
    parts.IsChain fun first second => first.max.compare second.min = .lt

end Intervals

namespace Bound

/-- A symbolic bound, or an integer between two ends. -/
def IsInside (low high : Int) : Bound → Prop
  | .min | .max => True
  | .int value => low ≤ value ∧ value ≤ high
  | .decimal _ => False

/-- Neither of two bounds stands for an end that the other one repeats. -/
def AreApart (low high : Int) : Bound → Bound → Prop
  | .min, .int value => value ≠ low
  | .int value, .max => value ≠ high
  | .min, .max => low ≠ high
  | _, _ => True

/-- What a bound stands for between two ends. -/
def valueBetween (low high : Int) : Bound → Int
  | .min => low
  | .max => high
  | .int value => value
  | .decimal _ => low

end Bound

namespace Intervals

/-- Every number of an expression lies between the ends of what it restricts,
and no part repeats an end next to the symbol for it. -/
structure FitsBetween (low high : Int) (parts : Intervals) : Prop where
  inside : ∀ part ∈ parts,
    part.min.IsInside low high ∧ part.max.IsInside low high
  apart : parts.IsChain fun first second =>
    Bound.AreApart low high first.max second.min

variable {kind : IntervalKind} {read parts : List Interval} {expression : String}

/-- A part is read if it is not inverted and is above the one before it. -/
theorem parseParts_cons_iff {text : List Char} {texts : List (List Char)} :
    parseParts kind read (text :: texts) = .ok parts ↔
      ∃ part, Interval.parse kind (Text.trim text) = .ok part ∧
        part.min.compare part.max ≠ .gt ∧
        (∀ previous ∈ read.head?, previous.max.compare part.min = .lt) ∧
        parseParts kind (part :: read) texts = .ok parts := by
  simp only [parseParts, bind_eq_ok_iff]
  refine exists_congr fun part => and_congr_right fun _ => ?_
  by_cases ordered : part.min.compare part.max = .gt
  · simp [ordered]
  · cases read with
    | nil => simp [ordered]
    | cons previous read =>
        by_cases above : previous.max.compare part.min = .lt
        · simp [ordered, above]
        · simp [ordered, above]

/-- The parts behind those that have been read. -/
theorem parseParts_eq_ok_iff {texts : List (List Char)} :
    parseParts kind read texts = .ok parts ↔
      ∃ rest, parts = read.reverse ++ rest ∧
        List.Forall₂ (fun text part =>
          Interval.parse kind (Text.trim text) = .ok part) texts rest ∧
        (∀ part ∈ rest, part.min.compare part.max ≠ .gt) ∧
        (read.head?.toList ++ rest).IsChain fun first second =>
          first.max.compare second.min = .lt := by
  induction texts generalizing read with
  | nil =>
      constructor
      · intro same
        refine ⟨[], by simpa using (Except.ok.inj same).symm, .nil, by simp, ?_⟩
        cases read <;> simp
      · rintro ⟨_, rfl, ⟨⟩, -, -⟩
        simp [parseParts]
  | cons text texts ih =>
      simp only [parseParts_cons_iff, ih, List.forall₂_cons_left_iff]
      constructor
      · rintro ⟨part, found, ordered, above, rest, rfl, others, upward, chain⟩
        refine ⟨part :: rest, by simp, ⟨part, rest, found, others, rfl⟩,
          List.forall_mem_cons.mpr ⟨ordered, upward⟩, ?_⟩
        refine List.isChain_append.mpr ⟨by cases read <;> simp, chain, ?_⟩
        intro previous last next first
        obtain rfl : part = next := by simpa using first
        cases read with
        | nil => simp at last
        | cons => exact above previous (by simpa using last)
      · rintro ⟨_, rfl, ⟨part, rest, found, others, rfl⟩, upward, chain⟩
        obtain ⟨ordered, upward⟩ := List.forall_mem_cons.mp upward
        obtain ⟨-, chain, above⟩ := List.isChain_append.mp chain
        refine ⟨part, found, ordered, fun previous first => ?_, rest, by simp,
          others, upward, chain⟩
        cases read with
        | nil => simp at first
        | cons => exact above previous (by simpa using first) part (by simp)

/-- The parts of an expression are read one by one and must be in order as far as that
can be said before the symbols are bound. -/
theorem parse_eq_ok_iff :
    parse kind expression = .ok parts ↔
      List.Forall₂ (fun text part =>
          Interval.parse kind (Text.trim text) = .ok part)
        (Text.splitOn '|' expression.toList) parts ∧ IsAscending parts := by
  simp [parse, parseParts_eq_ok_iff, IsAscending]

theorem parse_isAscending (parsed : parse kind expression = .ok parts) :
    parts ≠ [] ∧ IsAscending parts := by
  obtain ⟨each, ascending⟩ := parse_eq_ok_iff.mp parsed
  refine ⟨?_, ascending⟩
  rintro rfl
  exact Text.splitOn_ne_nil _ _ (List.forall₂_nil_right_iff.mp each)

end Intervals

namespace Bound

variable {low high : Int} {first second : Bound}

theorem valueBetween_le (nonempty : low ≤ high)
    (firstInside : first.IsInside low high)
    (secondInside : second.IsInside low high)
    (ordered : first.compare second ≠ .gt) :
    first.valueBetween low high ≤ second.valueBetween low high := by
  cases first <;> cases second <;>
    simp_all [IsInside, valueBetween, compare, Int.compare_eq_gt]

theorem valueBetween_lt (nonempty : low ≤ high)
    (firstInside : first.IsInside low high)
    (secondInside : second.IsInside low high)
    (below : first.compare second = .lt)
    (apart : AreApart low high first second) :
    first.valueBetween low high < second.valueBetween low high := by
  cases first <;> cases second <;>
    simp_all [IsInside, valueBetween, compare, AreApart, Int.compare_eq_lt] <;>
    omega

theorem areApart_of_lt
    (below : first.valueBetween low high < second.valueBetween low high) :
    AreApart low high first second := by
  cases first <;> cases second <;>
    simp_all [valueBetween, AreApart] <;> omega

theorem IsInside.between (nonempty : low ≤ high)
    (inside : first.IsInside low high) :
    low ≤ first.valueBetween low high ∧ first.valueBetween low high ≤ high := by
  cases first <;> simp_all [IsInside, valueBetween]

end Bound

namespace Intervals

variable {least greatest low high : Int} {base parts : Intervals}

/-- The ends of intervals, both of them integers. -/
structure Spans (low high : Int) (base : Intervals) : Prop where
  lowest : base.lowest = some (.int low)
  highest : base.highest = some (.int high)

theorem Spans.ends_eq {low' high' : Int} (spans : Spans low high base)
    (others : Spans low' high' base) : low = low' ∧ high = high' := by
  have lowest := spans.lowest.symm.trans others.lowest
  have highest := spans.highest.symm.trans others.highest
  simp_all

theorem ofPairs_injective : Function.Injective ofPairs := by
  apply List.map_injective_iff.mpr
  rintro ⟨first, last⟩ ⟨otherFirst, otherLast⟩ same
  simpa using same

theorem pairwise_of_isChain {pairs : List (Int × Int)}
    (ordered : ∀ pair ∈ pairs, pair.1 ≤ pair.2)
    (chain : pairs.IsChain fun earlier later => earlier.2 < later.1) :
    pairs.Pairwise fun earlier later => earlier.2 < later.1 := by
  induction pairs with
  | nil => exact .nil
  | cons first rest ih =>
      have restOrdered := fun pair member =>
        ordered pair (List.mem_cons_of_mem first member)
      refine List.pairwise_cons.mpr ⟨?_, ih restOrdered chain.tail⟩
      cases rest with
      | nil => simp
      | cons second others =>
          have below : first.2 < second.1 := (List.isChain_cons_cons.mp chain).1
          have later := List.pairwise_cons.mp (ih restOrdered chain.tail)
          intro pair member
          obtain rfl | member := List.mem_cons.mp member
          · exact below
          · have := later.1 pair member
            have := restOrdered second (by simp)
            omega

theorem head_le {pairs : List (Int × Int)} (nonempty : pairs ≠ [])
    (ordered : ∀ pair ∈ pairs, pair.1 ≤ pair.2)
    (disjoint : pairs.Pairwise fun earlier later => earlier.2 < later.1) :
    ∀ pair ∈ pairs, (pairs.head nonempty).1 ≤ pair.1 := by
  obtain ⟨first, rest, rfl⟩ := List.exists_cons_of_ne_nil nonempty
  intro pair member
  obtain rfl | member := List.mem_cons.mp member
  · simp
  · have := (List.pairwise_cons.mp disjoint).1 pair member
    have := ordered first (by simp)
    simp only [List.head_cons]
    omega

theorem le_getLast {pairs : List (Int × Int)} (nonempty : pairs ≠ [])
    (ordered : ∀ pair ∈ pairs, pair.1 ≤ pair.2)
    (disjoint : pairs.Pairwise fun earlier later => earlier.2 < later.1) :
    ∀ pair ∈ pairs, pair.2 ≤ (pairs.getLast nonempty).2 := by
  intro pair member
  rw [← List.dropLast_append_getLast nonempty] at member disjoint
  obtain member | member := List.mem_append.mp member
  · have := (List.pairwise_append.mp disjoint).2.2 pair member
      (pairs.getLast nonempty) (by simp)
    have := ordered _ (List.getLast_mem nonempty)
    omega
  · obtain rfl : pair = pairs.getLast nonempty := by simpa using member
    simp

/-- Regular intervals have two ends, and none of them reaches beyond these. -/
theorem IsRegular.exists_spans (regular : IsRegular least greatest base) :
    ∃ low high, Spans low high base ∧
      least ≤ low ∧ low ≤ high ∧ high ≤ greatest ∧
      ∀ outer ∈ base, ∃ first last : Int,
        outer = ⟨.int first, .int last⟩ ∧ low ≤ first ∧ last ≤ high := by
  obtain ⟨pairs, rfl, nonempty, bounded, disjoint⟩ := regular
  have headBounded := bounded _ (List.head_mem nonempty)
  have lastBounded := bounded _ (List.getLast_mem nonempty)
  have ordered := fun pair member => (bounded pair member).2.1
  have headFirst := head_le nonempty ordered disjoint
  have lastLast := le_getLast nonempty ordered disjoint
  refine ⟨(pairs.head nonempty).1, (pairs.getLast nonempty).2, ⟨?_, ?_⟩,
    headBounded.1, ?_, lastBounded.2.2, ?_⟩
  · simp [lowest, ofPairs, List.head?_eq_some_head nonempty]
  · simp [highest, ofPairs, List.getLast?_eq_some_getLast nonempty]
  · have := headFirst _ (List.getLast_mem nonempty)
    omega
  · intro outer member
    obtain ⟨pair, pairMember, rfl⟩ := List.mem_map.mp member
    exact ⟨pair.1, pair.2, rfl, headFirst pair pairMember,
      lastLast pair pairMember⟩

theorem resolveBound_eq (spans : Spans low high base) {bound : Bound}
    (inside : bound.IsInside low high) :
    resolveBound base bound = .int (bound.valueBetween low high) := by
  cases bound <;>
    simp_all [resolveBound, Bound.valueBetween, Bound.IsInside, spans.lowest,
      spans.highest]

theorem resolve_eq_ofPairs (spans : Spans low high base)
    (inside : ∀ part ∈ parts,
      part.min.IsInside low high ∧ part.max.IsInside low high) :
    parts.resolve base = ofPairs (parts.map fun part =>
      (part.min.valueBetween low high, part.max.valueBetween low high)) := by
  simp only [resolve, ofPairs, List.map_map]
  apply List.map_congr_left
  intro part member
  simp [resolveBound_eq spans (inside part member).1,
    resolveBound_eq spans (inside part member).2]

theorem isInside_of_resolveBound {bound : Bound} {value : Int}
    (resolved : resolveBound base bound = .int value)
    (between : low ≤ value ∧ value ≤ high) : bound.IsInside low high := by
  cases bound <;> simp_all [resolveBound, Bound.IsInside]

/-- What is regular once its symbols are bound, and within its base, has no
number that is not an integer between the ends of the base. -/
theorem inside_of_isRegular
    (covered : ∀ outer ∈ base, ∃ first last : Int,
      outer = ⟨.int first, .int last⟩ ∧ low ≤ first ∧ last ≤ high)
    (within : parts.isWithin base = true)
    (regular : IsRegular least greatest (parts.resolve base)) :
    ∀ part ∈ parts,
      part.min.IsInside low high ∧ part.max.IsInside low high := by
  intro part member
  obtain ⟨pairs, resolved, _, bounded, _⟩ := regular
  let bind : Interval → Interval := fun interval =>
    ⟨resolveBound base interval.min, resolveBound base interval.max⟩
  have bound : bind part ∈ parts.resolve base :=
    List.mem_map_of_mem (f := bind) member
  obtain ⟨outer, outerMember, contains⟩ :=
    List.any_eq_true.mp (List.all_eq_true.mp within _ bound)
  rw [resolved] at bound
  obtain ⟨⟨first, last⟩, pairMember, same⟩ := List.mem_map.mp bound
  obtain ⟨firstBound, lastBound⟩ :
      resolveBound base part.min = .int first ∧
        resolveBound base part.max = .int last := by
    simpa [bind, eq_comm] using same
  obtain ⟨outerFirst, outerLast, rfl, above, below⟩ :=
    covered outer outerMember
  have : first ≤ last := (bounded _ pairMember).2.1
  have : outerFirst ≤ first ∧ last ≤ outerLast := by
    simpa [bind, Interval.contains, Bound.compare, firstBound, lastBound,
      Int.compare_eq_gt, Int.compare_eq_lt] using contains
  exact ⟨isInside_of_resolveBound firstBound (by omega),
    isInside_of_resolveBound lastBound (by omega)⟩

/-- Binding the symbols of an expression to a regular base keeps it regular
exactly when the expression fits between the ends of that base. -/
theorem resolve_isRegular_iff {kind : IntervalKind} {expression : String}
    (parsed : parse kind expression = .ok parts)
    (baseRegular : IsRegular least greatest base) (spans : Spans low high base)
    (within : parts.isWithin base = true) :
    IsRegular least greatest (parts.resolve base) ↔
      FitsBetween low high parts := by
  obtain ⟨someParts, ordered, chain⟩ := parse_isAscending parsed
  obtain ⟨low', high', spans', lowInside, nonempty, highInside, covered⟩ :=
    baseRegular.exists_spans
  obtain ⟨rfl, rfl⟩ := spans'.ends_eq spans
  constructor
  · intro regular
    have inside := inside_of_isRegular covered within regular
    obtain ⟨pairs, resolved, _, _, disjoint⟩ := regular
    rw [resolve_eq_ofPairs spans inside] at resolved
    rw [← ofPairs_injective resolved] at disjoint
    refine ⟨inside, List.isChain_of_isChain_map _ ?_ disjoint.isChain⟩
    exact fun first second below => Bound.areApart_of_lt below
  · rintro ⟨inside, apart⟩
    have upward : ∀ part ∈ parts, part.min.valueBetween low' high' ≤
        part.max.valueBetween low' high' := fun part member =>
      Bound.valueBetween_le nonempty (inside part member).1
        (inside part member).2 (ordered part member)
    refine ⟨_, resolve_eq_ofPairs spans inside, by simpa using someParts,
      ?_, pairwise_of_isChain (by simpa using upward) ?_⟩
    · simp only [List.forall_mem_map]
      intro part member
      have := (inside part member).1.between nonempty
      have := (inside part member).2.between nonempty
      have := upward part member
      omega
    · rw [List.isChain_map]
      rw [List.isChain_iff_forall_rel_of_append_cons_cons] at chain apart ⊢
      intro first second before after split
      exact Bound.valueBetween_lt nonempty (inside first (by simp [split])).2
        (inside second (by simp [split])).1 (chain split) (apart split)

end Intervals

end YangSchema
