import Mathlib
import YangSchema.Proofs.Interval.Binding
import YangSchema.Proofs.Text.Pieces

/-!
# Expressions as they are written

An expression is written as parts with bars between them.  A part is a bound, or two
bounds around two points, and a bound is `min`, `max` or an integer in decimal digits;
blanks may stand around each bound.  Reading accepts exactly what is written in this way
and in ascending order, decimals apart, and it reads again what it has printed.
-/

namespace YangSchema

/-! ## Integers in decimal digits -/

theorem Text.isBlank_of_isDigit {c : Char} (digit : c.isDigit = true) :
    isBlank c = false := by
  obtain ⟨least, most⟩ := Char.isDigit_iff_toNat.mp digit
  simp only [Char.reduceToNat] at least most
  simp only [isBlank, Bool.or_eq_false_iff, Bool.and_eq_false_iff,
    decide_eq_false_iff_not, beq_eq_false_iff_ne, ne_eq]
  omega

namespace Literal

variable {text : List Char}

theorem digitChar_toNat {c : Char} (digit : c.isDigit = true) :
    c.toNat - '0'.toNat < 10 ∧ Nat.digitChar (c.toNat - '0'.toNat) = c := by
  obtain ⟨least, most⟩ := Char.isDigit_iff_toNat.mp digit
  simp only [Char.reduceToNat] at least most ⊢
  have small : c.toNat - 48 < 10 := by omega
  refine ⟨small, Char.toNat_inj.mp ?_⟩
  rw [Nat.toNat_digitChar_of_lt_ten small]
  omega

/-- Only zero starts with a zero. -/
theorem head?_toDigits {value : Nat} (positive : 0 < value) :
    (Nat.toDigits 10 value).head? ≠ some '0' := by
  induction value using Nat.strongRecOn with
  | _ value ih =>
      by_cases small : value < 10
      · rw [Nat.toDigits_of_lt_base small]
        simpa using positive.ne'
      · have shorter := ih (value / 10) (by omega) (by omega)
        rw [Nat.toDigits_of_base_le (by decide) (by omega),
          List.head?_append_of_ne_nil _ Nat.toDigits_ne_nil]
        exact shorter

theorem isUnsigned_toDigits (value : Nat) :
    isUnsigned (Nat.toDigits 10 value) = true := by
  have digits : ∀ c ∈ Nat.toDigits 10 value, c.isDigit = true := fun c =>
    Nat.isDigit_of_mem_toDigits (by decide) (by decide)
  obtain rfl | positive := Nat.eq_zero_or_pos value
  · decide
  · have head := head?_toDigits positive
    cases written : Nat.toDigits 10 value with
    | nil => exact absurd written Nat.toDigits_ne_nil
    | cons first rest =>
        rw [written] at digits head
        have all := List.all_eq_true.mpr digits
        simp only [List.head?_cons, ne_eq, Option.some.injEq] at head
        simp [isUnsigned, all, head]

theorem digitsValue_toDigits (value : Nat) :
    digitsValue (Nat.toDigits 10 value) = value :=
  Nat.ofDigitChars_toDigits (by decide) (by decide)

/-- Digits without a leading zero are those of their value. -/
theorem toDigits_digitsValue (unsigned : isUnsigned text = true) :
    Nat.toDigits 10 (digitsValue text) = text := by
  induction text using List.reverseRecOn with
  | nil => simp [isUnsigned] at unsigned
  | append_singleton front c ih =>
      have digits : ∀ d ∈ front ++ [c], d.isDigit = true := by
        cases front with
        | nil => simpa [isUnsigned] using unsigned
        | cons first rest =>
            simp only [List.cons_append, isUnsigned, Bool.and_eq_true,
              List.all_eq_true] at unsigned
            exact unsigned.1
      obtain ⟨small, same⟩ := digitChar_toNat (digits c (by simp))
      have value : digitsValue (front ++ [c]) =
          10 * digitsValue front + (c.toNat - '0'.toNat) := by
        simp [digitsValue]
      cases front with
      | nil =>
          have single : digitsValue [] = 0 := rfl
          rw [List.nil_append, ← List.nil_append [c], value, single,
            Nat.mul_zero, Nat.zero_add, Nat.toDigits_of_lt_base small, same,
            List.nil_append]
      | cons first rest =>
          have unsigned' : isUnsigned (first :: rest) = true := by
            simp_all [isUnsigned]
          have written := ih unsigned'
          have positive : 0 < digitsValue (first :: rest) := by
            refine Nat.pos_of_ne_zero fun zero => ?_
            rw [zero, Nat.toDigits_zero] at written
            obtain ⟨rfl, rfl⟩ := List.cons.inj written
            simp [isUnsigned] at unsigned
          rw [value, ← Nat.toDigits_append_toDigits (by decide) positive small,
            written, Nat.toDigits_of_lt_base small, same]

theorem nonNegative?_eq_some_iff {value : Nat} :
    nonNegative? text = some value ↔
      text = Nat.toDigits 10 value ∧ value < 2 ^ 64 := by
  constructor
  · intro read
    unfold nonNegative? at read
    split at read
    next unsigned =>
      dsimp only at read
      split at read
      next small =>
        obtain rfl := Option.some.inj read
        exact ⟨(toDigits_digitsValue unsigned).symm, small⟩
      · simp at read
    · simp at read
  · rintro ⟨rfl, small⟩
    have small' : value < Nat.pow 2 64 := small
    simp only [nonNegative?, isUnsigned_toDigits, digitsValue_toDigits, small',
      if_true]

theorem toList_toString_natCast (value : Nat) :
    (toString (value : Int)).toList = Nat.toDigits 10 value := by
  simp [Int.repr_eq_if]

theorem toList_toString_neg {value : Nat} (positive : 0 < value) :
    (toString (-(value : Int))).toList = '-' :: Nat.toDigits 10 value := by
  simp [Int.repr_eq_if, positive.ne']

theorem integer?_eq_some_iff {value : Int} :
    integer? text = some value ↔
      text = (toString value).toList ∧ -2 ^ 127 ≤ value ∧ value < 2 ^ 127 := by
  constructor
  · intro read
    unfold integer? at read
    split at read
    next digits =>
      split at read
      next unsigned =>
        simp only [Bool.and_eq_true, bne_iff_ne, ne_eq] at unsigned
        dsimp only at read
        split at read
        next small =>
          obtain rfl := Option.some.inj read
          have written := toDigits_digitsValue unsigned.1
          have positive : 0 < digitsValue digits := by
            refine Nat.pos_of_ne_zero fun zero => unsigned.2 ?_
            rw [← written, zero, Nat.toDigits_zero]
          rw [Nat.pow_eq] at small
          rw [toList_toString_neg positive, written]
          exact ⟨rfl, by omega, by omega⟩
        · simp at read
      · simp at read
    · split at read
      next unsigned =>
        dsimp only at read
        split at read
        next small =>
          obtain rfl := Option.some.inj read
          rw [Nat.pow_eq] at small
          rw [toList_toString_natCast, toDigits_digitsValue unsigned]
          exact ⟨rfl, by omega, by omega⟩
        · simp at read
      · simp at read
  · rintro ⟨rfl, least, most⟩
    obtain ⟨size, rfl | rfl⟩ := value.eq_nat_or_neg
    · rw [toList_toString_natCast]
      have unsigned := isUnsigned_toDigits size
      have value := digitsValue_toDigits size
      unfold integer?
      split
      next digits same =>
        rw [same] at unsigned
        simp [isUnsigned] at unsigned
      · have small : size < Nat.pow 2 127 := by
          rw [Nat.pow_eq]
          omega
        simp [unsigned, value, small]
    · obtain rfl | positive := Nat.eq_zero_or_pos size
      · rfl
      · rw [toList_toString_neg positive]
        have small : size ≤ Nat.pow 2 127 := by
          rw [Nat.pow_eq]
          omega
        have other : Nat.toDigits 10 size ≠ ['0'] := fun zero => by
          have value := digitsValue_toDigits size
          rw [zero] at value
          exact positive.ne value
        simp [integer?, isUnsigned_toDigits, digitsValue_toDigits, other, small]

end Literal

/-! ## Bounds -/

/-- The integers that a kind of expressions admits. -/
def IntervalKind.Admits : IntervalKind → Int → Prop
  | .range, value => -2 ^ 127 ≤ value ∧ value < 2 ^ 127
  | .length, value => 0 ≤ value ∧ value < 2 ^ 64

namespace Bound

variable {kind : IntervalKind} {bound low high : Bound} {text : List Char}

/-- No decimal number. -/
def IsWhole : Bound → Prop
  | .decimal _ => False
  | _ => True

/-- How a bound is written:  an integer in decimal digits, without leading zeros and
with a minus sign if it is negative. -/
inductive IsWritten (kind : IntervalKind) : Bound → List Char → Prop
  | min : IsWritten kind .min "min".toList
  | max : IsWritten kind .max "max".toList
  | int {value : Int} (admitted : kind.Admits value) :
      IsWritten kind (.int value) (toString value).toList

theorem parse_int {value : Int} (admitted : kind.Admits value) :
    parse kind (toString value).toList = .ok (.int value) := by
  have range : -2 ^ 127 ≤ value ∧ value < 2 ^ 127 := by
    cases kind with
    | range => exact admitted
    | length => exact ⟨by have := admitted.1; omega, by have := admitted.2; omega⟩
  have read := Literal.integer?_eq_some_iff.mpr ⟨rfl, range⟩
  -- No integer is written like a symbol, and none with nothing.
  have other (symbol : List Char) (none : Literal.integer? symbol = none) :
      (toString value).toList ≠ symbol := by
    rintro rfl
    exact Option.some_ne_none _ (read.symm.trans none)
  have some : (toString value).toList.isEmpty = false := by
    simpa using other [] (by decide)
  simp only [parse, other _ (by decide : Literal.integer? "min".toList = none),
    other _ (by decide : Literal.integer? "max".toList = none), some, if_false,
    Bool.false_eq_true]
  cases kind with
  | range => simp only [read]
  | length =>
      obtain ⟨size, rfl⟩ := Int.eq_ofNat_of_zero_le admitted.1
      have small : size < 2 ^ 64 := by
        have := admitted.2
        omega
      rw [Literal.toList_toString_natCast,
        Literal.nonNegative?_eq_some_iff.mpr ⟨rfl, small⟩]

/-- Bounds are read as they are written, and decimals apart there are no others. -/
theorem parse_eq_ok_iff :
    parse kind text = .ok bound ∧ bound.IsWhole ↔ bound.IsWritten kind text := by
  constructor
  · rintro ⟨read, whole⟩
    unfold parse at read
    split at read
    next same =>
      obtain rfl := Except.ok.inj read
      exact same ▸ .min
    split at read
    next same =>
      obtain rfl := Except.ok.inj read
      exact same ▸ .max
    split at read
    · simp at read
    cases kind with
    | length =>
        dsimp only at read
        split at read
        next value found =>
          obtain rfl := Except.ok.inj read
          obtain ⟨rfl, small⟩ := Literal.nonNegative?_eq_some_iff.mp found
          rw [← Literal.toList_toString_natCast]
          exact .int ⟨by omega, by omega⟩
        · simp at read
    | range =>
        dsimp only at read
        split at read
        next value found =>
          obtain rfl := Except.ok.inj read
          obtain ⟨rfl, admitted⟩ := Literal.integer?_eq_some_iff.mp found
          exact .int admitted
        · split at read
          · obtain rfl := Except.ok.inj read
            exact whole.elim
          · simp at read
  · intro written
    cases written with
    | min => exact ⟨rfl, trivial⟩
    | max => exact ⟨rfl, trivial⟩
    | int admitted => exact ⟨parse_int admitted, trivial⟩

theorem IsWritten.printed (written : bound.IsWritten kind text) :
    bound.IsWritten kind bound.text.toList := by
  cases written with
  | min => exact .min
  | max => exact .max
  | int admitted => exact .int admitted

/-- Nothing in a bound separates it from others. -/
theorem IsWritten.solid (written : bound.IsWritten kind text) :
    ∀ c ∈ text, Text.isBlank c = false ∧ c ≠ '.' ∧ c ≠ '|' := by
  have digit {c : Char} (digit : c.isDigit = true) :
      Text.isBlank c = false ∧ c ≠ '.' ∧ c ≠ '|' := by
    refine ⟨Text.isBlank_of_isDigit digit, ?_, ?_⟩ <;> rintro rfl <;>
      simp at digit
  have digits (size : Nat) : ∀ c ∈ Nat.toDigits 10 size,
      Text.isBlank c = false ∧ c ≠ '.' ∧ c ≠ '|' := fun c member =>
    digit (Nat.isDigit_of_mem_toDigits (by decide) (by decide) member)
  have literal {text : List Char}
      (all : text.all (fun c => !Text.isBlank c && c != '.' && c != '|') = true) :
      ∀ c ∈ text, Text.isBlank c = false ∧ c ≠ '.' ∧ c ≠ '|' := by
    simpa [List.all_eq_true, and_assoc] using all
  cases written with
  | min => exact literal (by decide)
  | max => exact literal (by decide)
  | @int value admitted =>
      obtain ⟨size, rfl | rfl⟩ := value.eq_nat_or_neg
      · rw [Literal.toList_toString_natCast]
        exact digits size
      · obtain rfl | positive := Nat.eq_zero_or_pos size
        · exact literal (by decide)
        · rw [Literal.toList_toString_neg positive]
          exact List.forall_mem_cons.mpr ⟨by decide, digits size⟩

theorem IsWritten.ne_nil (written : bound.IsWritten kind text) : text ≠ [] := by
  rintro rfl
  have read := (parse_eq_ok_iff.mpr written).1
  simp [parse] at read

theorem IsWritten.isTrim (written : bound.IsWritten kind text) :
    Text.IsTrim text where
  head c first := (written.solid c (List.mem_of_mem_head? first)).1
  last c last := (written.solid c (List.mem_of_mem_getLast? last)).1

end Bound

/-! ## Parts -/

namespace Interval

variable {kind : IntervalKind} {interval : Interval} {part before after : List Char}

/-- No decimal number at either end. -/
def IsWhole (interval : Interval) : Prop :=
  interval.min.IsWhole ∧ interval.max.IsWhole

/-- How one part is written:  a bound, or two bounds around two points, each with blanks
around it. -/
inductive IsWritten (kind : IntervalKind) : Interval → List Char → Prop
  | single {bound : Bound} {text part : List Char}
      (written : bound.IsWritten kind text) (pads : Text.Pads text part) :
      IsWritten kind ⟨bound, bound⟩ part
  | span {low high : Bound} {text text' first second : List Char}
      (written : low.IsWritten kind text) (pads : Text.Pads text first)
      (written' : high.IsWritten kind text') (pads' : Text.Pads text' second) :
      IsWritten kind ⟨low, high⟩ (first ++ '.' :: '.' :: second)

theorem IsWritten.add_before (blank : Text.AreBlank before)
    (written : interval.IsWritten kind part) :
    interval.IsWritten kind (before ++ part) := by
  cases written with
  | single written pads => exact .single written (pads.add_before blank)
  | span written pads written' pads' =>
      rw [← List.append_assoc]
      exact .span written (pads.add_before blank) written' pads'

theorem IsWritten.add_after (blank : Text.AreBlank after)
    (written : interval.IsWritten kind part) :
    interval.IsWritten kind (part ++ after) := by
  cases written with
  | single written pads => exact .single written (pads.add_after blank)
  | span written pads written' pads' =>
      rw [List.append_assoc, List.cons_append, List.cons_append]
      exact .span written pads written' (pads'.add_after blank)

/-- No part is cut by a bar. -/
theorem IsWritten.free (written : interval.IsWritten kind part) : '|' ∉ part := by
  have padded {bound : Bound} {text outer : List Char}
      (written : bound.IsWritten kind text) (pads : Text.Pads text outer) :
      '|' ∉ outer := by
    intro member
    obtain member | blank := pads.mem member
    · exact (written.solid _ member).2.2 rfl
    · revert blank
      decide
  cases written with
  | single written pads => exact padded written pads
  | span written pads written' pads' =>
      simp [padded written pads, padded written' pads']

theorem parse_of_cut {first second : List Char}
    (cut : Text.cutAtPair '.' part = some (first, second)) :
    parse kind part = (do
      let low ← Bound.parse kind (Text.trim first)
      let high ← Bound.parse kind (Text.trim second)
      return ⟨low, high⟩) := by
  cases part with
  | nil => simp [Text.cutAtPair] at cut
  | cons c rest => simp [parse, cut]

theorem parse_of_uncut (some : part ≠ []) (cut : Text.cutAtPair '.' part = none) :
    parse kind part = (do
      let bound ← Bound.parse kind part
      return ⟨bound, bound⟩) := by
  simp [parse, cut, some]

/-- What is between the outermost blanks of two bounds around two points. -/
theorem parse_trim_span {low high : Bound} {text text' first second : List Char}
    (written : low.IsWritten kind text) (pads : Text.Pads text first)
    (written' : high.IsWritten kind text') (pads' : Text.Pads text' second) :
    parse kind (Text.trim (first ++ '.' :: '.' :: second)) = .ok ⟨low, high⟩ := by
  obtain ⟨before, gap, beforeBlank, gapBlank, rfl⟩ := pads
  obtain ⟨gap', after, gapBlank', afterBlank, rfl⟩ := pads'
  have core : Text.IsTrim (text ++ gap ++ '.' :: '.' :: (gap' ++ text')) := by
    constructor
    · intro c head
      rw [List.append_assoc, List.head?_append_of_ne_nil _ written.ne_nil] at head
      exact written.isTrim.head c head
    · intro c last
      have tail : text ++ gap ++ '.' :: '.' :: (gap' ++ text') =
          (text ++ gap ++ '.' :: '.' :: gap') ++ text' := by simp
      rw [tail, List.getLast?_append_of_ne_nil _ written'.ne_nil] at last
      exact written'.isTrim.last c last
  have whole : Text.Pads (text ++ gap ++ '.' :: '.' :: (gap' ++ text'))
      (before ++ text ++ gap ++ '.' :: '.' :: (gap' ++ text' ++ after)) :=
    ⟨before, after, beforeBlank, afterBlank, by simp⟩
  have free : '.' ∉ text ++ gap := by
    simp only [List.mem_append, not_or]
    refine ⟨fun member => (written.solid _ member).2.1 rfl, fun member => ?_⟩
    exact absurd (gapBlank _ member) (by decide)
  have lowPads : Text.Pads text (text ++ gap) :=
    (Text.pads_self text).add_after gapBlank
  have highPads : Text.Pads text' (gap' ++ text') :=
    (Text.pads_self text').add_before gapBlank'
  rw [whole.trim_eq_inner core, parse_of_cut (Text.cutAtPair_append free _),
    lowPads.trim_eq_inner written.isTrim, highPads.trim_eq_inner written'.isTrim,
    (Bound.parse_eq_ok_iff.mpr written).1, (Bound.parse_eq_ok_iff.mpr written').1]
  rfl

/-- Parts are read as they are written, and decimals apart there are no others. -/
theorem parse_trim_iff :
    parse kind (Text.trim part) = .ok interval ∧ interval.IsWhole ↔
      interval.IsWritten kind part := by
  constructor
  · rintro ⟨read, wholeMin, wholeMax⟩
    obtain ⟨before, after, beforeBlank, afterBlank, same⟩ := Text.pads_trim part
    have some : Text.trim part ≠ [] := fun empty => by
      rw [empty] at read
      simp [parse] at read
    cases cut : Text.cutAtPair '.' (Text.trim part) with
    | none =>
        rw [parse_of_uncut some cut] at read
        simp only [bind_eq_ok_iff, pure_eq_ok_iff] at read
        obtain ⟨bound, read, rfl⟩ := read
        exact .single (Bound.parse_eq_ok_iff.mp ⟨read, wholeMin⟩)
          (Text.pads_trim part)
    | some pieces =>
        obtain ⟨first, second⟩ := pieces
        rw [parse_of_cut cut] at read
        simp only [bind_eq_ok_iff, pure_eq_ok_iff] at read
        obtain ⟨low, readLow, high, readHigh, rfl⟩ := read
        have written := Bound.parse_eq_ok_iff.mp ⟨readLow, wholeMin⟩
        have written' := Bound.parse_eq_ok_iff.mp ⟨readHigh, wholeMax⟩
        have halves : part =
            (before ++ first) ++ '.' :: '.' :: (second ++ after) := by
          rw [same, Text.of_cutAtPair cut]
          simp
        rw [halves]
        exact .span written ((Text.pads_trim first).add_before beforeBlank)
          written' ((Text.pads_trim second).add_after afterBlank)
  · intro written
    cases written with
    | @single bound text part written pads =>
        obtain ⟨read, whole⟩ := Bound.parse_eq_ok_iff.mpr written
        refine ⟨?_, whole, whole⟩
        have free : '.' ∉ text := fun member => (written.solid _ member).2.1 rfl
        rw [pads.trim_eq_inner written.isTrim,
          parse_of_uncut written.ne_nil (Text.cutAtPair_eq_none free), read]
        rfl
    | span written pads written' pads' =>
        exact ⟨parse_trim_span written pads written' pads',
          (Bound.parse_eq_ok_iff.mpr written).2,
          (Bound.parse_eq_ok_iff.mpr written').2⟩

end Interval

/-! ## The order of bounds -/

namespace Bound

variable {first second : Bound}

/-- Where a bound stands among the integers and the two symbols around them. -/
def place : Bound → WithBot (WithTop Int)
  | .min => ⊥
  | .max => ⊤
  | .int value => ((value : WithTop Int) : WithBot (WithTop Int))
  | .decimal _ => ⊥

theorem compare_eq_lt_iff (whole : first.IsWhole) (whole' : second.IsWhole) :
    first.compare second = .lt ↔ first.place < second.place := by
  have finite (value : Int) :
      ((value : WithTop Int) : WithBot (WithTop Int)) < ⊤ :=
    WithBot.coe_lt_coe.mpr (WithTop.coe_lt_top value)
  cases first <;> cases second <;>
    simp_all [IsWhole, compare, place, Int.compare_eq_lt]

theorem compare_ne_gt_iff (whole : first.IsWhole) (whole' : second.IsWhole) :
    first.compare second ≠ .gt ↔ first.place ≤ second.place := by
  cases first <;> cases second <;>
    simp_all [IsWhole, compare, place, Int.compare_eq_gt]

theorem eq_of_compare (whole : first.IsWhole) (whole' : second.IsWhole)
    (same : first.compare second = .eq) : first = second := by
  cases first <;> cases second <;>
    simp_all [IsWhole, compare]

end Bound

namespace Intervals

variable {kind : IntervalKind} {intervals : Intervals} {expression : String}

/-- No decimal numbers. -/
def IsWhole (intervals : Intervals) : Prop :=
  ∀ interval ∈ intervals, interval.IsWhole

/-- At least one interval, none of them inverted and each below all that follow it. -/
structure IsOrdered (intervals : Intervals) : Prop where
  some : intervals ≠ []
  upward : ∀ interval ∈ intervals, interval.min.compare interval.max ≠ .gt
  disjoint : intervals.Pairwise fun first second =>
    first.max.compare second.min = .lt

theorem IsOrdered.isAscending (ordered : intervals.IsOrdered) :
    intervals.IsAscending :=
  ⟨ordered.upward, ordered.disjoint.isChain⟩

/-- Parts that are in order one after the other are so altogether. -/
theorem IsAscending.isOrdered (ascending : intervals.IsAscending)
    (whole : intervals.IsWhole) (some : intervals ≠ []) : intervals.IsOrdered := by
  refine ⟨some, ascending.1, ?_⟩
  let below (first second : Interval) : Prop :=
    first.max.place < second.min.place ∧ second.min.place ≤ second.max.place
  have transitive : IsTrans Interval below :=
    ⟨fun _ _ _ low high => ⟨(low.1.trans_le low.2).trans high.1, high.2⟩⟩
  have chain : intervals.IsChain below := by
    refine ascending.2.imp_of_mem_imp fun first second listed listed' less => ?_
    have ends := whole second listed'
    exact ⟨(Bound.compare_eq_lt_iff (whole first listed).2 ends.1).mp less,
      (Bound.compare_ne_gt_iff ends.1 ends.2).mp (ascending.1 second listed')⟩
  refine chain.pairwise.imp_of_mem fun listed listed' low => ?_
  exact (Bound.compare_eq_lt_iff (whole _ listed).2 (whole _ listed').1).mpr low.1

/-! ## Expressions -/

/-- How an expression is written:  its parts with bars between them. -/
def IsWritten (kind : IntervalKind) (intervals : Intervals) (text : List Char) :
    Prop :=
  intervals ≠ [] ∧ ∃ parts, List.Forall₂ (Interval.IsWritten kind) intervals parts ∧
    text = ['|'].intercalate parts

theorem IsWritten.single {interval : Interval} {part : List Char}
    (written : interval.IsWritten kind part) : IsWritten kind [interval] part :=
  ⟨by simp, [part], .cons written .nil, by simp⟩

theorem IsWritten.cons {interval : Interval} {part text : List Char}
    (written : interval.IsWritten kind part) (rest : IsWritten kind intervals text) :
    IsWritten kind (interval :: intervals) (part ++ '|' :: text) := by
  obtain ⟨some, parts, each, rfl⟩ := rest
  have others : parts ≠ [] := by
    rintro rfl
    cases each
    exact some rfl
  refine ⟨by simp, part :: parts, .cons written each, ?_⟩
  rw [List.intercalate_cons_of_ne_nil others]
  simp

theorem parse_isWhole_iff :
    parse kind expression = .ok intervals ∧ intervals.IsWhole ↔
      intervals.IsWritten kind expression.toList ∧ intervals.IsOrdered := by
  rw [parse_eq_ok_iff]
  constructor
  · rintro ⟨⟨each, ascending⟩, whole⟩
    have some : intervals ≠ [] := by
      rintro rfl
      exact Text.splitOn_ne_nil _ _ (List.forall₂_nil_right_iff.mp each)
    refine ⟨⟨some, _, ?_, (Text.intercalate_splitOn ..).symm⟩,
      ascending.isOrdered whole some⟩
    have read := (List.forall₂_and_left ..).mpr ⟨whole, each.flip⟩
    exact read.imp fun _ _ read => Interval.parse_trim_iff.mp read.symm
  · rintro ⟨⟨some, parts, written, whole⟩, ordered⟩
    have others : parts ≠ [] := by
      rintro rfl
      cases written
      exact some rfl
    have bars := written.flip.imp fun _ _ written =>
      And.intro (Interval.IsWritten.free written) written
    have free := ((List.forall₂_and_left ..).mp bars).1
    have read := written.imp fun _ _ written =>
      (Interval.parse_trim_iff.mpr written).symm
    obtain ⟨whole', each⟩ := (List.forall₂_and_left ..).mp read
    rw [whole, Text.splitOn_intercalate others free]
    exact ⟨⟨each.flip, ordered.isAscending⟩, whole'⟩

end Intervals

/-! ## Printing -/

namespace Interval

variable {kind : IntervalKind} {interval : Interval} {part : List Char}

theorem IsWritten.bounds (written : interval.IsWritten kind part) :
    interval.min.IsWritten kind interval.min.text.toList ∧
      interval.max.IsWritten kind interval.max.text.toList := by
  cases written with
  | single written => exact ⟨written.printed, written.printed⟩
  | span written _ written' => exact ⟨written.printed, written'.printed⟩

/-- Only equal bounds are printed as one. -/
theorem IsWritten.printed (written : interval.IsWritten kind part) :
    interval.IsWritten kind interval.text.toList := by
  obtain ⟨low, high⟩ := interval
  obtain ⟨writtenLow, writtenHigh⟩ := written.bounds
  unfold text
  split
  next same =>
    obtain rfl : low = high :=
      Bound.eq_of_compare (Bound.parse_eq_ok_iff.mpr writtenLow).2
        (Bound.parse_eq_ok_iff.mpr writtenHigh).2 same
    exact .single writtenLow (Text.pads_self _)
  next =>
    have points : "..".toList = ['.', '.'] := rfl
    rw [String.toList_append, String.toList_append, points, List.append_assoc]
    exact .span writtenLow (Text.pads_self _) writtenHigh (Text.pads_self _)

end Interval

namespace Intervals

variable {kind : IntervalKind} {intervals : Intervals}

theorem isWritten_text {before : List Char} (blank : Text.AreBlank before)
    (some : intervals ≠ [])
    (written : ∀ interval ∈ intervals, ∃ part, interval.IsWritten kind part) :
    intervals.IsWritten kind (before ++ intervals.text.toList) := by
  induction intervals generalizing before with
  | nil => exact absurd rfl some
  | cons interval rest ih =>
      obtain ⟨⟨part, writtenHere⟩, writtenThere⟩ := List.forall_mem_cons.mp written
      have printed := writtenHere.printed.add_before blank
      cases rest with
      | nil => simpa [text] using IsWritten.single printed
      | cons next rest =>
          have space : Text.AreBlank [' '] := List.forall_mem_singleton.mpr rfl
          have others := ih space (by simp) writtenThere
          have whole : before ++ (text (interval :: next :: rest)).toList =
              before ++ interval.text.toList ++ [' '] ++
                '|' :: ([' '] ++ (text (next :: rest)).toList) := by
            simp [text, String.intercalate_cons_cons]
          rw [whole]
          exact .cons (printed.add_after space) others

/-- Apart from decimals an expression is read exactly if it is written as parts with
bars between them, each a bound or two bounds around two points with any blanks, and if
the parts are in order.  What is printed for it is read as the same. -/
theorem expressions_read_back (kind : IntervalKind) (expression : String)
    (intervals : Intervals) :
    (parse kind expression = .ok intervals ∧ intervals.IsWhole ↔
      intervals.IsWritten kind expression.toList ∧ intervals.IsOrdered) ∧
    (parse kind expression = .ok intervals → intervals.IsWhole →
      parse kind intervals.text = .ok intervals) := by
  refine ⟨parse_isWhole_iff, fun read whole => ?_⟩
  obtain ⟨⟨some, parts, written, -⟩, ordered⟩ := parse_isWhole_iff.mp ⟨read, whole⟩
  have each : ∀ interval ∈ intervals, ∃ part, interval.IsWritten kind part := by
    have listed := written.imp fun interval part written =>
      And.intro (Exists.intro part written) written
    exact ((List.forall₂_and_left ..).mp listed).1
  have printed := isWritten_text Text.areBlank_nil some each
  exact (parse_isWhole_iff.mpr ⟨printed, ordered⟩).1

/-- Blanks are not kept, and equal bounds are printed as one. -/
theorem expressions_read_back_spaced :
    let intervals : Intervals :=
      [⟨.min, .int 3⟩, ⟨.int 5, .int 5⟩, ⟨.int 7, .max⟩]
    parse .length " min .. 3|5 ..5 | 7..max" = .ok intervals ∧
      intervals.text = "min..3 | 5 | 7..max" ∧
      parse .length intervals.text = .ok intervals := by
  intro intervals
  have read : parse .length " min .. 3|5 ..5 | 7..max" = .ok intervals := by
    decide +kernel
  have whole : intervals.IsWhole := by
    simp [intervals, IsWhole, Interval.IsWhole, Bound.IsWhole]
  exact ⟨read, by decide +kernel, (expressions_read_back _ _ _).2 read whole⟩

end Intervals

end YangSchema
