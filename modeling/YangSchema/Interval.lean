import YangSchema.Decimal.Shortest
import YangSchema.Literal
import YangSchema.Text.Blank

/-!
# Range and length expressions

An expression such as `1..10 | 20 | 100..max` denotes ascending, disjoint
intervals. The bounds `min` and `max` stay symbolic until `resolve` replaces
them by the ends of the intervals that are being restricted.
-/

namespace YangSchema

open Decimal (Binary64)

/-- Lengths admit non-negative integers only. -/
inductive IntervalKind where
  | range
  | length
  deriving DecidableEq, Repr

inductive Bound where
  | min
  | max
  | int (value : Int)
  | decimal (value : Binary64)
  deriving DecidableEq, Repr

inductive IntervalError where
  | emptyPart
  | invalidBound (text : String)
  | inverted (min max : String)
  | notAscending (part : String)
  deriving DecidableEq, Repr

namespace IntervalError

def message : IntervalError → String
  | .emptyPart => "empty expression part"
  | .invalidBound text => s!"`{text}` is not a valid bound"
  | .inverted min max =>
      s!"lower bound `{min}` exceeds upper bound `{max}`"
  | .notAscending part =>
      s!"`{part}` is not in ascending order or overlaps the previous part"

end IntervalError

namespace Bound

/-- The value of digits around a point, rounded to 64 bits. -/
def decimalValue (text : List Char) : Binary64 :=
  let (negative, digits) :=
    match text with
    | '-' :: digits => (true, digits)
    | digits => (false, digits)
  match Text.cutAt '.' digits with
  | none => Binary64.ofQuotient negative (Literal.digitsValue digits) 1
  | some (whole, part) =>
      Binary64.ofQuotient negative (Literal.digitsValue (whole ++ part))
        (Nat.pow 10 part.length)

def parse (kind : IntervalKind) (text : List Char) :
    Except IntervalError Bound :=
  if text = "min".toList then .ok .min
  else if text = "max".toList then .ok .max
  else if text.isEmpty then .error .emptyPart
  else
    let invalid := IntervalError.invalidBound (String.ofList text)
    match kind with
    | .length =>
        match Literal.nonNegative? text with
        | some value => .ok (.int value)
        | none => .error invalid
    | .range =>
        match Literal.integer? text with
        | some value => .ok (.int value)
        | none =>
            if Literal.isDecimal text then .ok (.decimal (decimalValue text))
            else .error invalid

def toBinary : Bound → Binary64
  | .min => ⟨true, .infinite⟩
  | .max => ⟨false, .infinite⟩
  | .int value => Binary64.ofInt value
  | .decimal value => value

/-- The symbolic ends lie outside all numbers; an integer and a decimal are
compared as binary fractions. -/
def compare : Bound → Bound → Ordering
  | .min, .min => .eq
  | .max, .max => .eq
  | .min, _ => .lt
  | _, .max => .lt
  | _, .min => .gt
  | .max, _ => .gt
  | .int first, .int second => Ord.compare first second
  | first, second => first.toBinary.compare second.toBinary

def text : Bound → String
  | .min => "min"
  | .max => "max"
  | .int value => toString value
  | .decimal value => value.positional

end Bound

structure Interval where
  min : Bound
  max : Bound
  deriving DecidableEq, Repr

namespace Interval

/-- Whether `inner` lies between the ends of `outer`. -/
def contains (outer inner : Interval) : Bool :=
  outer.min.compare inner.min ≠ .gt && outer.max.compare inner.max ≠ .lt

def text (interval : Interval) : String :=
  if interval.min.compare interval.max = .eq then
    interval.min.text
  else
    interval.min.text ++ ".." ++ interval.max.text

/-- One part of an expression: a bound, or two bounds around two points. -/
def parse (kind : IntervalKind) (part : List Char) :
    Except IntervalError Interval := do
  if part.isEmpty then
    throw .emptyPart
  match Text.cutAtPair '.' part with
  | some (low, high) =>
      let low ← Bound.parse kind (Text.trim low)
      let high ← Bound.parse kind (Text.trim high)
      return ⟨low, high⟩
  | none =>
      let value ← Bound.parse kind part
      return ⟨value, value⟩

end Interval

/-- The parts of an expression in their order. -/
abbrev Intervals := List Interval

namespace Intervals

/-- Reads the remaining parts after those already `read`, last one first. -/
def parseParts (kind : IntervalKind) (read : List Interval) :
    List (List Char) → Except IntervalError Intervals
  | [] => .ok read.reverse
  | part :: rest => do
      let part := Text.trim part
      let interval ← Interval.parse kind part
      if interval.min.compare interval.max = .gt then
        throw (.inverted interval.min.text interval.max.text)
      match read with
      | previous :: _ =>
          if previous.max.compare interval.min ≠ .lt then
            throw (.notAscending (String.ofList part))
      | [] => pure ()
      parseParts kind (interval :: read) rest

def parse (kind : IntervalKind) (expression : String) :
    Except IntervalError Intervals :=
  parseParts kind [] (Text.splitOn '|' expression.toList)

def lowest (intervals : Intervals) : Option Bound :=
  intervals.head?.map (·.min)

def highest (intervals : Intervals) : Option Bound :=
  intervals.getLast?.map (·.max)

/-- A symbolic bound stands for the matching end of `base`. -/
def resolveBound (base : Intervals) : Bound → Bound
  | .min => base.lowest.getD .min
  | .max => base.highest.getD .max
  | bound => bound

def resolve (intervals base : Intervals) : Intervals :=
  intervals.map fun interval =>
    ⟨resolveBound base interval.min, resolveBound base interval.max⟩

/-- Whether each interval, its bounds resolved, lies in an interval of `base`. -/
def isWithin (intervals base : Intervals) : Bool :=
  (intervals.resolve base).all fun interval =>
    base.any fun outer => outer.contains interval

def text (intervals : Intervals) : String :=
  " | ".intercalate (intervals.map Interval.text)

end Intervals

end YangSchema
