/-!
# Binary fractions of 64 bits

A `Binary64` is a sign with either infinity or a mantissa of at most 53 bits
times a power of two. `ofQuotient` rounds a quotient of natural numbers to the
nearest one, a tie going to the even mantissa; every other operation is that
rounding of an exact result.
-/

namespace YangSchema.Decimal

/-- The size of a binary fraction: `mantissa * 2 ^ exponent`, or infinity. -/
inductive Magnitude where
  | finite (mantissa : Nat) (exponent : Int)
  | infinite
  deriving DecidableEq, Repr

structure Binary64 where
  negative : Bool
  magnitude : Magnitude
  deriving DecidableEq, Repr

/-- The least exponent of a mantissa. -/
def leastExponent : Int := -1074

/-- The greatest exponent of a mantissa. -/
def greatestExponent : Int := 971

/-- `numerator * 2 ^ shift / denominator` as a quotient of natural numbers. -/
def scaled (numerator denominator : Nat) (shift : Int) : Nat × Nat :=
  if shift < 0 then
    (numerator, denominator * Nat.pow 2 shift.natAbs)
  else
    (numerator * Nat.pow 2 shift.natAbs, denominator)

/-- The greatest `n` with `2 ^ n ≤ numerator / denominator`. -/
def binaryOrder (numerator denominator : Nat) : Int :=
  let estimate : Int := (Nat.log2 numerator : Int) - Nat.log2 denominator
  let (above, below) := scaled numerator denominator (-estimate)
  if above < below then estimate - 1 else estimate

/-- The quotient rounded to the nearest natural number, a tie to the even one. -/
def roundDivide (numerator denominator : Nat) : Nat :=
  let quotient := numerator / denominator
  let twice := 2 * (numerator % denominator)
  if twice < denominator then quotient
  else if denominator < twice then quotient + 1
  else if quotient % 2 = 0 then quotient
  else quotient + 1

/-- The magnitude nearest to `numerator / denominator`. -/
def Magnitude.ofQuotient (numerator denominator : Nat) : Magnitude :=
  if numerator = 0 then
    .finite 0 leastExponent
  else
    let exponent :=
      max leastExponent (binaryOrder numerator denominator - 52)
    let (above, below) := scaled numerator denominator (-exponent)
    let mantissa := roundDivide above below
    let (mantissa, exponent) :=
      if mantissa = Nat.pow 2 53 then (Nat.pow 2 52, exponent + 1)
      else (mantissa, exponent)
    if greatestExponent < exponent then .infinite
    else .finite mantissa exponent

namespace Binary64

/-- The binary fraction nearest to a signed quotient. -/
def ofQuotient (negative : Bool) (numerator denominator : Nat) : Binary64 :=
  ⟨negative, .ofQuotient numerator denominator⟩

def ofInt (value : Int) : Binary64 :=
  ofQuotient (value < 0) value.natAbs 1

/-- The value as a quotient of natural numbers, for a finite magnitude. -/
def quotient (mantissa : Nat) (exponent : Int) : Nat × Nat :=
  scaled mantissa 1 exponent

/-- The product of two values that are not negative. -/
def multiply (first second : Binary64) : Binary64 :=
  match first.magnitude, second.magnitude with
  | .finite m p, .finite n q =>
      let (above, below) := quotient (m * n) (p + q)
      ofQuotient false above below
  | _, _ => ⟨false, .infinite⟩

/-- The quotient of two finite values, the second of them positive. -/
def divide (first second : Binary64) : Binary64 :=
  match first.magnitude, second.magnitude with
  | .finite m p, .finite n q =>
      let (above, below) := scaled m n (p - q)
      ofQuotient first.negative above below
  | .infinite, _ => ⟨first.negative, .infinite⟩
  | _, .infinite => ofQuotient first.negative 0 1

/-- Repeated squaring: `result * factor ^ power`, each product rounded. -/
def powerFrom : Nat → Nat → Binary64 → Binary64 → Binary64
  | 0, _, _, result => result
  | steps + 1, power, factor, result =>
      let result := if power % 2 = 1 then multiply result factor else result
      if power / 2 = 0 then result
      else powerFrom steps (power / 2) (multiply factor factor) result

/-- A power of ten, rounded after every product of the repeated squaring. -/
def powerOfTen (power : Nat) : Binary64 :=
  powerFrom (power + 1) power (ofInt 10) (ofInt 1)

/-- The signed mantissa at the given exponent, which is at most its own. -/
def alignedMantissa (negative : Bool) (mantissa : Nat)
    (exponent least : Int) : Int :=
  let size : Int := mantissa * Nat.pow 2 (exponent - least).natAbs
  if negative then -size else size

/-- The order of the values; both zeros are equal. -/
def compare (first second : Binary64) : Ordering :=
  match first.magnitude, second.magnitude with
  | .finite m p, .finite n q =>
      let least := min p q
      Ord.compare (alignedMantissa first.negative m p least)
        (alignedMantissa second.negative n q least)
  | .infinite, .infinite =>
      match first.negative, second.negative with
      | true, false => .lt
      | false, true => .gt
      | _, _ => .eq
  | .infinite, .finite _ _ => if first.negative then .lt else .gt
  | .finite _ _, .infinite => if second.negative then .gt else .lt

end Binary64

end YangSchema.Decimal
