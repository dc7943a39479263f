import YangSchema.Decimal.Binary64

/-!
# The fewest digits that read back

`shortest` finds the decimal of fewest digits that rounds to a given binary
fraction, of two such decimals the nearer one. The decimals that round to it
form an interval around the value, which has its ends in it exactly when the
mantissa is even. `positional` and `scientific` are two ways to write them.
-/

namespace YangSchema.Decimal

/-- A decimal `digits * 10 ^ exponent`. -/
structure Digits where
  digits : Nat
  exponent : Int
  deriving DecidableEq, Repr

/-- The decimals that round to one binary fraction, over a common denominator. -/
structure Neighbourhood where
  low : Nat
  value : Nat
  high : Nat
  denominator : Nat
  closed : Bool

/-- A power of two has a neighbour below it at half the usual distance. -/
def Neighbourhood.of (mantissa : Nat) (exponent : Int) : Neighbourhood :=
  let below :=
    if mantissa = Nat.pow 2 52 ∧ leastExponent < exponent then 1 else 2
  let (unit, denominator) := scaled 1 1 (exponent - 2)
  { low := (4 * mantissa - below) * unit
    value := 4 * mantissa * unit
    high := (4 * mantissa + 2) * unit
    denominator := denominator
    closed := mantissa % 2 = 0 }

namespace Neighbourhood

/-- Whether `candidate * 10 ^ exponent` rounds to the value. -/
def admits (near : Neighbourhood) (candidate : Nat) (exponent : Int) : Bool :=
  let (above, below) :=
    if exponent < 0 then (candidate, Nat.pow 10 exponent.natAbs)
    else (candidate * Nat.pow 10 exponent.natAbs, 1)
  let point := above * near.denominator
  if near.closed then
    near.low * below ≤ point && point ≤ near.high * below
  else
    near.low * below < point && point < near.high * below

/-- The better of the two grid points next to the value, if one rounds to it. -/
def onGrid (near : Neighbourhood) (exponent : Int) : Option Nat :=
  let (above, below) :=
    if exponent < 0 then
      (near.value * Nat.pow 10 exponent.natAbs, near.denominator)
    else
      (near.value, near.denominator * Nat.pow 10 exponent.natAbs)
  let lower := above / below
  let twice := 2 * (above % below)
  let lowerFirst := twice < below || (twice = below && lower % 2 = 0)
  match near.admits lower exponent, near.admits (lower + 1) exponent with
  | true, true => some (if lowerFirst then lower else lower + 1)
  | true, false => some lower
  | false, true => some (lower + 1)
  | false, false => none

/-- Tries the grids from `exponent` downwards, each with one digit more. -/
def search (near : Neighbourhood) : Nat → Int → Digits
  | 0, exponent => ⟨(near.onGrid exponent).getD 0, exponent⟩
  | steps + 1, exponent =>
      match near.onGrid exponent with
      | some digits => ⟨digits, exponent⟩
      | none => near.search steps (exponent - 1)

end Neighbourhood

/-- The exponent of the leading decimal digit, from an estimate one too high. -/
def decimalOrder (numerator denominator : Nat) : Nat → Int → Int
  | 0, exponent => exponent
  | steps + 1, exponent =>
      let below :=
        if exponent < 0 then
          numerator * Nat.pow 10 exponent.natAbs < denominator
        else
          numerator < denominator * Nat.pow 10 exponent.natAbs
      if below then decimalOrder numerator denominator steps (exponent - 1)
      else exponent

/-- Moves trailing zeros of the digits into the exponent. -/
def Digits.trim : Nat → Digits → Digits
  | 0, decimal => decimal
  | steps + 1, decimal =>
      if decimal.digits ≠ 0 ∧ decimal.digits % 10 = 0 then
        Digits.trim steps ⟨decimal.digits / 10, decimal.exponent + 1⟩
      else
        decimal

/-- The decimal of fewest digits that rounds to a finite magnitude. -/
def shortest (mantissa : Nat) (exponent : Int) : Digits :=
  if mantissa = 0 then
    ⟨0, 0⟩
  else
    let near := Neighbourhood.of mantissa exponent
    let bits : Int := Nat.log2 mantissa + exponent
    let estimate := (bits * 30103) / 100000 + 1
    let order := decimalOrder near.value near.denominator 4 estimate
    Digits.trim 20 (near.search 17 order)

private def zeros (count : Nat) : String :=
  String.ofList (List.replicate count '0')

/-- Digits with a point in front of the last `places` of them. -/
private def withPoint (text : String) (places : Nat) : String :=
  let characters := text.toList
  let whole := characters.take (characters.length - places)
  let part := characters.drop (characters.length - places)
  String.ofList (whole ++ '.' :: part)

namespace Binary64

private def signed (negative : Bool) (text : String) : String :=
  if negative then "-" ++ text else text

/-- Digits before and after a point, never an exponent; whole values have no
point. -/
def positional (value : Binary64) : String :=
  signed value.negative <|
    match value.magnitude with
    | .infinite => "inf"
    | .finite mantissa exponent =>
        let decimal := shortest mantissa exponent
        let text := toString decimal.digits
        if 0 ≤ decimal.exponent then
          text ++ zeros decimal.exponent.natAbs
        else
          let places := decimal.exponent.natAbs
          if places < text.length then withPoint text places
          else "0." ++ zeros (places - text.length) ++ text

/-- Positional from a hundred-thousandth to ten quadrillions with at least one
place, and with an exponent outside; infinity has no text. -/
def scientific? (value : Binary64) : Option String :=
  match value.magnitude with
  | .infinite => none
  | .finite mantissa exponent =>
      let decimal := shortest mantissa exponent
      let text := toString decimal.digits
      let length : Int := text.length
      let point := length + decimal.exponent
      let places := decimal.exponent.natAbs
      some <| signed value.negative <|
        if decimal.digits = 0 then "0.0"
        else if 0 ≤ decimal.exponent ∧ point ≤ 16 then
          text ++ zeros places ++ ".0"
        else if 0 < point ∧ point ≤ 16 then
          withPoint text places
        else if -5 < point ∧ point ≤ 0 then
          "0." ++ zeros point.natAbs ++ text
        else
          let mantissaText :=
            if text.length = 1 then text else withPoint text (text.length - 1)
          mantissaText ++ "e" ++ toString (point - 1)

end Binary64

end YangSchema.Decimal
