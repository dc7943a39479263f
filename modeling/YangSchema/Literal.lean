import YangSchema.Json.Value
import YangSchema.Text.Blank

/-!
# Literals of statement arguments

Numbers are decimal digits without leading zeros. Dates name an existing day.
-/

namespace YangSchema

namespace Literal

/-- Nonempty decimal digits, without a leading zero unless it is the only one. -/
def isUnsigned : List Char → Bool
  | [] => false
  | first :: rest =>
      (first :: rest).all Char.isDigit && (first != '0' || rest.isEmpty)

/-- The value of decimal digits. -/
def digitsValue (digits : List Char) : Nat :=
  digits.foldl (fun value c => 10 * value + (c.toNat - '0'.toNat)) 0

/-- An unsigned number of at most 64 bits. -/
def nonNegative? (text : List Char) : Option Nat :=
  if isUnsigned text then
    let value := digitsValue text
    if value < Nat.pow 2 64 then some value else none
  else
    none

/-- A number of at most 128 bits with its sign; zero has no sign. -/
def integer? (text : List Char) : Option Int :=
  match text with
  | '-' :: digits =>
      if isUnsigned digits && digits != ['0'] then
        let value := digitsValue digits
        if value ≤ Nat.pow 2 127 then some (-(value : Int)) else none
      else
        none
  | digits =>
      if isUnsigned digits then
        let value := digitsValue digits
        if value < Nat.pow 2 127 then some (value : Int) else none
      else
        none

/-- Digits on both sides of a point, with an optional minus sign. -/
def isDecimal (text : List Char) : Bool :=
  let digits :=
    match text with
    | '-' :: digits => digits
    | digits => digits
  match Text.cutAt '.' digits with
  | none => false
  | some (whole, part) =>
      !whole.isEmpty && !part.isEmpty && whole.all Char.isDigit &&
        part.all Char.isDigit

def boolean? (text : String) : Option Bool :=
  if text = "true" then some true
  else if text = "false" then some false
  else none

def isLeapYear (year : Nat) : Bool :=
  (year % 4 = 0 && year % 100 ≠ 0) || year % 400 = 0

/-- No days for a number that is not a month. -/
def daysInMonth (year month : Nat) : Nat :=
  if month ∈ [1, 3, 5, 7, 8, 10, 12] then 31
  else if month ∈ [4, 6, 9, 11] then 30
  else if month = 2 then (if isLeapYear year then 29 else 28)
  else 0

/-- Four, two and two digits joined by hyphens that name an existing day. -/
def isDate (text : List Char) : Bool :=
  match text with
  | [y₁, y₂, y₃, y₄, '-', m₁, m₂, '-', d₁, d₂] =>
      let year := [y₁, y₂, y₃, y₄]
      let month := [m₁, m₂]
      let day := [d₁, d₂]
      (year ++ month ++ day).all Char.isDigit &&
        1 ≤ digitsValue day &&
        digitsValue day ≤ daysInMonth (digitsValue year) (digitsValue month)
  | _ => false

/-- A scheme, a colon and more text, nowhere a blank. -/
def isUri (text : List Char) : Bool :=
  match Text.cutAt ':' text with
  | some (first :: scheme, rest) =>
      first.isAlpha &&
        scheme.all (fun c => c.isAlphanum || c == '+' || c == '-' || c == '.') &&
        !rest.isEmpty && !text.any Text.isBlank
  | _ => false

end Literal

/-- Lifecycle state of a definition. -/
inductive Status where
  | current
  | deprecated
  | obsolete
  deriving DecidableEq, Repr

namespace Status

def keyword : Status → String
  | .current => "current"
  | .deprecated => "deprecated"
  | .obsolete => "obsolete"

def ofKeyword? (text : String) : Option Status :=
  [.current, .deprecated, .obsolete].find? (·.keyword == text)

end Status

/-- Who decides the order of the entries of a list. -/
inductive OrderedBy where
  | system
  | user
  deriving DecidableEq, Repr

namespace OrderedBy

def keyword : OrderedBy → String
  | .system => "system"
  | .user => "user"

def ofKeyword? (text : String) : Option OrderedBy :=
  [.system, .user].find? (·.keyword == text)

end OrderedBy

/-- Upper bound on the number of entries of a list. -/
inductive MaxElements where
  | unbounded
  | bounded (count : Nat)
  deriving DecidableEq, Repr

namespace MaxElements

/-- Whether a lower bound does not exceed this upper bound. -/
def admits : MaxElements → Nat → Bool
  | .unbounded, _ => true
  | .bounded count, least => least ≤ count

def text : MaxElements → String
  | .unbounded => "unbounded"
  | .bounded count => toString count

def toJson : MaxElements → Json
  | .unbounded => .string "unbounded"
  | .bounded count => .object [("bounded", .nat count)]

end MaxElements

end YangSchema
