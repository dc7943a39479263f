import YangSchema.Interval

/-!
# Built-in types

The closed catalogue of types that a `type` statement names without a
qualifier, with the value space that their restrictions narrow.
-/

namespace YangSchema

open Decimal (Binary64)

inductive BuiltinType where
  | int8
  | int16
  | int32
  | int64
  | uint8
  | uint16
  | uint32
  | uint64
  | decimal64
  | string
  | boolean
  | enumeration
  | bits
  | binary
  | leafref
  | identityref
  | empty
  | union
  | instanceIdentifier
  deriving DecidableEq, Repr

namespace BuiltinType

def all : List BuiltinType :=
  [.int8, .int16, .int32, .int64, .uint8, .uint16, .uint32, .uint64,
    .decimal64, .string, .boolean, .enumeration, .bits, .binary, .leafref,
    .identityref, .empty, .union, .instanceIdentifier]

def name : BuiltinType → String
  | .int8 => "int8"
  | .int16 => "int16"
  | .int32 => "int32"
  | .int64 => "int64"
  | .uint8 => "uint8"
  | .uint16 => "uint16"
  | .uint32 => "uint32"
  | .uint64 => "uint64"
  | .decimal64 => "decimal64"
  | .string => "string"
  | .boolean => "boolean"
  | .enumeration => "enumeration"
  | .bits => "bits"
  | .binary => "binary"
  | .leafref => "leafref"
  | .identityref => "identityref"
  | .empty => "empty"
  | .union => "union"
  | .instanceIdentifier => "instance-identifier"

def ofName? (name : String) : Option BuiltinType :=
  all.find? (·.name == name)

/-- The least and the greatest signed integer of a number of bits and a sign. -/
def signedLimits (bits : Nat) : Int × Int :=
  (-(Nat.pow 2 bits : Int), (Nat.pow 2 bits : Int) - 1)

/-- The least and the greatest unsigned integer of a number of bits. -/
def unsignedLimits (bits : Nat) : Int × Int :=
  (0, (Nat.pow 2 bits : Int) - 1)

/-- The least and the greatest value of an integer type. -/
def integerLimits? : BuiltinType → Option (Int × Int)
  | .int8 => some (signedLimits 7)
  | .int16 => some (signedLimits 15)
  | .int32 => some (signedLimits 31)
  | .int64 => some (signedLimits 63)
  | .uint8 => some (unsignedLimits 8)
  | .uint16 => some (unsignedLimits 16)
  | .uint32 => some (unsignedLimits 32)
  | .uint64 => some (unsignedLimits 64)
  | _ => none

def isInteger (type : BuiltinType) : Bool :=
  type.integerLimits?.isSome

/-- A `range` restricts integers and decimals. -/
def supportsRange (type : BuiltinType) : Bool :=
  type.isInteger || type == .decimal64

/-- A `length` restricts strings and binary values. -/
def supportsLength (type : BuiltinType) : Bool :=
  type == .string || type == .binary

def supportsPattern (type : BuiltinType) : Bool :=
  type == .string

/-- Types whose body declares members instead of restrictions. -/
def hasMembers (type : BuiltinType) : Bool :=
  type == .enumeration || type == .bits || type == .union

/-- A 64-bit integer scaled down by a power of ten. -/
def decimalLimit (fractionDigits : Nat) (integer : Int) : Bound :=
  .decimal <|
    (Binary64.ofInt integer).divide (Binary64.powerOfTen fractionDigits)

/-- The value space of a numeric type; decimals have one fraction digit unless
told otherwise. -/
def naturalRange? (type : BuiltinType) (fractionDigits : Option Nat) :
    Option Intervals :=
  match type with
  | .decimal64 =>
      let limit := decimalLimit (fractionDigits.getD 1)
      let (least, greatest) := signedLimits 63
      some [⟨limit least, limit greatest⟩]
  | type =>
      type.integerLimits?.map fun (least, greatest) =>
        [⟨.int least, .int greatest⟩]

/-- The lengths that a string or a binary value may have. -/
def naturalLength? (type : BuiltinType) : Option Intervals :=
  let (least, greatest) := unsignedLimits 64
  if type.supportsLength then some [⟨.int least, .int greatest⟩] else none

end BuiltinType

end YangSchema
