import YangSchema.Draft.Draft
import YangSchema.Statement.Cardinality

/-!
# Members of enumerations and bits

Every member has a number. A declared number must exceed all earlier ones; a
member without one gets the successor of the greatest so far, and the first
member gets zero.
-/

namespace YangSchema

/-- How the members of one kind of type are numbered. -/
structure Numbering where
  /-- What a number is called. -/
  noun : String
  least : Int
  greatest : Int
  deriving DecidableEq, Repr

namespace Numbering

/-- Values of an enumeration are signed 32-bit integers. -/
def values : Numbering :=
  let (least, greatest) := BuiltinType.signedLimits 31
  ⟨"value", least, greatest⟩

/-- Positions of bits are unsigned 32-bit integers. -/
def positions : Numbering :=
  let (least, greatest) := BuiltinType.unsignedLimits 32
  ⟨"position", least, greatest⟩

def admits (numbering : Numbering) (number : Int) : Bool :=
  numbering.least ≤ number && number ≤ numbering.greatest

end Numbering

inductive NumberingError where
  | used (number : Int) (name : String)
  | notGreater (number maximum : Int)
  | exhausted
  deriving DecidableEq, Repr

def NumberingError.message (numbering : Numbering) : NumberingError → String
  | used number name =>
      s!"{numbering.noun} {number} is already used by `{name}`"
  | notGreater number maximum =>
      s!"{numbering.noun} {number} must be greater than the current maximum {maximum}"
  | exhausted => s!"no {numbering.noun} left after {numbering.greatest}"

namespace Numbering

/-- The greatest number of the members. -/
def maximum? (members : List NumberedMember) : Option Int :=
  (members.map (·.number)).max?

/-- The number of a member that comes after other members. -/
def number (numbering : Numbering) (members : List NumberedMember)
    (member : NumberedMember) : Except NumberingError Int :=
  match member.explicit, maximum? members with
  | _, none => .ok member.number
  | true, some maximum =>
      match members.find? (·.number == member.number) with
      | some other => .error (.used member.number other.name)
      | none =>
          if member.number ≤ maximum then
            .error (.notGreater member.number maximum)
          else
            .ok member.number
  | false, some maximum =>
      if maximum < numbering.greatest then .ok (maximum + 1)
      else .error .exhausted

/-- The members with one more, which is numbered now. -/
def append (numbering : Numbering) (members : List NumberedMember)
    (member : NumberedMember) : Except NumberingError (List NumberedMember) :=
  (numbering.number members member).map fun number =>
    members ++ [{ member with number }]

end Numbering

namespace Draft

/-- A member that has no number yet. -/
def newMember (statement : Statement) (name : String) : NumberedMember :=
  { name
    number := 0
    explicit := false
    description := none
    reference := none
    status := .current
    position := statement.position }

def openEnum : Step := fun draft statement => do
  let name ← statement.enumNameArgument
  Cardinality.check statement
  let parent ← draft.nodeHolder statement (· == .enumeration)
  NameCategory.checkFresh draft.tree parent statement name .enumMember
  return draft.push (.enum (newMember statement name))

def openBit : Step := fun draft statement => do
  let name ← statement.identifierArgument
  Cardinality.check statement
  let parent ← draft.nodeHolder statement (· == .bits)
  NameCategory.checkFresh draft.tree parent statement name .bitMember
  return draft.push (.bit (newMember statement name))

/-- The error about a number that does not fit its type. -/
def outOfRange (statement : Statement) (what : String) (number : Int)
    (range : String) : StatementError :=
  .of .dataModelConstraintViolation statement .entry
    s!"{what} {number} is outside the 32-bit {range} range"

def readValue : Step := fun draft statement => do
  let number ← statement.integerArgument
  if !Numbering.values.admits number then
    throw (outOfRange statement "enum value" number "signed")
  draft.fill statement
    (fun
      | .enum member => some (.enum { member with number, explicit := true })
      | _ => none)
    (fun _ => none)

def readPosition : Step := fun draft statement => do
  let number ← statement.nonNegativeArgument
  if !Numbering.positions.admits number then
    throw (outOfRange statement "bit position" number "unsigned")
  draft.fill statement
    (fun
      | .bit member => some (.bit { member with number, explicit := true })
      | _ => none)
    (fun _ => none)

/-- The members with one more, or the error about the statement of that one. -/
def appendMember (statement : Statement) (numbering : Numbering)
    (members : List NumberedMember) (member : NumberedMember) :
    Except StatementError (List NumberedMember) :=
  (numbering.append members member).mapError fun error =>
    statement.violation (error.message numbering)

def closeEnum : Step := fun draft statement => do
  let (member, draft) ← draft.closeFrame statement .enum fun
    | .enum member => some member
    | _ => none
  let parent ← draft.nodeHolder statement (· == .enumeration)
  match draft.tree.construct? parent with
  | some (.enumeration members) =>
      let members ← appendMember statement .values members member
      return draft.modifyConstruct parent fun _ => .enumeration members
  | _ => return draft

def closeBit : Step := fun draft statement => do
  let (member, draft) ← draft.closeFrame statement .bit fun
    | .bit member => some member
    | _ => none
  let parent ← draft.nodeHolder statement (· == .bits)
  match draft.tree.construct? parent with
  | some (.bits members) =>
      let members ← appendMember statement .positions members member
      return draft.modifyConstruct parent fun _ => .bits members
  | _ => return draft

end Draft

end YangSchema
