import YangSchema.BuiltinType
import YangSchema.Identifier
import YangSchema.Source.Sources

/-!
# Uses of types

A `TypeUse` is what one `type` statement declares, with the links that are
found for it later. Restrictions keep their text; the effective type at the end
of a typedef chain has the restrictions of every layer merged in.
-/

namespace YangSchema

/-- The number of a node in its schema tree, in order of creation. -/
abbrev NodeId := Nat

/-- The module or submodule itself, which is always created first. -/
def rootId : NodeId :=
  0

/-- A node of some schema tree of the compilation. -/
structure NodeRef where
  source : SourceId
  node : NodeId
  deriving DecidableEq, Repr

/-- What any restriction may say about itself. -/
structure Explanation where
  errorMessage : Option String
  errorAppTag : Option String
  description : Option String
  reference : Option String
  deriving DecidableEq, Repr

def Explanation.empty : Explanation :=
  ⟨none, none, none, none⟩

/-- A `range` or a `length`. -/
structure IntervalRestriction where
  intervals : Intervals
  explanation : Explanation
  position : Position
  span : Span
  deriving DecidableEq, Repr

structure PatternRestriction where
  regex : String
  explanation : Explanation
  deriving DecidableEq, Repr

/-- A member of an enumeration or of a set of bits, with its number. -/
structure NumberedMember where
  name : String
  number : Int
  /-- Whether the number was declared, not assigned. -/
  explicit : Bool
  description : Option String
  reference : Option String
  status : Status
  position : Position
  deriving DecidableEq, Repr

/-- The built-in type at the end of a typedef chain and what restricts it. -/
structure EffectiveType where
  builtin : BuiltinType
  range : Option Intervals
  length : Option Intervals
  patterns : List String
  fractionDigits : Option Nat
  /-- The typedef whose body declares the members. -/
  membersFrom : Option NodeRef
  deriving DecidableEq, Repr

/-- What linking finds out about a use of a type. -/
structure TypeLinks where
  typedef : Option NodeRef
  leafrefTarget : Option NodeRef
  identity : Option NodeRef
  effective : Option EffectiveType
  deriving DecidableEq, Repr

def TypeLinks.none : TypeLinks :=
  ⟨.none, .none, .none, .none⟩

structure TypeUse where
  name : QualifiedName
  /-- Present when the name is that of a built-in type. -/
  builtin : Option BuiltinType
  position : Position
  span : Span
  range : Option IntervalRestriction
  length : Option IntervalRestriction
  patterns : List PatternRestriction
  fractionDigits : Option Nat
  path : Option String
  requireInstance : Option Bool
  base : Option QualifiedName
  /-- The enumeration, bits or union node that declares the members. -/
  members : Option NodeId
  links : TypeLinks
  deriving DecidableEq, Repr

namespace TypeUse

/-- A use of a type whose body has not been read. -/
def ofName (name : QualifiedName) (position : Position) (span : Span) :
    TypeUse :=
  { name, position, span
    builtin :=
      match name.qualifier with
      | none => BuiltinType.ofName? name.name
      | some _ => none
    range := none
    length := none
    patterns := []
    fractionDigits := none
    path := none
    requireInstance := none
    base := none
    members := none
    links := .none }

def isDerived (use : TypeUse) : Bool :=
  use.builtin.isNone

/-- The built-in type once it is known, directly or through typedefs. -/
def effectiveBuiltin? (use : TypeUse) : Option BuiltinType :=
  use.builtin.or (use.links.effective.map (·.builtin))

end TypeUse

end YangSchema
