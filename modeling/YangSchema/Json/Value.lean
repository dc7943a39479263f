import YangSchema.Decimal.Binary64

/-!
# JSON values

Objects keep the order in which their members were given.
-/

namespace YangSchema

inductive Json where
  | null
  | bool (value : Bool)
  | int (value : Int)
  | decimal (value : Decimal.Binary64)
  | string (value : String)
  | array (items : List Json)
  | object (members : List (String × Json))
  deriving Inhabited, Repr

namespace Json

/-- `null` for an absent value. -/
def orNull {α : Type} (encode : α → Json) : Option α → Json
  | none => null
  | some value => encode value

/-- A member that is left out when its value is absent. -/
def optional {α : Type} (name : String) (encode : α → Json) :
    Option α → List (String × Json)
  | none => []
  | some value => [(name, encode value)]

/-- A member that is left out when its list is empty. -/
def unlessEmpty {α : Type} (name : String) (encode : α → Json) :
    List α → List (String × Json)
  | [] => []
  | items => [(name, array (items.map encode))]

def nat (value : Nat) : Json :=
  int value

end Json

end YangSchema
