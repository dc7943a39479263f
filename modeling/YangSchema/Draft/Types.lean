import YangSchema.Draft.Definitions

/-!
# Types

`typedef`, `type` and what a `type` may contain. An enumeration, a set of bits
or a union opens a node under its holder, where its members live; the node is
named after the holder. When the type statement ends, its use moves into the
holder and the references that it makes are queued.
-/

namespace YangSchema

namespace Draft

def openTypedef : Step := fun draft statement => do
  let name ← statement.identifierArgument
  if (BuiltinType.ofName? name).isSome then
    throw <| statement.invalidArgument s!"`{name}` is a built-in type name"
  openDefinition holdsScopedDefinitions .typedef (.typedef ⟨none, none, none⟩)
    draft statement

/-- A typedef must not name itself as its type. -/
def closeTypedef : Step := fun draft statement => do
  let (id, draft) ← draft.closeNode statement
  match draft.tree.node? id, draft.tree.type? id with
  | some node, some use =>
      let isOwn := use.name.qualifier.isNone ||
        use.name.qualifier == draft.tree.ownQualifier?
      if use.name.name == node.name && isOwn then
        throw <| statement.violation
          s!"typedef `{node.name}` is derived from itself"
  | _, _ => pure ()
  return draft

def holdsType (kind : ConstructKind) : Bool :=
  [.leaf, .leafList, .typedef, .union].contains kind

/-- The empty node for the members of a type, if it has any, and what its name
ends in. -/
def membersOf (use : TypeUse) : Option (Construct × String) :=
  match use.builtin with
  | some .enumeration => some (.enumeration [], "_enum")
  | some .bits => some (.bits [], "_bits")
  | some .union => some (.union [], "_union")
  | _ => none

/-- The name of a node for members: that of the holder and what kind of members
they are. Inside a union the number of the member follows. -/
def membersName (tree : SchemaTree) (holder : NodeId) (ending : String) :
    String :=
  match tree.node? holder with
  | some node =>
      match node.construct with
      | .union members => s!"{node.name}{ending}{members.length + 1}"
      | _ => node.name ++ ending
  | none => ending

def openType : Step := fun draft statement => do
  let name ← statement.nameArgument
  Cardinality.check statement
  let holder ← draft.nodeHolder statement holdsType
  let use := TypeUse.ofName name statement.position statement.headSpan
  match membersOf use with
  | some (construct, ending) =>
      let use := { use with members := some draft.nextId }
      return (draft.push (.type use)).openNode statement holder construct
        (membersName draft.tree holder ending)
  | none => return draft.push (.type use)

/-- The sub-statement without which a built-in type is incomplete. -/
def requiredPart : BuiltinType → Option Keyword
  | .enumeration => some .enum
  | .bits => some .bit
  | .union => some .type
  | .leafref => some .path
  | .identityref => some .base
  | .decimal64 => some .fractionDigits
  | _ => none

/-- Fails when a restriction admits more than its built-in type. -/
def checkWithin (keyword : String) (builtin : BuiltinType) :
    Option IntervalRestriction → Option Intervals → Except StatementError Unit
  | some restriction, some natural =>
      if restriction.intervals.isWithin natural then
        .ok ()
      else
        let text := restriction.intervals.text
        .error <|
          (StatementError.atPlace .invalidArgument keyword (some text)
            restriction.position restriction.span
            s!"`{text}` is outside the value space of `{builtin.name}`").inPhase
              .exit
  | _, _ => .ok ()

/-- Checks what a built-in type requires of its body. -/
def checkTypeBody (statement : Statement) (use : TypeUse) :
    Except StatementError Unit := do
  match use.builtin with
  | none => return
  | some builtin =>
      match requiredPart builtin with
      | some keyword => Cardinality.checkOne statement (keyword, .nonZero)
      | none => pure ()
      checkWithin "range" builtin use.range
        (builtin.naturalRange? use.fractionDigits)
      checkWithin "length" builtin use.length builtin.naturalLength?

/-- Takes the node for the members off the stack, if the type opened one. -/
def closeMembers (draft : Draft) (statement : Statement) :
    Except StatementError Draft := do
  match ← draft.stack.top statement .exit with
  | .node id =>
      if (draft.tree.kind? id).any ConstructKind.isAnonymousType then
        return { draft with stack := ← draft.stack.popNode statement id }
      else
        return draft
  | _ => return draft

/-- Puts a complete type into a construct, and says which member of a union it
has become. -/
def placeType (use : TypeUse) : Construct → Option (Construct × Option Nat)
  | .leaf body => some (.leaf { body with type := some use }, none)
  | .leafList body => some (.leafList { body with type := some use }, none)
  | .typedef body => some (.typedef { body with type := some use }, none)
  | .union members =>
      some (.union (members ++ [use]), some members.length)
  | _ => none

/-- The reference that a use of a type makes. A relative leafref inside a
grouping is looked up where the grouping is used. -/
def typeReference? (tree : SchemaTree) (use : TypeUse) (slot : TypeSlot) :
    Option (ReferenceKind × String) :=
  match use.builtin with
  | none => some (.derivedType slot, use.name.text)
  | some .leafref =>
      match use.path with
      | some path =>
          if tree.isWithin slot.node .grouping && !isAbsolutePath path then
            none
          else
            some (.leafref slot, path)
      | none => none
  | some .identityref => use.base.map fun base => (.identityref slot, base.text)
  | some _ => none

def closeType : Step := fun draft statement => do
  let draft ← draft.closeMembers statement
  let (use, draft) ← draft.closeFrame statement .type fun
    | .type use => some use
    | _ => none
  checkTypeBody statement use
  match ← draft.stack.top statement .exit with
  | .node holder =>
      match (draft.tree.construct? holder).bind (placeType use) with
      | none => throw (draft.invalidHolder statement)
      | some (construct, member) =>
          let draft := draft.modifyConstruct holder fun _ => construct
          if draft.isTemplate holder then
            return draft
          match typeReference? draft.tree use ⟨holder, member⟩ with
          | some (kind, text) =>
              return draft.enqueue statement kind text holder
          | none => return draft
  | _ => throw (draft.invalidHolder statement)

/-- The type on top of the stack, if it is derived and `derived` allows that,
or if its built-in type is accepted. -/
def typeHolder (draft : Draft) (statement : Statement)
    (accepts : BuiltinType → Bool) (derived : Bool) :
    Except StatementError TypeUse := do
  match ← draft.stack.top statement .entry with
  | .type use =>
      if (use.builtin.map accepts).getD derived then
        return use
      else
        throw (draft.invalidHolder statement)
  | _ => throw (draft.invalidHolder statement)

/-- Writes into the type on top of the stack. -/
def fillType (draft : Draft) (statement : Statement)
    (change : TypeUse → TypeUse) : Except StatementError Draft :=
  draft.fill statement
    (fun
      | .type use => some (.type (change use))
      | _ => none)
    (fun _ => none)

/-- A restriction that has been read up to its sub-statements. -/
def intervalRestriction (statement : Statement) (intervals : Intervals) :
    IntervalRestriction :=
  { intervals
    explanation := .empty
    position := statement.position
    span := statement.headSpan }

def openRange : Step := fun draft statement => do
  let intervals ← statement.intervalsArgument .range
  Cardinality.check statement
  let _ ← draft.typeHolder statement BuiltinType.supportsRange true
  return draft.push (.range (intervalRestriction statement intervals))

def closeRange : Step := fun draft statement => do
  let (range, draft) ← draft.closeFrame statement .range fun
    | .range restriction => some restriction
    | _ => none
  draft.fillType statement ({ · with range := some range })

def openLength : Step := fun draft statement => do
  let intervals ← statement.intervalsArgument .length
  Cardinality.check statement
  let _ ← draft.typeHolder statement BuiltinType.supportsLength true
  return draft.push (.length (intervalRestriction statement intervals))

def closeLength : Step := fun draft statement => do
  let (length, draft) ← draft.closeFrame statement .length fun
    | .length restriction => some restriction
    | _ => none
  draft.fillType statement ({ · with length := some length })

def openPattern : Step := fun draft statement => do
  let regex ← statement.patternArgument
  Cardinality.check statement
  let _ ← draft.typeHolder statement BuiltinType.supportsPattern true
  return draft.push (.pattern ⟨regex, .empty⟩)

def closePattern : Step := fun draft statement => do
  let (pattern, draft) ← draft.closeFrame statement .pattern fun
    | .pattern restriction => some restriction
    | _ => none
  draft.fillType statement fun use =>
    { use with patterns := use.patterns ++ [pattern] }

def readFractionDigits : Step := fun draft statement => do
  let digits ← statement.fractionDigitsArgument
  let _ ← draft.typeHolder statement (· == .decimal64) false
  draft.fillType statement ({ · with fractionDigits := some digits })

def readPath : Step := fun draft statement => do
  let _ ← statement.leafrefPathArgument
  let path ← statement.requiredArgument
  let _ ← draft.typeHolder statement (· == .leafref) false
  draft.fillType statement ({ · with path := some path })

def takesRequireInstance (builtin : BuiltinType) : Bool :=
  builtin == .leafref || builtin == .instanceIdentifier

def readRequireInstance : Step := fun draft statement => do
  let value ← statement.booleanArgument
  let _ ← draft.typeHolder statement takesRequireInstance false
  draft.fillType statement ({ · with requireInstance := some value })

/-- The base of an identity, or of an identityref type. -/
def readBase : Step := fun draft statement => do
  let base ← statement.nameArgument
  match ← draft.stack.top statement .entry with
  | .type _ =>
      let _ ← draft.typeHolder statement (· == .identityref) false
      draft.fillType statement ({ · with base := some base })
  | _ =>
      let id ← draft.nodeHolder statement (· == .identity)
      let draft := draft.modifyConstruct id fun
        | .identity body => .identity { body with base := some base }
        | construct => construct
      return draft.enqueue statement .base base.text id

end Draft

end YangSchema
