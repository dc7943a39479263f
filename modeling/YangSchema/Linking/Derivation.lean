import YangSchema.Linking.Scope

/-!
# Typedef chains

A derived type names a typedef, whose type may name another one, down to a
built-in type. Each typedef is looked up where the name is written. From the
built-in end outwards every layer may only narrow the value space that it
inherits.
-/

namespace YangSchema

/-- What a derived type amounts to. -/
structure Derivation where
  /-- The typedef that the type names. -/
  typedef : NodeRef
  effective : EffectiveType
  /-- The identity that an identityref at the end of the chain is based on. -/
  identity : Option NodeRef
  /-- The leafref path at the end of the chain. -/
  leafref : Option String
  deriving DecidableEq, Repr

/-- The end of a typedef chain. -/
structure ChainEnd where
  /-- The typedef that names the built-in type. -/
  typedef : NodeRef
  builtin : BuiltinType
  /-- The types on the way, that of the built-in end last. -/
  layers : List TypeUse
  deriving DecidableEq, Repr

/-- What the layers seen so far leave of the value space. -/
structure ValueSpace where
  range : Option Intervals
  length : Option Intervals
  rangeRestricted : Bool
  lengthRestricted : Bool
  patterns : List String
  deriving DecidableEq, Repr

namespace ValueSpace

/-- The value space of a built-in type that nothing restricts. -/
def ofBuiltin (builtin : BuiltinType) (fractionDigits : Option Nat) :
    ValueSpace :=
  { range := builtin.naturalRange? fractionDigits
    length := builtin.naturalLength?
    rangeRestricted := false
    lengthRestricted := false
    patterns := [] }

/-- The intervals of a restriction inside those that it inherits. -/
def narrow (keyword : String) (builtin : BuiltinType)
    (restriction : Intervals) : Option Intervals → Lookup Intervals
  | none => .error (.failed (.inapplicable keyword builtin))
  | some inherited =>
      if restriction.isWithin inherited then
        .ok (restriction.resolve inherited)
      else
        .error (.failed (.notWithin keyword restriction inherited))

def restrictRange (builtin : BuiltinType) (layer : TypeUse)
    (space : ValueSpace) : Lookup ValueSpace :=
  match layer.range with
  | none => .ok space
  | some restriction => do
      let range ← narrow "range" builtin restriction.intervals space.range
      return { space with range := some range, rangeRestricted := true }

def restrictLength (builtin : BuiltinType) (layer : TypeUse)
    (space : ValueSpace) : Lookup ValueSpace :=
  match layer.length with
  | none => .ok space
  | some restriction => do
      let length ← narrow "length" builtin restriction.intervals space.length
      return { space with length := some length, lengthRestricted := true }

def restrictPatterns (builtin : BuiltinType) (layer : TypeUse)
    (space : ValueSpace) : Lookup ValueSpace :=
  if layer.patterns.isEmpty then
    .ok space
  else if builtin.supportsPattern then
    .ok { space with
      patterns := space.patterns ++ layer.patterns.map (·.regex) }
  else
    .error (.failed (.inapplicable "pattern" builtin))

/-- The value space inside the restrictions of one layer more. -/
def restrict (builtin : BuiltinType) (space : ValueSpace) (layer : TypeUse) :
    Lookup ValueSpace := do
  let space ← restrictRange builtin layer space
  let space ← restrictLength builtin layer space
  restrictPatterns builtin layer space

end ValueSpace

/-- The effective type of layers that end in a built-in type. -/
def EffectiveType.ofLayers (builtin : BuiltinType) (layers : List TypeUse) :
    Lookup EffectiveType := do
  let fractionDigits := layers.getLast?.bind (·.fractionDigits)
  let space ← layers.reverse.foldlM (ValueSpace.restrict builtin)
    (ValueSpace.ofBuiltin builtin fractionDigits)
  return {
    builtin, fractionDigits
    range := if space.rangeRestricted then space.range else none
    length := if space.lengthRestricted then space.length else none
    patterns := space.patterns
    membersFrom := none }

namespace Scene

/-- Follows a chain from the typedef `current`, with the typedefs and the types
met so far; a typedef never comes twice. -/
def chainEnd (scene : Scene) :
    Nat → NodeRef → List NodeRef → List TypeUse → Lookup ChainEnd
  | 0, _, _, _ => .error .notFound
  | bound + 1, current, chain, layers =>
      match scene.type? current with
      | none => .error .notFound
      | some use =>
          let layers := layers ++ [use]
          match use.builtin with
          | some builtin => .ok ⟨current, builtin, layers⟩
          | none => do
              let next ← scene.lexical current use.name .typedef
              if chain.contains next then
                throw (.failed (.circularTypedefs (chain.map scene.nameOf)
                  (scene.nameOf next)))
              chainEnd scene bound next (chain ++ [next]) layers

/-- The identity that an identityref type at the end of a chain is based on. -/
def baseIdentity (scene : Scene) (typedef : NodeRef) (use : TypeUse)
    (builtin : BuiltinType) : Lookup (Option NodeRef) :=
  match use.base, builtin with
  | some name, .identityref => do
      return some (← scene.topLevel typedef.source name .identity)
  | _, _ => .ok none

/-- Follows the typedefs from a type that is written at `place`. -/
def derive (scene : Scene) (place : NodeRef) (use : TypeUse) :
    Lookup Derivation := do
  let first ← scene.lexical place use.name .typedef
  let found ← scene.chainEnd (scene.nodeCount + 1) first [first] [use]
  let effective ← EffectiveType.ofLayers found.builtin found.layers
  let base := found.layers.getLastD use
  let identity ← scene.baseIdentity found.typedef base found.builtin
  return {
    typedef := first
    effective :=
      if found.builtin.hasMembers then
        { effective with membersFrom := some found.typedef }
      else
        effective
    identity
    leafref := if found.builtin = .leafref then base.path else none }

end Scene

end YangSchema
