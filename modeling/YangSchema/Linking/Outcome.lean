import YangSchema.Linking.Derivation
import YangSchema.Linking.Steps

/-!
# What becomes of one reference

The outcome of a reference is computed against a scene without changing it. A
derived type whose typedef chain ends in a union brings in references for the
members of that union, which are checked on behalf of the consumer.
-/

namespace YangSchema

inductive Outcome where
  /-- Nothing matches yet. -/
  | pending
  | blocked
  | failed (failure : LinkFailure)
  | target (target : NodeRef)
  /-- A derived type, with references for the members of its union. -/
  | derived (derivation : Derivation) (members : List Reference)
  deriving DecidableEq, Repr

def Outcome.ofMiss : Miss → Outcome
  | .notFound => .pending
  | .blocked => .blocked
  | .failed failure => .failed failure

namespace SchemaTree

/-- The type at a slot. -/
def typeAt? (tree : SchemaTree) (slot : TypeSlot) : Option TypeUse :=
  match slot.member, tree.construct? slot.node with
  | none, some construct => construct.type?
  | some index, some (.union members) => members[index]?
  | _, _ => none

/-- Changes the links of the type at a slot. -/
def modifyLinks (tree : SchemaTree) (slot : TypeSlot)
    (change : TypeLinks → TypeLinks) : SchemaTree :=
  let changeUse (use : TypeUse) : TypeUse :=
    { use with links := change use.links }
  tree.modifyConstruct slot.node fun construct =>
    match slot.member, construct with
    | none, construct => construct.mapType changeUse
    | some index, .union members => .union (members.modify index changeUse)
    | _, construct => construct

end SchemaTree

namespace Scene

/-- The reference that a member of a union makes, if it makes one. -/
def memberReference? (item : Reference) (slot : TypeSlot) (union : NodeRef)
    (typedefs : List NodeRef) (member : Nat) (use : TypeUse) :
    Option Reference :=
  let reference (kind : ReferenceKind) (text : String) : Reference :=
    { Reference.ofText kind text item.consumer item.position item.span with
      origin := some (.unionMember union member typedefs) }
  match use.builtin with
  | none => some (reference (.derivedType slot) use.name.text)
  | some .leafref => use.path.map (reference (.leafref slot))
  | some .identityref =>
      use.base.map fun base => reference (.identityref slot) base.text
  | some _ => none

/-- The references that the members of a union make on behalf of `item`;
unions inside it are flattened. -/
def memberReferences (scene : Scene) (item : Reference) (slot : TypeSlot)
    (typedefs : List NodeRef) : Nat → NodeRef → List Reference
  | 0, _ => []
  | bound + 1, union =>
      match scene.construct? union with
      | some (.union members) =>
          members.zipIdx.flatMap fun (use, member) =>
            match use.builtin, use.members with
            | some .union, some nested =>
                memberReferences scene item slot typedefs bound
                  ⟨union.source, nested⟩
            | some .union, none => []
            | _, _ =>
                (memberReference? item slot union typedefs member use).toList
      | _ => []

/-- The typedefs expanded on the way to a reference. -/
def expandedTypedefs (item : Reference) : List NodeRef :=
  match item.origin with
  | some (.unionMember _ _ typedefs) => typedefs
  | _ => []

/-- The references for the members of the union that a typedef declares. -/
def unionReferences (scene : Scene) (item : Reference) (slot : TypeSlot)
    (typedef : NodeRef) : Lookup (List Reference) :=
  let expanded := expandedTypedefs item
  if expanded.contains typedef then
    .error (.failed (.recursiveUnion (scene.nameOf typedef)))
  else
    match (scene.type? typedef).bind (·.members) with
    | none => .ok []
    | some union =>
        .ok (scene.memberReferences item slot (expanded ++ [typedef])
          (scene.nodeCount + 1) ⟨typedef.source, union⟩)

/-- The place and the type that a reference to a typedef stands for. -/
def derivedUse (scene : Scene) (source : SourceId) (item : Reference)
    (slot : TypeSlot) : NodeRef × Option TypeUse :=
  match item.origin with
  | some (.unionMember union member _) =>
      (union, (scene.tree? union.source).bind
        (·.typeAt? ⟨union.node, some member⟩))
  | _ =>
      (⟨source, slot.node⟩, (scene.tree? source).bind (·.typeAt? slot))

/-- The outcome of a reference to a typedef. -/
def derivedOutcome (scene : Scene) (source : SourceId) (item : Reference)
    (slot : TypeSlot) : Lookup Outcome := do
  let (place, use?) := scene.derivedUse source item slot
  match use? with
  | none => throw (.failed .missingType)
  | some use =>
      let derivation ← scene.derive place use
      match derivation.effective.membersFrom, derivation.effective.builtin with
      | some typedef, .union =>
          return .derived derivation
            (← scene.unionReferences item slot typedef)
      | _, _ => return .derived derivation []

/-- The qualified name that a reference is written as. -/
def referenceName (item : Reference) : Lookup QualifiedName :=
  match QualifiedName.parse? item.text with
  | some name => .ok name
  | none => .error (.failed (.invalidName item.text))

/-- The place from which a name is looked up. -/
def referencePlace (source : SourceId) (item : Reference) : NodeRef :=
  match item.origin with
  | some (.unionMember union _ _) => union
  | _ => ⟨source, item.consumer⟩

/-- The outcome of a reference, or why nothing was found. -/
def lookupReference (scene : Scene) (source : SourceId) (item : Reference) :
    Lookup Outcome := do
  let place := referencePlace source item
  match item.kind with
  | .uses => return .target (← scene.grouping place (← referenceName item))
  | .derivedType slot => scene.derivedOutcome source item slot
  | .base =>
      let name ← referenceName item
      let target ← scene.topLevel place.source name .identity
      if target = place then
        throw (.failed (.ownBase item.text))
      return .target target
  | .identityref _ =>
      let name ← referenceName item
      return .target (← scene.topLevel place.source name .identity)
  | .ifFeature _ =>
      let name ← referenceName item
      return .target (← scene.topLevel place.source name .feature)
  | .leafref slot =>
      match item.origin with
      | some (.grouping leaf uses) =>
          return .target (← scene.leafref leaf item.text uses)
      | _ => return .target (← scene.leafref ⟨source, slot.node⟩ item.text [])
  | .augment => return .target (← scene.augmentTarget place item.text)

def outcome (scene : Scene) (source : SourceId) (item : Reference) : Outcome :=
  match scene.lookupReference source item with
  | .ok outcome => outcome
  | .error miss => .ofMiss miss

end Scene

end YangSchema
