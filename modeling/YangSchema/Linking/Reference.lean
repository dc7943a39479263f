import YangSchema.Schema.Tree
import YangSchema.Statement.Path

/-!
# References to be linked

Reading a unit leaves references behind: names of groupings, typedefs,
identities and features, and paths. They wait in the order in which they were
found. References are linked rank by rank, because a lower rank may make a
higher one resolvable.
-/

namespace YangSchema

/-- Where the result of linking a type goes: the type of a node, or a member of
a union. -/
structure TypeSlot where
  node : NodeId
  member : Option Nat
  deriving DecidableEq, Repr

inductive ReferenceKind where
  | uses
  | derivedType (slot : TypeSlot)
  | base
  | identityref (slot : TypeSlot)
  | ifFeature (index : Nat)
  | leafref (slot : TypeSlot)
  | augment
  deriving DecidableEq, Repr

namespace ReferenceKind

def rank : ReferenceKind → Nat
  | uses => 0
  | derivedType _ => 1
  | base => 2
  | identityref _ => 3
  | ifFeature _ => 4
  | leafref _ => 5
  | augment => 6

/-- The number of ranks. -/
def rankCount : Nat :=
  7

/-- The keyword of the statement that makes the reference. -/
def keyword : ReferenceKind → String
  | uses => "uses"
  | derivedType _ => "type"
  | base => "base"
  | identityref _ => "base"
  | ifFeature _ => "if-feature"
  | leafref _ => "path"
  | augment => "augment"

def isLeafref : ReferenceKind → Bool
  | leafref _ => true
  | _ => false

end ReferenceKind

/-- Where a reference was written that is checked on behalf of another place.
Its result stays in the queue. -/
inductive Origin where
  /-- A member of a union that a typedef declares; `typedefs` are those expanded
  on the way. -/
  | unionMember (union : NodeRef) (member : Nat) (typedefs : List NodeRef)
  /-- A leafref of a leaf in a grouping, at the innermost of the `uses`. -/
  | grouping (leaf : NodeRef) (uses : List NodeRef)
  deriving DecidableEq, Repr

/-- Why a target that was found cannot be used. -/
inductive LinkFailure where
  | invalidName (reference : String)
  | ownBase (reference : String)
  | missingType
  | recursiveUnion (typedef : String)
  | recursiveGrouping (grouping : String)
  | badPath (error : PathError)
  | notALeaf (path : String) (kind : ConstructKind)
  | descendantOutsideUses (path : String)
  | cannotAugment (path : String) (kind : ConstructKind)
  | aboveModule (path : String)
  | leavesGrouping (path : String)
  | circularTypedefs (chain : List String) (again : String)
  | notWithin (keyword : String) (restriction inherited : Intervals)
  | inapplicable (keyword : String) (builtin : BuiltinType)
  | stated (reason : String)
  deriving DecidableEq, Repr

def LinkFailure.message : LinkFailure → String
  | invalidName reference => s!"`{reference}` is not a valid name"
  | ownBase reference => s!"identity `{reference}` is derived from itself"
  | missingType => "type statement vanished"
  | recursiveUnion typedef =>
      s!"typedef `{typedef}` contains itself through a union member"
  | recursiveGrouping grouping =>
      s!"grouping `{grouping}` is used inside its own definition"
  | badPath error => error.message
  | notALeaf path kind =>
      s!"`{path}` points to a {kind.keyword}, not a leaf or leaf-list"
  | descendantOutsideUses path =>
      s!"`{path}` must be an absolute path outside `uses`"
  | cannotAugment path kind =>
      s!"`{path}` names a {kind.keyword}, which cannot be augmented"
  | aboveModule path => s!"`{path}` climbs above the module"
  | leavesGrouping path => s!"`{path}` leaves the grouping it is defined in"
  | circularTypedefs chain again =>
      "typedef chain `" ++ " -> ".intercalate (chain ++ [again]) ++
        "` is circular"
  | notWithin keyword restriction inherited =>
      s!"{keyword} `{restriction.text}` is not within the inherited `{inherited.text}`"
  | inapplicable keyword builtin =>
      s!"`{keyword}` does not apply to `{builtin.name}`"
  | stated reason => reason

inductive ReferenceState where
  | unresolved
  | resolved (target : NodeRef)
  /-- A target was found that cannot be used. -/
  | failed (failure : LinkFailure)
  /-- The target lies in a unit that failed; this is never reported. -/
  | blocked
  deriving DecidableEq, Repr

structure Reference where
  kind : ReferenceKind
  /-- The name or path as it is written. -/
  text : String
  /-- The node that makes the reference. -/
  consumer : NodeId
  position : Position
  span : Span
  state : ReferenceState
  origin : Option Origin
  deriving DecidableEq, Repr

namespace Reference

/-- A reference that has not been resolved. -/
def ofText (kind : ReferenceKind) (text : String) (consumer : NodeId)
    (position : Position) (span : Span) : Reference :=
  { kind, text, consumer, position, span
    state := .unresolved
    origin := none }

def isPending (reference : Reference) : Bool :=
  reference.state == .unresolved

end Reference

/-- References in the order in which they were found. -/
abbrev ReferenceQueue := List Reference

namespace ReferenceQueue

/-- The places of the pending references of a rank. -/
def pendingOfRank (queue : ReferenceQueue) (rank : Nat) : List Nat :=
  (List.range queue.length).filter fun index =>
    match queue[index]? with
    | some reference => reference.isPending && reference.kind.rank == rank
    | none => false

def pendingCount (queue : ReferenceQueue) : Nat :=
  queue.countP (·.isPending)

def setState (queue : ReferenceQueue) (index : Nat) (state : ReferenceState) :
    ReferenceQueue :=
  queue.modify index fun reference => { reference with state }

end ReferenceQueue

end YangSchema
