import YangSchema.Schema.Tree
import YangSchema.Statement.Error

/-!
# The stack of open statements

A frame is a node that is in the tree already, or a part of one that is still
being filled and moves into its holder when its statement ends. The top of the
stack is the holder of the statement that is being read.
-/

namespace YangSchema

inductive Frame where
  | node (id : NodeId)
  | type (use : TypeUse)
  | range (restriction : IntervalRestriction)
  | length (restriction : IntervalRestriction)
  | pattern (restriction : PatternRestriction)
  | enum (member : NumberedMember)
  | bit (member : NumberedMember)
  | importing (declaration : Import)
  | including (declaration : Include)
  | revision (revision : Revision)
  | belongsTo (belongsTo : BelongsTo)
  | must (must : Must)
  | when (when : When)
  | refine (refine : Refine)
  | argument (argument : ExtensionArgument)
  deriving DecidableEq, Repr

/-- A frame without its content. -/
inductive FrameKind where
  | node
  | type
  | range
  | length
  | pattern
  | enum
  | bit
  | importing
  | including
  | revision
  | belongsTo
  | must
  | when
  | refine
  | argument
  deriving DecidableEq, Repr

def FrameKind.name : FrameKind → String
  | .node => "node"
  | .type => "type"
  | .range => "range"
  | .length => "length"
  | .pattern => "pattern"
  | .enum => "enum"
  | .bit => "bit"
  | .importing => "import"
  | .including => "include"
  | .revision => "revision"
  | .belongsTo => "belongs-to"
  | .must => "must"
  | .when => "when"
  | .refine => "refine"
  | .argument => "argument"

def FrameKind.all : List FrameKind :=
  [.node, .type, .range, .length, .pattern, .enum, .bit, .importing,
    .including, .revision, .belongsTo, .must, .when, .refine, .argument]

def FrameKind.ofName? (name : String) : Option FrameKind :=
  all.find? (·.name == name)

namespace Frame

def kind : Frame → FrameKind
  | node _ => .node
  | type _ => .type
  | range _ => .range
  | length _ => .length
  | pattern _ => .pattern
  | enum _ => .enum
  | bit _ => .bit
  | importing _ => .importing
  | including _ => .including
  | revision _ => .revision
  | belongsTo _ => .belongsTo
  | must _ => .must
  | when _ => .when
  | refine _ => .refine
  | argument _ => .argument

def node? : Frame → Option NodeId
  | node id => some id
  | _ => none

end Frame

/-- The open frames, the innermost first. -/
abbrev FrameStack := List Frame

namespace FrameStack

def emptyError (statement : Statement) (phase : Phase) : StatementError :=
  .of .stackEmpty statement phase "no open holder"

def mismatch (statement : Statement) (detail : String) : StatementError :=
  .of .holderMismatch statement .exit detail

/-- The top of the stack. -/
def top (stack : FrameStack) (statement : Statement) (phase : Phase) :
    Except StatementError Frame :=
  match stack with
  | [] => .error (emptyError statement phase)
  | frame :: _ => .ok frame

/-- Takes the top off and reads its content, which frames of the expected kind
have. -/
def take {α : Type} (stack : FrameStack) (statement : Statement)
    (expected : FrameKind) (content? : Frame → Option α) :
    Except StatementError (α × FrameStack) :=
  match stack with
  | [] => .error (emptyError statement .exit)
  | frame :: rest =>
      match content? frame with
      | some content => .ok (content, rest)
      | none =>
          .error <| mismatch statement
            s!"expected `{expected.name}` on top, found `{frame.kind.name}`"

/-- Takes the top off, which must be of the expected kind. -/
def pop (stack : FrameStack) (statement : Statement) (expected : FrameKind) :
    Except StatementError (Frame × FrameStack) :=
  stack.take statement expected fun frame =>
    if frame.kind = expected then some frame else none

/-- Takes the top off, which must be a given node. -/
def popNode (stack : FrameStack) (statement : Statement) (id : NodeId) :
    Except StatementError FrameStack :=
  match stack with
  | [] => .error (emptyError statement .exit)
  | frame :: rest =>
      if frame.node? = some id then
        .ok rest
      else
        .error <| mismatch statement
          s!"expected node `{id}` on top, found `{frame.kind.name}`"

end FrameStack

end YangSchema
