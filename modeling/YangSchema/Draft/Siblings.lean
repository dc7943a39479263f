import YangSchema.Schema.Tree
import YangSchema.Statement.Error

/-!
# Names among siblings

Siblings of one category must have different names. Cases share a category with
the data nodes that stand directly in a choice.
-/

namespace YangSchema

inductive NameCategory where
  | dataTree
  | case
  | grouping
  | typedef
  | identity
  | feature
  | extension
  | enumMember
  | bitMember
  deriving DecidableEq, Repr

namespace NameCategory

/-- The category of a node of a kind in a parent of another. -/
def of? (kind parent : ConstructKind) : Option NameCategory :=
  match kind with
  | .case => some case
  | .container | .leaf | .leafList | .list | .choice | .anyxml =>
      if parent = .choice then some case else some dataTree
  | .rpc | .notification => some dataTree
  | .grouping => some grouping
  | .typedef => some typedef
  | .identity => some identity
  | .feature => some feature
  | .extension => some extension
  | _ => none

/-- The place of an earlier sibling, with its span if it is a node. -/
abbrev EarlierSibling := Position × Option Span

/-- The first member that stands before `position` and has a name. -/
def earlierMember? (members : List NumberedMember) (position : Position)
    (name : String) : Option EarlierSibling :=
  (members.find? fun member =>
    member.name == name && member.position.before position).map
      fun member => (member.position, none)

/-- The first child of a category that stands before `position` and has a
name. -/
def earlierChild? (tree : SchemaTree) (parent : NodeId)
    (parentKind : ConstructKind) (position : Position) (name : String)
    (category : NameCategory) : Option EarlierSibling :=
  (tree.children parent).findSome? fun child =>
    match tree.node? child with
    | some node =>
        if node.name = name ∧ node.position.before position ∧
            of? node.kind parentKind = some category then
          some (node.position, some node.span)
        else
          none
    | none => none

def earlier? (tree : SchemaTree) (parent : NodeId) (position : Position)
    (name : String) (category : NameCategory) : Option EarlierSibling :=
  match category, tree.construct? parent with
  | enumMember, some (.enumeration members) =>
      earlierMember? members position name
  | bitMember, some (.bits members) => earlierMember? members position name
  | _, some construct =>
      earlierChild? tree parent construct.kind position name category
  | _, none => none

/-- Fails when a sibling that was introduced earlier has the name already. -/
def checkFresh (tree : SchemaTree) (parent : NodeId) (statement : Statement)
    (name : String) (category : NameCategory) : Except StatementError Unit :=
  match earlier? tree parent statement.position name category with
  | none => .ok ()
  | some (position, span) =>
      let error := StatementError.of .duplicateIdentifier statement .entry name
      match span with
      | some span =>
          .error <|
            error.withRelated s!"first defined here at {position.text}" span
      | none => .error error

end NameCategory

end YangSchema
