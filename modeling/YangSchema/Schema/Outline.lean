import YangSchema.Schema.Tree

/-!
# Outlines of schema trees

An outline has one line for every node, indented by its depth: the keyword of
its kind, its name, its type, whether it holds configuration, and the nodes
that its references are linked to.
-/

namespace YangSchema.SchemaTree

/-- What an outline shows. -/
structure OutlineOptions where
  /-- Trees of other units, which name the targets of links into them. -/
  others : List SchemaTree
  /-- Whether groupings and typedefs are shown. -/
  groupings : Bool

/-- A linked node as `module:name`. -/
def describe (tree : SchemaTree) (others : List SchemaTree)
    (target : NodeRef) : String :=
  let holder :=
    if target.source = tree.source then some tree
    else others.find? (·.source == target.source)
  match holder.bind (·.root?), holder.bind (·.node? target.node) with
  | some root, some node => root.name ++ ":" ++ node.name
  | _, _ => "<unknown>"

def outlineTarget (tree : SchemaTree) (others : List SchemaTree) :
    Option NodeRef → String
  | some target => " -> " ++ tree.describe others target
  | none => " -> ?"

/-- The name of a type with what it is linked to. -/
def outlineType (tree : SchemaTree) (others : List SchemaTree) :
    Option TypeUse → String
  | none => ""
  | some use =>
      let effective :=
        match use.isDerived, use.links.effective with
        | true, some effective => " <" ++ effective.builtin.name ++ ">"
        | _, _ => ""
      let leafref :=
        if use.path.isSome ∨ use.links.leafrefTarget.isSome then
          tree.outlineTarget others use.links.leafrefTarget
        else
          ""
      let identity :=
        if use.base.isSome ∨ use.links.identity.isSome then
          tree.outlineTarget others use.links.identity
        else
          ""
      ": " ++ use.name.text ++ effective ++ leafref ++ identity

private def braced (pieces : List String) : String :=
  " \x7b" ++ ", ".intercalate pieces ++ "\x7d"

/-- What an outline shows of a construct in front of its configuration. -/
def outlineBody (tree : SchemaTree) (others : List SchemaTree) :
    Construct → String
  | .leaf body => tree.outlineType others body.type
  | .leafList body => tree.outlineType others body.type
  | .typedef body => tree.outlineType others body.type
  | .enumeration members =>
      braced <| members.map fun member =>
        member.name ++ "=" ++ toString member.number
  | .bits members =>
      braced <| members.map fun member =>
        member.name ++ "@" ++ toString member.number
  | .union members =>
      " (" ++ " | ".intercalate (members.map (·.name.text)) ++ ")"
  | _ => ""

/-- What an outline shows of a construct behind its configuration. -/
def outlineTail (tree : SchemaTree) (others : List SchemaTree) :
    Construct → String
  | .list body =>
      if body.keys.isEmpty then "" else " key=" ++ ",".intercalate body.keys
  | .container body => if body.presence.isSome then " presence" else ""
  | .uses body => tree.outlineTarget others body.target
  | .augment body =>
      " " ++ body.targetPath ++ tree.outlineTarget others body.target
  | .identity body =>
      match body.base with
      | some base =>
          " : " ++ base.text ++ tree.outlineTarget others body.baseTarget
      | none => ""
  | _ => ""

def outlineConfig (construct : Construct) : String :=
  match construct.config? with
  | some config => if config.value then " rw" else " ro"
  | none => ""

/-- The line of one node, without its indentation. -/
def outlineLine (tree : SchemaTree) (others : List SchemaTree)
    (node : SchemaNode) : String :=
  let keyword := node.kind.keyword
  let name := if node.name = keyword then "" else " " ++ node.name
  keyword ++ name ++ tree.outlineBody others node.construct ++
    outlineConfig node.construct ++ tree.outlineTail others node.construct

/-- The lines of a node and of what it encloses, to a depth of `levels`. -/
def outlineFrom (tree : SchemaTree) (options : OutlineOptions) :
    Nat → Nat → NodeId → String
  | 0, _, _ => ""
  | levels + 1, depth, id =>
      match tree.node? id with
      | none => ""
      | some node =>
          if !options.groupings &&
              (node.kind == .grouping || node.kind == .typedef) then
            ""
          else
            let indentation := String.ofList (List.replicate (2 * depth) ' ')
            let line := tree.outlineLine options.others node
            let below := (tree.children id).map
              (tree.outlineFrom options levels (depth + 1))
            indentation ++ line ++ "\n" ++ String.join below

/-- The outline of a whole tree. -/
def outline (tree : SchemaTree) (options : OutlineOptions) : String :=
  tree.outlineFrom options tree.size 0 rootId

end YangSchema.SchemaTree
