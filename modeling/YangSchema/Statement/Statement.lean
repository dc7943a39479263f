import YangSchema.Statement.Quoted
import YangSchema.SyntaxTree.SyntaxTree

/-!
# Statements

A statement is a keyword with an optional argument and the statements of its
block. `Statement.ofTree` reads them off a syntax tree and leaves trivia and
error nodes out.
-/

namespace YangSchema

/-- A word, or quoted strings that are joined. -/
structure Argument where
  parts : List Token
  span : Span
  deriving DecidableEq, Repr

namespace Argument

/-- The characters between the first and the last one. -/
def body (token : Token) : List Char :=
  token.text.toList.tail.dropLast

/-- The text that one part stands for. -/
def partValue (token : Token) : List Char :=
  match token.kind with
  | .doubleQuoted => Quoted.decode token.start.position.column (body token)
  | .singleQuoted => body token
  | _ => token.text.toList

def value (argument : Argument) : String :=
  String.ofList (argument.parts.flatMap partValue)

def isQuoted (argument : Argument) : Bool :=
  argument.parts.any (·.kind.isQuoted)

end Argument

structure Statement where
  keyword : Token
  argument : Option Argument
  span : Span
  /-- The span of the block, if the statement has one. -/
  block : Option Span
  substatements : List Statement
  deriving Repr

namespace Statement

/-- The tokens among the children of a node. -/
def tokensAmong (children : List SyntaxTree) : List Token :=
  children.filterMap fun
    | .token token => some token
    | .node _ _ => none

/-- The argument among the children of a statement node. -/
def argumentAmong (children : List SyntaxTree) : Option Argument :=
  children.findSome? fun
    | .node .argument parts =>
        some ⟨(tokensAmong parts).filter (·.kind.isArgumentPart),
          (SyntaxTree.node .argument parts).span⟩
    | _ => none

/-- The span of the block among the children of a statement node. -/
def blockAmong (children : List SyntaxTree) : Option Span :=
  children.findSome? fun
    | .node .block statements => some (SyntaxTree.node .block statements).span
    | _ => none

mutual

/-- The statement that a tree stands for, or none. -/
def ofNode : SyntaxTree → List Statement
  | .node .statement children =>
      match (tokensAmong children).find? (·.kind == .word) with
      | some keyword =>
          [{ keyword
             argument := argumentAmong children
             span := (SyntaxTree.node .statement children).span
             block := blockAmong children
             substatements := ofBlockAmong children }]
      | none => []
  | _ => []

/-- The statements among the children of a root or a block. -/
def ofTrees : List SyntaxTree → List Statement
  | [] => []
  | tree :: trees => ofNode tree ++ ofTrees trees

/-- The statements of a block, or nothing when a tree is no block. -/
def ofBlock? : SyntaxTree → Option (List Statement)
  | .node .block children => some (ofTrees children)
  | _ => none

/-- The statements of the block among the children of a statement node. -/
def ofBlockAmong : List SyntaxTree → List Statement
  | [] => []
  | tree :: trees => (ofBlock? tree).getD (ofBlockAmong trees)

end

/-- The statements at the top level of a syntax tree. -/
def ofTree : SyntaxTree → List Statement
  | .node _ children => ofTrees children
  | .token _ => []

def keywordText (statement : Statement) : String :=
  statement.keyword.text

def argumentValue (statement : Statement) : Option String :=
  statement.argument.map (·.value)

/-- The keyword and the argument, without what follows. -/
def headSpan (statement : Statement) : Span :=
  let stop :=
    match statement.argument with
    | some argument => argument.span.stop
    | none => statement.keyword.stop
  ⟨statement.keyword.start.offset, stop⟩

/-- Where the keyword starts. -/
def position (statement : Statement) : Position :=
  statement.keyword.start.position

end Statement

/-! ## Columns in a syntax tree

The column at which a leaf of a tree starts can be read off the tree alone. The
leaves in front of it are gone through, the nearest one first, and their
characters are counted back to a line break. Such a column tells how far the
lines of a double-quoted string are indented. -/

/-- The number of characters since the last line break of some tokens, the
nearest of which is the first. -/
def Token.columnBehind : List Token → Nat
  | [] => 0
  | token :: earlier =>
      let text := token.text.toList
      if '\n' ∈ text then (Text.afterLast '\n' text).length
      else text.length + columnBehind earlier

/-- The column, counted from zero, at which a leaf starts. -/
def SyntaxTree.columnOf (tree : SyntaxTree) (leaf : Token) : Nat :=
  Token.columnBehind (tree.tokens.takeWhile (· ≠ leaf)).reverse

end YangSchema
