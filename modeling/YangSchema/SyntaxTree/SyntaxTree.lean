import YangSchema.Token.Token

/-!
# Syntax trees

The leaves of a syntax tree are all tokens of a source, trivia included, in
their order; its inner nodes group them into statements.
-/

namespace YangSchema

inductive SyntaxKind where
  | root
  | statement
  | argument
  | block
  | error
  deriving DecidableEq, Repr

def SyntaxKind.name : SyntaxKind → String
  | .root => "Root"
  | .statement => "Statement"
  | .argument => "Argument"
  | .block => "Block"
  | .error => "Error"

inductive SyntaxTree where
  | token (token : Token)
  | node (kind : SyntaxKind) (children : List SyntaxTree)
  deriving Repr

namespace SyntaxTree

mutual

/-- The leaves from left to right. -/
def tokens : SyntaxTree → List Token
  | token leaf => [leaf]
  | node _ children => tokensOfAll children

def tokensOfAll : List SyntaxTree → List Token
  | [] => []
  | tree :: trees => tree.tokens ++ tokensOfAll trees

end

/-- From the first token to the last one. -/
def spanOfTokens (tokens : List Token) : Span :=
  match tokens.head?, tokens.getLast? with
  | some first, some last => ⟨first.start.offset, last.stop⟩
  | _, _ => ⟨0, 0⟩

/-- The bytes that the leaves cover. -/
def span (tree : SyntaxTree) : Span :=
  spanOfTokens tree.tokens

/-- The source that the leaves add up to. -/
def text (tree : SyntaxTree) : String :=
  Token.textOf tree.tokens

private def indented (depth : Nat) (line : String) : String :=
  String.ofList (List.replicate (2 * depth) ' ') ++ line ++ "\n"

mutual

/-- One line for every node and every token that is not trivia, indented by
its depth. -/
def outlineAt (depth : Nat) : SyntaxTree → String
  | token leaf =>
      if leaf.kind.isTrivia then ""
      else indented depth (leaf.kind.name ++ " " ++ leaf.text)
  | node kind children =>
      indented depth kind.name ++ outlineOfAll (depth + 1) children

def outlineOfAll (depth : Nat) : List SyntaxTree → String
  | [] => ""
  | tree :: trees => tree.outlineAt depth ++ outlineOfAll depth trees

end

def outline (tree : SyntaxTree) : String :=
  tree.outlineAt 0

end SyntaxTree

end YangSchema
