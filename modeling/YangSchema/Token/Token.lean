import YangSchema.Source.Position

/-!
# Tokens

A token keeps its text, so that the texts of all tokens of a source add up to
the source, and the place where it starts.
-/

namespace YangSchema

inductive TokenKind where
  | braceOpen
  | braceClose
  | semicolon
  | plus
  | doubleQuoted
  | singleQuoted
  | word
  | whitespace
  | newline
  | lineComment
  | blockComment
  | garbage
  deriving DecidableEq, Repr

namespace TokenKind

/-- Blanks and comments, which separate tokens and mean nothing. -/
def isTrivia : TokenKind → Bool
  | .whitespace | .newline | .lineComment | .blockComment => true
  | _ => false

def isQuoted : TokenKind → Bool
  | .doubleQuoted | .singleQuoted => true
  | _ => false

/-- Kinds whose text can be part of an argument. -/
def isArgumentPart (kind : TokenKind) : Bool :=
  kind == .word || kind.isQuoted

def name : TokenKind → String
  | .braceOpen => "BraceOpen"
  | .braceClose => "BraceClose"
  | .semicolon => "Semicolon"
  | .plus => "Plus"
  | .doubleQuoted => "DqString"
  | .singleQuoted => "SqString"
  | .word => "Word"
  | .whitespace => "Whitespace"
  | .newline => "Newline"
  | .lineComment => "LineComment"
  | .blockComment => "BlockComment"
  | .garbage => "Garbage"

end TokenKind

/-- A byte offset together with its position. -/
structure Cursor where
  offset : Nat
  position : Position
  deriving DecidableEq, Repr

namespace Cursor

def start : Cursor :=
  ⟨0, .start⟩

/-- The cursor behind `text`, when `text` starts at `cursor`. -/
def advance (cursor : Cursor) (text : List Char) : Cursor :=
  ⟨cursor.offset + byteLength text, cursor.position.advanceAll text⟩

end Cursor

structure Token where
  kind : TokenKind
  text : String
  start : Cursor
  deriving DecidableEq, Repr

namespace Token

def stop (token : Token) : Nat :=
  token.start.offset + token.text.utf8ByteSize

def span (token : Token) : Span :=
  ⟨token.start.offset, token.stop⟩

/-- The texts of the tokens one after another. -/
def textOf (tokens : List Token) : String :=
  String.join (tokens.map (·.text))

end Token

end YangSchema
