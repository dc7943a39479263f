import YangSchema.Text.Blank
import YangSchema.Token.Token

/-!
# Cutting a source into tokens

`scan` finds the longest token at the front of a text, as a kind and the
number of characters after the first. Where no token matches, the characters
read before the attempt failed are garbage, and neighbouring garbage is one
token. A quoted string or a block comment that never closes is garbage up to
the end of the source; a backslash in front of a line break ends the attempt
to read a double-quoted string.

Inside a block comment stars are read in pairs, so that a comment ends at the
first `*/` whose star is not the second of a pair.
-/

namespace YangSchema.Lexer

/-- Characters of a word, slashes apart. -/
def isWordCharacter (c : Char) : Bool :=
  !(Text.isBlank c || c == ';' || c == '\x7b' || c == '\x7d' || c == '"' ||
    c == '\'' || c == '/')

/-- Characters that a slash inside a word may stand in front of. -/
def followsSlash (c : Char) : Bool :=
  isWordCharacter c && c != '*'

/-- The number of characters that go on with a word. -/
def wordLength : List Char → Nat
  | [] => 0
  | '/' :: c :: rest => if followsSlash c then wordLength rest + 2 else 0
  | c :: rest => if isWordCharacter c then wordLength rest + 1 else 0

/-- How reading an enclosed text ended, with the number of characters read. -/
inductive Enclosure where
  | closed (length : Nat)
  | broken (length : Nat)
  deriving DecidableEq, Repr

/-- Counts `count` characters more. -/
def Enclosure.add (count : Nat) : Enclosure → Enclosure
  | closed length => closed (length + count)
  | broken length => broken (length + count)

/-- What follows an opening double quote. -/
def doubleQuoted : List Char → Enclosure
  | [] => .broken 0
  | '"' :: _ => .closed 1
  | ['\\'] => .broken 1
  | '\\' :: c :: rest =>
      if c = '\n' then .broken 1 else (doubleQuoted rest).add 2
  | _ :: rest => (doubleQuoted rest).add 1

/-- What follows an opening single quote. -/
def singleQuoted : List Char → Enclosure
  | [] => .broken 0
  | '\'' :: _ => .closed 1
  | _ :: rest => (singleQuoted rest).add 1

/-- What follows the two characters that open a block comment. -/
def blockComment : List Char → Enclosure
  | [] => .broken 0
  | ['*'] => .broken 1
  | '*' :: c :: rest =>
      if c = '/' then .closed 2 else (blockComment rest).add 2
  | _ :: rest => (blockComment rest).add 1

/-- The kind and the length of an enclosed text. -/
def enclosedToken (kind : TokenKind) (opening : Nat) :
    Enclosure → TokenKind × Nat
  | .closed length => (kind, opening + length)
  | .broken length => (.garbage, opening + length)

def isBlankInLine (c : Char) : Bool :=
  c == ' ' || c == '\t'

/-- The token that starts with `first`, as its kind and the number of its
characters that stand in `rest`. -/
def scan (first : Char) (rest : List Char) : TokenKind × Nat :=
  match first with
  | '\x7b' => (.braceOpen, 0)
  | '\x7d' => (.braceClose, 0)
  | ';' => (.semicolon, 0)
  | '"' => enclosedToken .doubleQuoted 0 (doubleQuoted rest)
  | '\'' => enclosedToken .singleQuoted 0 (singleQuoted rest)
  | '\n' => (.newline, 0)
  | '\r' => if rest.head? = some '\n' then (.newline, 1) else (.garbage, 0)
  | '/' =>
      match rest with
      | '/' :: comment =>
          (.lineComment, 1 + (comment.takeWhile (· ≠ '\n')).length)
      | '*' :: comment => enclosedToken .blockComment 1 (blockComment comment)
      | c :: word =>
          if followsSlash c then (.word, 1 + wordLength word) else (.garbage, 0)
      | [] => (.garbage, 0)
  | first =>
      if isBlankInLine first then
        (.whitespace, (rest.takeWhile isBlankInLine).length)
      else if isWordCharacter first then
        let length := wordLength rest
        if first = '+' ∧ length = 0 then (.plus, 0) else (.word, length)
      else
        (.garbage, 0)

/-- Puts a token in front, garbage being joined with garbage. -/
def prepend (token : Token) : List Token → List Token
  | [] => [token]
  | next :: rest =>
      if token.kind = .garbage ∧ next.kind = .garbage then
        { token with text := token.text ++ next.text } :: rest
      else
        token :: next :: rest

/-- The tokens of a text that starts at `cursor`. -/
def tokensFrom (cursor : Cursor) : List Char → List Token
  | [] => []
  | first :: rest =>
      let (kind, length) := scan first rest
      let characters := first :: rest.take length
      prepend ⟨kind, String.ofList characters, cursor⟩
        (tokensFrom (cursor.advance characters) (rest.drop length))
  termination_by text => text.length
  decreasing_by simp +arith

end YangSchema.Lexer

namespace YangSchema

/-- The tokens of a source. -/
def lex (source : String) : List Token :=
  Lexer.tokensFrom .start source.toList

end YangSchema
