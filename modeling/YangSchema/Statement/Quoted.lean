import YangSchema.Text.Blank

/-!
# The text of a double-quoted string

Continuation lines lose leading blanks up to the column behind the opening
quote, a tab counting as eight columns. Blanks in front of a line break are
dropped, and so is one carriage return at the end of each line. Then the
escapes of line break, tab, quote and backslash are replaced; any other
backslash stands for itself.
-/

namespace YangSchema.Quoted

/-- Drops leading blanks that fit into `indent` columns. -/
def stripIndent : Nat → List Char → List Char
  | indent, ' ' :: rest =>
      if 1 ≤ indent then stripIndent (indent - 1) rest else ' ' :: rest
  | indent, '\t' :: rest =>
      if 8 ≤ indent then stripIndent (indent - 8) rest else '\t' :: rest
  | _, line => line

/-- Drops one carriage return at the end. -/
def stripReturn (line : List Char) : List Char :=
  if line.getLast? = some '\r' then line.dropLast else line

/-- Drops spaces and tabs at the end. -/
def trimLineEnd (line : List Char) : List Char :=
  (line.reverse.dropWhile fun c => c == ' ' || c == '\t').reverse

/-- The lines behind the first one, each with the line break before it. -/
def continuation (indent : Nat) : List (List Char) → List Char
  | [] => []
  | [line] => '\n' :: stripIndent indent (stripReturn line)
  | line :: lines =>
      '\n' :: trimLineEnd (stripIndent indent (stripReturn line)) ++
        continuation indent lines

/-- The lines of a body joined after their blanks have been dropped. -/
def joinLines (indent : Nat) : List (List Char) → List Char
  | [] => []
  | [line] => stripReturn line
  | line :: lines =>
      trimLineEnd (stripReturn line) ++ continuation indent lines

def unescape : List Char → List Char
  | '\\' :: 'n' :: rest => '\n' :: unescape rest
  | '\\' :: 't' :: rest => '\t' :: unescape rest
  | '\\' :: '"' :: rest => '"' :: unescape rest
  | '\\' :: '\\' :: rest => '\\' :: unescape rest
  | '\\' :: c :: rest => '\\' :: c :: unescape rest
  | c :: rest => c :: unescape rest
  | [] => []

/-- The text that a body between double quotes stands for. -/
def decode (indent : Nat) (body : List Char) : List Char :=
  unescape (joinLines indent (Text.splitOn '\n' body))

end YangSchema.Quoted
