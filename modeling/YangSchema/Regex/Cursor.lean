import YangSchema.Regex.Error
import YangSchema.Text.Blank

/-!
# The unread part of a pattern

Where the flag `x` is on, blanks and comments between the parts of a pattern
mean nothing and are dropped.
-/

namespace YangSchema.Regex

structure Cursor where
  unread : List Char
  /-- Whether blanks and comments mean nothing. -/
  verbose : Bool
  /-- The names of the groups so far. -/
  names : List (List Char)

/-- Reads some part of a pattern. -/
abbrev Reader :=
  StateT Cursor (Except RegexError)

/-- Drops blanks and comments; a comment goes from `#` to the end of its
line. -/
def dropBlanks : (inComment : Bool) → List Char → List Char
  | _, [] => []
  | true, c :: rest => dropBlanks (c != '\n') rest
  | false, c :: rest =>
      if Text.isBlank c then dropBlanks false rest
      else if c = '#' then dropBlanks true rest
      else c :: rest

/-- The leading characters that are accepted, and what follows them. Blanks and
comments in front of each are dropped if they mean nothing. -/
def spanAccepted (verbose : Bool) (accepts : Char → Bool) :
    (inComment : Bool) → List Char → List Char × List Char
  | _, [] => ([], [])
  | true, c :: rest => spanAccepted verbose accepts (c != '\n') rest
  | false, c :: rest =>
      if verbose && Text.isBlank c then
        spanAccepted verbose accepts false rest
      else if verbose && c = '#' then
        spanAccepted verbose accepts true rest
      else if accepts c then
        let (run, behind) := spanAccepted verbose accepts false rest
        (c :: run, behind)
      else
        ([], c :: rest)

namespace Cursor

/-- The next character behind the current one, blanks apart. -/
def peekBeyond (cursor : Cursor) : Option Char :=
  let rest := cursor.unread.tail
  if cursor.verbose then
    let next :=
      match rest.dropWhile Text.isBlank with
      | '#' :: comment => comment.dropWhile Text.isBlank
      | next => next
    next.head?.or rest.head?
  else
    rest.head?

end Cursor

namespace Reader

def unread : Reader (List Char) :=
  return (← get).unread

def moveTo (rest : List Char) : Reader Unit :=
  modify ({ · with unread := rest })

def peek? : Reader (Option Char) :=
  return (← unread).head?

def atEnd : Reader Bool :=
  return (← unread).isEmpty

/-- Passes the current character. -/
def advance : Reader Unit := do
  moveTo (← unread).tail

def skipBlanks : Reader Unit :=
  modify fun cursor =>
    if cursor.verbose then
      { cursor with unread := dropBlanks false cursor.unread }
    else
      cursor

/-- Passes the current character and the blanks behind it. -/
def advanceFar : Reader Unit := do
  advance
  skipBlanks

/-- Passes the current character; it is an error if nothing follows. -/
def advanceOr (error : RegexError) : Reader Unit := do
  advanceFar
  if ← atEnd then
    throw error

/-- Passes a text if it comes next. -/
def accept (text : String) : Reader Bool := do
  let rest ← unread
  if text.toList.isPrefixOf rest then
    moveTo (rest.drop text.length)
    return true
  else
    return false

/-- Passes the leading characters that are accepted. -/
def takeAccepted (accepts : Char → Bool) : Reader (List Char) := do
  let cursor ← get
  let (run, behind) := spanAccepted cursor.verbose accepts false cursor.unread
  moveTo behind
  return run

end Reader

end YangSchema.Regex
