import YangSchema.Source.Position
import YangSchema.Text.Blank
import YangSchema.Text.Width

/-!
# Places in the lines of a source

A source is cut into lines at line feeds; a carriage return before one belongs
to the break. An empty source has one empty line, and nothing follows a final
line feed. An offset lies in the line whose bytes, break included, hold it, and
in the last line when it lies behind all of them.
-/

namespace YangSchema.Snippet

structure SourceLine where
  /-- Counted from one. -/
  number : Nat
  text : List Char
  /-- The offset of its first byte. -/
  start : Nat
  /-- Bytes of the line break, if there is one. -/
  breakSize : Nat
  deriving DecidableEq, Repr

namespace SourceLine

/-- The offset behind the text, before the break. -/
def textEnd (line : SourceLine) : Nat :=
  line.start + byteLength line.text

def stop (line : SourceLine) : Nat :=
  line.textEnd + line.breakSize

/-- The text up to a line feed, with the size of the break behind it. -/
def ofFedText (number start : Nat) (text : List Char) : SourceLine :=
  match text.reverse with
  | '\r' :: reversed => ⟨number, reversed.reverse, start, 2⟩
  | _ => ⟨number, text, start, 1⟩

/-- The lines of a text whose first characters, `pending` in reverse, have been
read already. -/
def cut (number start : Nat) (pending : List Char) :
    List Char → List SourceLine
  | [] =>
      if pending.isEmpty then []
      else [⟨number, pending.reverse, start, 0⟩]
  | c :: rest =>
      if c = '\n' then
        let line := ofFedText number start pending.reverse
        line :: cut (number + 1) line.stop [] rest
      else
        cut number start (c :: pending) rest

end SourceLine

/-- The lines of a source, of which there is always one. -/
def sourceLines (source : List Char) : List SourceLine :=
  if source.isEmpty then [⟨1, [], 0, 0⟩]
  else SourceLine.cut 1 0 [] source

/-- One place, counted in four ways: its line from one, the characters and the
columns before it in that line, and its byte offset. -/
structure Place where
  line : Nat
  character : Nat
  column : Nat
  offset : Nat
  deriving DecidableEq, Repr

/-- The line that holds an offset. -/
def lineAt? (lines : List SourceLine) (offset : Nat) : Option SourceLine :=
  (lines.find? fun line => line.start ≤ offset && offset < line.stop).or
    lines.getLast?

/-- The leading characters that take at most `size` bytes. -/
def takeBytes (size : Nat) : List Char → List Char
  | [] => []
  | c :: rest =>
      if c.utf8Size ≤ size then c :: takeBytes (size - c.utf8Size) rest
      else []

namespace Place

/-- The place of an offset that lies in the given line. -/
def inLine (line : SourceLine) (offset : Nat) : Place :=
  let before := takeBytes (offset - line.start) line.text
  ⟨line.number, before.length, Text.width before, offset⟩

/-- The place where a span starts; behind the text of a line it counts the
break as a character. -/
def ofStart (line : SourceLine) (offset : Nat) : Place :=
  let place := inLine line offset
  if line.textEnd < offset then
    { place with character := place.character + 1 }
  else
    place

/-- The place where a span that starts at `start` stops. When the span covers
several lines, a break at its end counts as a character of one column. -/
def ofStop (start : Place) (line : SourceLine) (offset : Nat) : Place :=
  let place := inLine line offset
  if start.line ≠ place.line ∧ line.textEnd < offset then
    { place with
      character := place.character + 1
      column := place.column + 1 }
  else
    place

end Place

/-- The two ends of a span. -/
def places (lines : List SourceLine) (span : Span) : Place × Place :=
  match lineAt? lines span.start, lineAt? lines span.stop with
  | some startLine, some stopLine =>
      let start := Place.ofStart startLine span.start
      if span.isEmpty then (start, start)
      else (start, Place.ofStop start stopLine span.stop)
  | _, _ => (⟨1, 0, 0, span.start⟩, ⟨1, 0, 0, span.stop⟩)

end YangSchema.Snippet
