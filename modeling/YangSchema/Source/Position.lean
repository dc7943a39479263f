/-!
# Positions and spans

A position is a line and a column, both counted from one, the column in
characters. A span is a pair of byte offsets into the UTF-8 form of a text.
`Position.atOffset` walks the text once; an offset inside a character stands
for the start of that character, and one past the end for the end.
-/

namespace YangSchema

structure Position where
  line : Nat
  column : Nat
  deriving DecidableEq, Repr, Inhabited

namespace Position

def start : Position :=
  ⟨1, 1⟩

/-- The position behind `c`, when `c` stands at `position`. -/
def advance (position : Position) (c : Char) : Position :=
  if c = '\n' then ⟨position.line + 1, 1⟩
  else ⟨position.line, position.column + 1⟩

def advanceAll (position : Position) (text : List Char) : Position :=
  text.foldl advance position

/-- Walks over the characters that end at or before the byte `offset`. -/
def walk (position : Position) : List Char → Nat → Position
  | [], _ => position
  | c :: rest, offset =>
      if c.utf8Size ≤ offset then
        walk (position.advance c) rest (offset - c.utf8Size)
      else
        position

/-- The position of a byte offset of `text`. -/
def atOffset (text : List Char) (offset : Nat) : Position :=
  walk start text offset

/-- Reading order: by line, then by column. -/
def before (first second : Position) : Bool :=
  first.line < second.line ||
    (first.line = second.line && first.column < second.column)

def text (position : Position) : String :=
  s!"{position.line}:{position.column}"

end Position

structure Span where
  start : Nat
  stop : Nat
  deriving DecidableEq, Repr, Inhabited

namespace Span

def isEmpty (span : Span) : Bool :=
  span.start = span.stop

/-- Whether `inner` starts later and ends no later than `outer`. -/
def strictlyContains (outer inner : Span) : Bool :=
  outer.start < inner.start && inner.stop ≤ outer.stop

def text (span : Span) : String :=
  s!"{span.start}..{span.stop}"

end Span

/-- Bytes of the UTF-8 form. -/
def byteLength (text : List Char) : Nat :=
  text.foldl (fun total c => total + c.utf8Size) 0

end YangSchema
