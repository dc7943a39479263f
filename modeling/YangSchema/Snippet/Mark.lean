import YangSchema.Snippet.Canvas
import YangSchema.Snippet.Place

/-!
# Marks on lines

A highlight marks a span of the source and says something about it. On one
line it is an inline mark. Over several lines it becomes a bracket at the left,
which opens on the first line, runs through lines between, and closes with the
label on the last one. Brackets that share lines run in different lanes.
-/

namespace YangSchema.Snippet

inductive Role where
  | primary
  | context
  deriving DecidableEq, Repr

def Role.ink : Role → Ink
  | .primary => .primary
  | .context => .context

/-- The character that underlines a span. -/
def Role.underline : Role → Char
  | .primary => '^'
  | .context => '-'

structure Highlight where
  span : Span
  role : Role
  label : String
  deriving DecidableEq, Repr

/-- Which part of a highlight a line shows. Lanes count from one. -/
inductive Shape where
  | inline
  | opening (lane : Nat)
  | through (lane : Nat)
  | closing (lane : Nat)
  deriving DecidableEq, Repr

structure Mark where
  start : Place
  stop : Place
  role : Role
  label : Option String
  shape : Shape
  deriving DecidableEq, Repr

/-- Whether two ranges of numbers meet; `margin` widens both at their end. -/
def rangesMeet (margin firstStart firstStop secondStart secondStop : Nat) :
    Bool :=
  (secondStart ≤ firstStart && firstStart < secondStop + margin) ||
    (firstStart ≤ secondStart && secondStart < firstStop + margin)

namespace Mark

def isPrimary (mark : Mark) : Bool :=
  mark.role == .primary

/-- Whether there are words to show. -/
def hasLabel (mark : Mark) : Bool :=
  mark.label.any (!·.isEmpty)

def labelSize (mark : Mark) : Nat :=
  mark.label.elim 0 (·.utf8ByteSize)

/-- Columns under the mark. -/
def width (mark : Mark) : Nat :=
  (mark.stop.column - mark.start.column) +
    (mark.start.column - mark.stop.column)

/-- The lane of a bracket that opens or closes here. -/
def endLane? (mark : Mark) : Option Nat :=
  match mark.shape with
  | .opening lane => some lane
  | .closing lane => some lane
  | _ => none

def opensLane? (mark : Mark) : Option Nat :=
  match mark.shape with
  | .opening lane => some lane
  | _ => none

def isThrough (mark : Mark) : Bool :=
  match mark.shape with
  | .through _ => true
  | _ => false

/-- Whether the columns of two marks meet, with `room` more columns behind the
first. -/
def overlaps (room : Nat) (first second : Mark) : Bool :=
  rangesMeet 0 first.start.column (first.stop.column + room)
    second.start.column second.stop.column

end Mark

/-- A highlight that covers several lines. -/
structure Bracket where
  start : Place
  stop : Place
  role : Role
  label : String
  lane : Nat
  /-- Whether a later bracket has the same ends and is drawn for both. -/
  isDoubled : Bool
  deriving DecidableEq, Repr

namespace Bracket

def sameEnds (first second : Bracket) : Bool :=
  first.start == second.start && first.stop == second.stop

/-- Whether two brackets share a line. -/
def sharesLine (first second : Bracket) : Bool :=
  rangesMeet 1 first.start.line first.stop.line
    second.start.line second.stop.line

/-- Reading order of first lines, the longer bracket first. -/
def precedes (first second : Bracket) : Bool :=
  first.start.line < second.start.line ||
    (first.start.line == second.start.line &&
      second.stop.line ≤ first.stop.line)

/-- Shifts the brackets that share a line with `outer` by one lane, from the
first bracket on up to one that is `outer` itself or apart from it. That last
one becomes primary when it has the ends of a primary bracket seen before. -/
def shift (outer : Bracket) (outerIndex : Nat) (seen : List Bracket) :
    Nat → List Bracket → List Bracket
  | _, [] => []
  | index, bracket :: brackets =>
      if !outer.sameEnds bracket && outer.sharesLine bracket then
        { bracket with lane := bracket.lane + 1 } ::
          shift outer outerIndex seen (index + 1) brackets
      else if outer.sameEnds bracket && index ≠ outerIndex then
        { bracket with isDoubled := true } ::
          shift outer outerIndex seen (index + 1) brackets
      else if seen.any bracket.sameEnds then
        { bracket with role := .primary } :: brackets
      else
        bracket :: brackets

/-- Gives brackets their lanes: the first lane is the one farthest left, and
what shifted most stands there. -/
def inLanes (brackets : List Bracket) : List Bracket :=
  let ordered := brackets.mergeSort precedes
  let shifted := ordered.zipIdx.foldl
    (fun shifted (outer, index) =>
      let seen := (ordered.take (index + 1)).filter (·.role == .primary)
      shift outer index seen 0 shifted)
    ordered
  let deepest := (shifted.map (·.lane)).foldl max 0
  shifted.map fun bracket =>
    { bracket with lane := deepest - bracket.lane + 1 }

/-- Lines that say nothing on their own: blank ones, comments and single
delimiters. Doc comments do say something. -/
def isBare (line : List Char) : Bool :=
  let text := String.ofList (Text.trim line)
  (text.startsWith "//" && !text.startsWith "///" && !text.startsWith "//!") ||
    ["", "\x7b", "\x7d", "(", ")", "[", "]"].contains text

def openingMark (bracket : Bracket) : Mark :=
  { start := bracket.start
    stop := { bracket.start with
      character := bracket.start.character + 1
      column := bracket.start.column + 1
      offset := bracket.start.offset + 1 }
    role := bracket.role
    label := none
    shape := .opening bracket.lane }

def throughMark (bracket : Bracket) : Mark :=
  { start := ⟨0, 0, 0, 0⟩
    stop := ⟨0, 0, 0, 0⟩
    role := bracket.role
    label := none
    shape := .through bracket.lane }

def closingMark (bracket : Bracket) : Mark :=
  { start := { bracket.stop with
      character := bracket.stop.character - 1
      column := bracket.stop.column - 1
      offset := bracket.stop.offset - 1 }
    stop := bracket.stop
    role := bracket.role
    label := some bracket.label
    shape := if bracket.isDoubled then .inline else .closing bracket.lane }

/-- The lines after the first that are shown up to the last of four that says
something. -/
def leadingLines (text? : Nat → Option (List Char)) (bracket : Bracket) :
    List Nat :=
  let first := bracket.start.line
  let middle := min (first + 4) bracket.stop.line
  let last := (List.range' first (middle - first)).reverse.find? fun line =>
    (text? line).any (!isBare ·)
  List.range' (first + 1) (last.elim 0 (· - first))

/-- The line before the last one, when it says something and lies behind the
leading lines. -/
def trailingLines (text? : Nat → Option (List Char)) (bracket : Bracket) :
    List Nat :=
  let middle := min (bracket.start.line + 4) bracket.stop.line
  let line := bracket.stop.line - 1
  if middle < line ∧ !(text? line).any isBare then [line] else []

/-- The marks of a bracket with their lines. -/
def marks (text? : Nat → Option (List Char)) (bracket : Bracket) :
    List (Nat × Mark) :=
  let closing := (bracket.stop.line, bracket.closingMark)
  if bracket.isDoubled then [closing]
  else
    let through :=
      bracket.leadingLines text? ++ bracket.trailingLines text?
    (bracket.start.line, bracket.openingMark) ::
      through.map (·, bracket.throughMark) ++ [closing]

end Bracket

/-- A line of the source with its marks, in the order of their highlights. -/
structure MarkedLine where
  number : Nat
  text : List Char
  marks : List Mark

/-- A highlight by its places: an inline mark, which covers at least one
column, or a bracket. -/
def Highlight.placed (lines : List SourceLine) (highlight : Highlight) :
    Mark ⊕ Bracket :=
  let (start, stop) := places lines highlight.span
  if start.line = stop.line then
    let stop :=
      if start.column = stop.column then
        { stop with column := stop.column + 1 }
      else
        stop
    .inl ⟨start, stop, highlight.role, some highlight.label, .inline⟩
  else
    .inr ⟨start, stop, highlight.role, highlight.label, 1, false⟩

/-- The lines that carry marks, and the number of lanes that brackets need. -/
def markedLines (lines : List SourceLine) (highlights : List Highlight) :
    List MarkedLine × Nat :=
  let placed := highlights.map (·.placed lines)
  let inlineMarks := placed.filterMap fun
    | .inl mark => some (mark.start.line, mark)
    | .inr _ => none
  let brackets := Bracket.inLanes <| placed.filterMap fun
    | .inl _ => none
    | .inr bracket => some bracket
  let text? (number : Nat) :=
    (lines.find? (·.number == number)).map (·.text)
  let marks := inlineMarks ++ brackets.flatMap (·.marks text?)
  let marked := lines.map fun line =>
    ⟨line.number, line.text,
      marks.filterMap fun (number, mark) =>
        if number = line.number then some mark else none⟩
  (marked.filter (!·.marks.isEmpty), (brackets.map (·.lane)).foldl max 0)

end YangSchema.Snippet
