import YangSchema.Snippet.CodeLine
import YangSchema.Snippet.Placement

/-!
# Drawing marked lines

Below a line of code come its underlines, and below them the labels that hang.
A bracket is drawn with `_` to its lane, `|` down the lane, and a `/` in place
of its first corner when only blanks stand before it. What is drawn later
covers what was drawn before, so the order is: connecting lines, stems, labels,
underlines from wide to narrow.
-/

namespace YangSchema.Snippet

/-- A lane with the ink of its bracket. -/
abbrev Lane := Nat × Ink

/-- Draws a lane on the rows from `first` to before `last`. -/
def drawLane (frame : Frame) (first last : Nat) (canvas : Canvas)
    (lane : Lane) : Canvas :=
  canvas.writeDown first last (frame.laneColumn lane.1) lane.2 '|'

def drawLanes (frame : Frame) (lanes : List Lane) (canvas : Canvas) :
    Canvas :=
  lanes.foldl (drawLane frame 0 canvas.length) canvas

/-- The columns of a line that is drawn with its marks. -/
structure LineFrame where
  frame : Frame
  /-- The column of the code that is shown first. -/
  left : Nat
  rowsBelow : Nat

namespace LineFrame

/-- The canvas column of a column of the code. -/
def column (line : LineFrame) (codeColumn : Nat) : Nat :=
  line.frame.codeOffset + codeColumn - line.left

/-- The line from a bracket's lane to where it opens or closes. -/
def drawConnection (line : LineFrame) (canvas : Canvas)
    (placed : PlacedMark) : Canvas :=
  match placed.mark.endLane? with
  | some lane =>
      let start := line.frame.laneColumn lane + 1
      let stop := line.column placed.mark.start.column
      canvas.write (placed.row + 1) start placed.mark.role.ink
        (List.replicate (stop - start) '_')
  | none => canvas

/-- The stem from an underline to its label or connection below, and the
bracket's own lane beside the line. -/
def drawStem (line : LineFrame) (canvas : Canvas) (placed : PlacedMark) :
    Canvas :=
  let mark := placed.mark
  let ink := mark.role.ink
  let row := placed.row + 1
  let canvas :=
    if 1 < row ∧ (mark.hasLabel ∨ mark.endLane?.isSome) then
      canvas.writeDown 1 (row + 1) (line.column mark.start.column) ink '|'
    else
      canvas
  match mark.shape with
  | .opening lane =>
      let column := line.frame.laneColumn lane
      (canvas.write row column ink [' ']).writeDown (row + 1)
        (line.rowsBelow + 2) column ink '|'
  | .closing lane =>
      canvas.writeDown 0 (row + 1) (line.frame.laneColumn lane) ink '|'
  | _ => canvas

def drawLabel (line : LineFrame) (canvas : Canvas) (placed : PlacedMark) :
    Canvas :=
  let mark := placed.mark
  let (row, codeColumn) :=
    if placed.row = 0 then
      (1, mark.stop.column + if mark.stop.column = 0 then 2 else 1)
    else
      (placed.row + 2, mark.start.column)
  canvas.write row (line.frame.codeOffset + (codeColumn - line.left))
    mark.role.ink (mark.label.elim [] (·.toList))

/-- Underlines a mark; where a bracket or a stem starts there is always a
sign. -/
def drawUnderline (line : LineFrame) (canvas : Canvas)
    (placed : PlacedMark) : Canvas :=
  let mark := placed.mark
  let sign := mark.role.underline
  let canvas :=
    (List.range' mark.start.column
        (mark.stop.column - mark.start.column)).foldl
      (fun canvas codeColumn =>
        canvas.write 1 (line.column codeColumn) mark.role.ink [sign])
      canvas
  if mark.endLane?.isSome ∨ (placed.row ≠ 0 ∧ mark.hasLabel) then
    canvas.write 1 (line.column mark.start.column) mark.role.ink [sign]
  else
    canvas

end LineFrame

/-- Takes the middle out of a mark that is more than twice as wide as the room
for code. -/
def shorten (room : Nat) (canvas : Canvas) (mark : Mark) : Canvas :=
  if mark.shape = .inline ∧ 2 * room < mark.width ∧ 10 < mark.width then
    let kept := max (room / 3) 5
    let cut (row : Row) :=
      Row.elide row (mark.start.column + kept) (mark.stop.column - kept)
    (canvas.modify 0 cut).modify 1 cut
  else
    canvas

/-- For every mark, counted from the right, whether it overlaps with the third
or a later one, or is one of those and overlaps with any. -/
def overlapFlags (marks : List Mark) : List Bool :=
  marks.zipIdx.map fun (mark, index) =>
    marks.zipIdx.any fun (other, otherIndex) =>
      (1 < index || 1 < otherIndex) && mark.overlaps 0 other

/-- Shortens very wide marks. Where marks overlap, those drawn at their turns
stay whole. -/
def shortenMarks (room : Nat) (placement : Placement) (canvas : Canvas) :
    Canvas :=
  let drawn := placement.inDrawingOrder.map (·.mark)
  let flags := overlapFlags (placement.marks.map (·.mark))
  (drawn.zip flags).foldl
    (fun canvas (mark, overlaps) =>
      if overlaps then canvas else shorten room canvas mark)
    canvas

/-- Whether the marks only open brackets behind indentation, or let brackets
through, so that no row below the line is needed. -/
def needsNoRows (text : List Char) (marks : List Mark) : Bool :=
  marks.all fun mark =>
    match mark.shape with
    | .opening _ =>
        ((Text.visible text).take mark.start.column).all Text.isBlank
    | .through _ => true
    | _ => false

/-- The lanes that open or close at a line. -/
def endLanes (marks : List Mark) : List Lane :=
  marks.filterMap fun mark =>
    mark.endLane?.map (·, mark.role.ink)

/-- A line of code with its marks, and the lanes that open or close here. -/
def drawLine (frame : Frame) (line : MarkedLine) : Canvas × List Lane :=
  let (code, left) := codeRow frame line.number line.text
  if needsNoRows line.text line.marks then
    let opened := endLanes line.marks
    (opened.foldl
      (fun canvas (lane, ink) =>
        Canvas.write canvas 0 (frame.laneColumn lane) ink ['/'])
      [code], opened)
  else
    let placement := Placement.ofMarks line.marks
    let lineFrame : LineFrame := ⟨frame, left, placement.rowsBelow⟩
    let drawn := placement.inDrawingOrder
    let canvas := Canvas.writeDown [code] 1 (placement.rowsBelow + 2)
      frame.barColumn .gutter '|'
    let canvas := placement.marks.foldl lineFrame.drawConnection canvas
    let canvas := placement.marks.foldl lineFrame.drawStem canvas
    let canvas := placement.marks.foldl lineFrame.drawLabel canvas
    let canvas := drawn.foldl lineFrame.drawUnderline canvas
    (shortenMarks frame.margin.room placement canvas,
      endLanes (drawn.map (·.mark)))

/-- Lanes that are still open behind a line: those before it that do not close
there, and those that open there. -/
def openLanes (lanes : List Lane) (ends : List Lane) : List Lane × List Lane :=
  ends.foldl
    (fun (through, opened) (lane, ink) =>
      match through.findIdx? (·.1 == lane) with
      | some index => (through.eraseIdx index, opened)
      | none => (through, opened.filter (·.1 != lane) ++ [(lane, ink)]))
    (lanes, [])

/-- The lanes that open at a line. -/
def openingLanes (line : MarkedLine) : List Lane :=
  line.marks.filterMap fun mark =>
    mark.opensLane?.map (·, mark.role.ink)

/-- What stands between two marked lines: the one line between them, or three
points for several. -/
def drawGap (frame : Frame) (text? : Nat → Option (List Char))
    (lanes : List Lane) (line next : MarkedLine) : Canvas :=
  let lanes := lanes ++ openingLanes line
  if next.number - line.number = 2 then
    let text := (text? (line.number + 1)).getD []
    drawLanes frame lanes [(codeRow frame (line.number + 1) text).1]
  else if 2 < next.number - line.number then
    drawLanes frame lanes [Row.write [] 0 .gutter cutSign]
  else
    []

/-- Marked lines one below the other, with the lanes open before them. -/
def drawLines (frame : Frame) (text? : Nat → Option (List Char))
    (lanes : List Lane) : List MarkedLine → Canvas
  | [] => []
  | line :: rest =>
      let (canvas, ends) := drawLine frame line
      let (through, opened) := openLanes lanes ends
      let gap :=
        match rest with
        | next :: _ => drawGap frame text? through line next
        | [] => []
      drawLanes frame through canvas ++ gap ++
        drawLines frame text? (through ++ opened) rest

/-- A source with highlights. -/
structure Excerpt where
  source : List Char
  path : Option String
  highlights : List Highlight

namespace Excerpt

/-- Digits of the largest line number up to the end of the last highlight. -/
def digits (excerpt : Excerpt) : Nat :=
  let stop := (excerpt.highlights.map (·.span.stop)).foldl max 0
  let read := takeBytes stop excerpt.source
  (toString (read.count '\n' + 1)).length

/-- The line and the column, both from one, of the first primary mark, or of
the first mark when none is primary. -/
def position? (lines : List MarkedLine) : Option Position :=
  let primary := lines.find? (·.marks.any (·.isPrimary))
  (primary.or lines.head?).bind fun line =>
    let marks := line.marks.filter (·.isPrimary)
    let marks := if marks.isEmpty then line.marks else marks
    let characters := marks.map (·.start.character)
    characters.min?.map fun character => ⟨line.number, character + 1⟩

/-- The row that names the place of the first primary mark. -/
def placeRow (digits : Nat) (path : String) (lines : List MarkedLine) : Row :=
  let place :=
    match position? lines with
    | some position => s!"{path}:{position.text}"
    | none => path
  Row.blanks digits ++ Row.ofText .gutter "--> ".toList ++
    Row.ofText .plain place.toList

/-- A row with nothing but the bar of the gutter. -/
def barRow (digits : Nat) : Row :=
  Row.write [] (digits + 1) .gutter ['|']

/-- The place of a snippet and its marked lines. -/
def draw (excerpt : Excerpt) : Canvas :=
  let lines := sourceLines excerpt.source
  let (marked, lanes) := markedLines lines excerpt.highlights
  let digits := excerpt.digits
  let frame := Frame.ofLines digits lanes marked
  let place := excerpt.path.map fun path => placeRow digits path marked
  let text? (number : Nat) :=
    (lines.find? (·.number == number)).map (·.text)
  place.toList ++ [barRow digits] ++ drawLines frame text? [] marked

end Excerpt

end YangSchema.Snippet
