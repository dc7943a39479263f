import YangSchema.Snippet.Mark

/-!
# The columns that are shown

A line may be wider than the terminal. The margin chooses the window of columns
that is shown of every line, so that the marks stay inside, with their labels
if there is room: long indentation goes first, then what lies left of the
marks. When not even the marks fit, the window covers just them.
-/

namespace YangSchema.Snippet

/-- Columns of the terminal. -/
def terminalWidth : Nat :=
  140

/-- Room that is kept beside a mark for the three points of a cut. -/
def cutRoom : Nat :=
  6

/-- Indentation up to this width is never cut. -/
def longIndentation : Nat :=
  20

/-- Columns of a cut indentation that stay. -/
def keptIndentation : Nat :=
  4

/-- The columns from `left` to before `right`; `room` is what the terminal has
beside the gutter. -/
structure Margin where
  left : Nat
  right : Nat
  room : Nat
  deriving DecidableEq, Repr

/-- How far the marked lines and what belongs to them reach. -/
structure Extent where
  /-- The smallest indentation of a line that is not blank. -/
  indentation : Nat
  /-- The leftmost column of a mark. -/
  marksLeft : Nat
  /-- The rightmost column of a mark. -/
  marksRight : Nat
  /-- The rightmost column of a label that stands behind its mark. -/
  labelsRight : Nat
  longestLine : Nat
  deriving DecidableEq, Repr

namespace Extent

/-- Columns of the leading blanks. -/
def indentationOf (line : List Char) : Nat :=
  (line.takeWhile Text.isBlank).foldl
    (fun total c => total + if c = '\t' then Text.tabWidth else 1) 0

def ofLines (lines : List MarkedLine) : Extent :=
  let marks := lines.flatMap (·.marks)
  let filled := lines.filter fun line => !line.text.all Text.isBlank
  let columns := marks.flatMap fun mark => [mark.start.column, mark.stop.column]
  { indentation := (filled.map (indentationOf ·.text)).min?.getD 0
    marksLeft := columns.min?.getD 0
    marksRight := columns.max?.getD 0
    labelsRight :=
      (marks.map fun mark =>
        mark.stop.column + mark.label.elim 0 (·.utf8ByteSize + 1)).max?.getD 0
    longestLine := (lines.map (byteLength ·.text)).max?.getD 0 }

end Extent

namespace Margin

/-- The window for lines of the given extent. -/
def ofExtent (extent : Extent) (room : Nat) : Margin :=
  let indentation := extent.indentation - cutRoom
  let marksLeft := extent.marksLeft - cutRoom
  let marksRight := extent.marksRight + cutRoom
  let labelsRight := extent.labelsRight + cutRoom
  let left :=
    if longIndentation < indentation then indentation - keptIndentation else 0
  let right := max extent.longestLine left
  if right - left ≤ room then
    ⟨left, right, room⟩
  else if labelsRight - indentation ≤ room then
    ⟨indentation, indentation + room, room⟩
  else if labelsRight - marksLeft ≤ room then
    let left := marksLeft - (room - (labelsRight - marksLeft)) / 2
    ⟨left, left + room, room⟩
  else if marksRight - marksLeft ≤ room then
    let left := marksLeft - (room - (marksRight - marksLeft)) / 5 * 2
    ⟨left, left + room, room⟩
  else
    ⟨marksLeft, marksRight, room⟩

/-- Whether the window starts behind the first column. -/
def cutsLeft (margin : Margin) : Bool :=
  0 < margin.left

/-- The first shown column of a line of the given width. -/
def leftOf (margin : Margin) (lineWidth : Nat) : Nat :=
  min margin.left lineWidth

/-- The column behind the last shown one. -/
def rightOf (margin : Margin) (lineWidth : Nat) : Nat :=
  if lineWidth - margin.left ≤ margin.room then lineWidth
  else min lineWidth margin.right

end Margin

end YangSchema.Snippet
