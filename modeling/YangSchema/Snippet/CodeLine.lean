import YangSchema.Snippet.Canvas
import YangSchema.Snippet.Margin

/-!
# A line of code behind its gutter

The gutter holds the line number, right-aligned, and a bar. Behind it there is
room for the lanes of brackets, and then the code. Where the margin cuts the
code, three points stand in the place of its first or last columns.
-/

namespace YangSchema.Snippet

/-- The columns of a snippet: digits of its line numbers, and lanes. -/
structure Frame where
  digits : Nat
  lanes : Nat
  margin : Margin
  deriving DecidableEq, Repr

/-- Columns of a gutter with numbers of the given width, its bar and the blanks
beside it included. -/
def gutterWidth (digits : Nat) : Nat :=
  digits + 3

/-- Columns before the code. -/
def codeOffset (digits lanes : Nat) : Nat :=
  gutterWidth digits + (if lanes = 0 then 0 else lanes + 1)

namespace Frame

def barColumn (frame : Frame) : Nat :=
  frame.digits + 1

def laneColumn (frame : Frame) (lane : Nat) : Nat :=
  gutterWidth frame.digits + lane - 1

def codeOffset (frame : Frame) : Nat :=
  Snippet.codeOffset frame.digits frame.lanes

/-- A frame for lines whose numbers have at most `digits` digits. -/
def ofLines (digits lanes : Nat) (lines : List MarkedLine) : Frame :=
  let room := terminalWidth - Snippet.codeOffset digits lanes
  ⟨digits, lanes, .ofExtent (.ofLines lines) room⟩

end Frame

/-- Drops the characters that end at or before a column, when `passed` columns
have been dropped already. -/
def dropColumns (passed column : Nat) : List Char → List Char
  | [] => []
  | c :: rest =>
      if passed + Text.columns c ≤ column then
        dropColumns (passed + Text.columns c) column rest
      else
        c :: rest

/-- The leading characters that fit into `room` columns. -/
def takeColumns (room : Nat) : List Char → List Char
  | [] => []
  | c :: rest =>
      if Text.columns c ≤ room then
        c :: takeColumns (room - Text.columns c) rest
      else
        []

/-- The fewest leading characters that fill `wanted` columns, or all of them. -/
def coverColumns (wanted : Nat) : List Char → List Char
  | [] => []
  | c :: rest =>
      if wanted ≤ Text.columns c then [c]
      else c :: coverColumns (wanted - Text.columns c) rest

/-- Marks a cut. -/
def cutSign : List Char :=
  "...".toList

/-- A row with a line of code, and the column of the code that stands first. -/
def codeRow (frame : Frame) (number : Nat) (text : List Char) : Row × Nat :=
  let code := Text.visible text
  let width := Text.width code
  let left := frame.margin.leftOf width
  let right := frame.margin.rightOf width
  let shown := takeColumns (right - left) (dropColumns 0 left code)
  let covered :=
    if frame.margin.cutsLeft then coverColumns cutSign.length shown else []
  let coveredWidth := Text.width covered
  let rest := shown.drop covered.length
  let offset := frame.codeOffset
  let row : Row := []
  let row :=
    if frame.margin.cutsLeft then row.write offset .gutter cutSign else row
  let row := row.write (offset + coveredWidth) .plain rest
  let row :=
    if right < width then
      let hidden := (coverColumns cutSign.length shown.reverse).length
      row.write (offset + coveredWidth + rest.length - hidden) .gutter cutSign
    else
      row
  let digits := (toString number).toList
  let row := row.write (frame.digits - digits.length) .gutter digits
  (row.write frame.barColumn .gutter ['|'],
    left - (coveredWidth - cutSign.length))

end YangSchema.Snippet
