import YangSchema.Diagnostic.Kind

/-!
# A canvas of inked cells

Text is laid out on rows of cells before it becomes a string. A write fills
the cells from a column on, pads the row with blanks before that column where
it is too short, and overwrites what stood there. Only `Canvas.text` and
`Canvas.coloredText` turn cells into characters of a string.
-/

namespace YangSchema.Snippet

/-- What a cell belongs to, which decides its color. -/
inductive Ink where
  | plain
  | emphasis
  | gutter
  | primary
  | context
  deriving DecidableEq, Repr

/-- The terminal sequence that switches a color on, if the ink has one. -/
def Ink.sequence (severity : Severity) : Ink → String
  | .plain => ""
  | .emphasis => "\x1b[1m"
  | .gutter => "\x1b[1m\x1b[94m"
  | .context => "\x1b[1m\x1b[94m"
  | .primary =>
      match severity with
      | .error => "\x1b[1m\x1b[91m"
      | .warning => "\x1b[1m\x1b[33m"

structure Cell where
  character : Char
  ink : Ink
  deriving DecidableEq, Repr

def Cell.blank : Cell :=
  ⟨' ', .plain⟩

abbrev Row := List Cell

namespace Row

def ofText (ink : Ink) (text : List Char) : Row :=
  text.map fun c => ⟨c, ink⟩

def blanks (count : Nat) : Row :=
  List.replicate count .blank

/-- Writes text from a column on; the empty text changes nothing. -/
def write (row : Row) (column : Nat) (ink : Ink) (text : List Char) : Row :=
  if text.isEmpty then row
  else
    row.take column ++ blanks (column - row.length) ++ ofText ink text ++
      row.drop (column + text.length)

/-- Puts three points for the cells from `start` to before `stop`. A row that
ends before `stop` stays as it is. -/
def elide (row : Row) (start stop : Nat) : Row :=
  if row.length < stop then row
  else row.take start ++ ofText .gutter "...".toList ++ row.drop stop

def text (row : Row) : String :=
  String.ofList (row.map (·.character))

/-- Writes cells when the color `current` is switched on. -/
def coloredCells (severity : Severity) (current : String) : Row → String
  | [] => if current.isEmpty then "" else "\x1b[0m"
  | cell :: cells =>
      let wanted := cell.ink.sequence severity
      let switch :=
        if wanted = current then ""
        else if current.isEmpty then wanted
        else "\x1b[0m" ++ wanted
      switch ++ String.singleton cell.character ++
        coloredCells severity wanted cells

/-- The text of a row in which every run of one color is switched on before
and off behind it. -/
def coloredText (severity : Severity) (row : Row) : String :=
  coloredCells severity "" row

end Row

abbrev Canvas := List Row

namespace Canvas

/-- Writes text on the given row and adds empty rows up to it. -/
def write (canvas : Canvas) (line column : Nat) (ink : Ink)
    (text : List Char) : Canvas :=
  if text.isEmpty then canvas
  else
    let padded :=
      canvas ++ List.replicate (line + 1 - canvas.length) ([] : Row)
    padded.modify line fun row => Row.write row column ink text

/-- Writes one character into every row from `first` to before `last`. -/
def writeDown (canvas : Canvas) (first last column : Nat) (ink : Ink)
    (character : Char) : Canvas :=
  (List.range' first (last - first)).foldl
    (fun canvas line => write canvas line column ink [character]) canvas

def text (canvas : Canvas) : String :=
  "\n".intercalate (canvas.map Row.text)

def coloredText (severity : Severity) (canvas : Canvas) : String :=
  "\n".intercalate (canvas.map (Row.coloredText severity))

end Canvas

end YangSchema.Snippet
