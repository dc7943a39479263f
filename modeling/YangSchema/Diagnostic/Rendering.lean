import YangSchema.Diagnostic.Filter
import YangSchema.Snippet.Drawing

/-!
# Diagnostics with the lines they are about

A rendered diagnostic has a title, the marked lines of its source, and a line
for its phase and for each hint. Related spans of the same source are marked
too. Renderings stand one below the other.
-/

namespace YangSchema

open Snippet (Highlight Canvas Row)

/-- A span with something to underline: an empty one takes the next byte, if
the text has one. -/
def Span.markable (span : Span) (size : Nat) : Span :=
  if span.isEmpty then ⟨span.start, min (span.start + 1) size⟩ else span

namespace Diagnostic

/-- The span of a diagnostic and its related spans. -/
def highlights (diagnostic : Diagnostic) (source : List Char) :
    List Highlight :=
  let size := byteLength source
  ⟨diagnostic.span.markable size, .primary, diagnostic.message⟩ ::
    diagnostic.related.map fun related =>
      ⟨related.span.markable size, .context, related.message⟩

/-- Lines of text behind a label; all but the first are padded to the width of
what stands before the text. -/
def labelled (label : Row) (ink : Snippet.Ink) (text : List Char) : Canvas :=
  match Text.splitOn '\n' text with
  | [] => [label]
  | first :: rest =>
      (label ++ Row.ofText ink first) ::
        rest.map fun line => Row.blanks label.length ++ Row.ofText ink line

def titleRows (diagnostic : Diagnostic) : Canvas :=
  let label :=
    Row.ofText .primary diagnostic.severity.text.toList ++
      Row.ofText .emphasis ": ".toList
  labelled label .emphasis (Text.visible diagnostic.message.toList)

/-- A note below the marked lines, behind a gutter without number. -/
def noteRows (digits : Nat) (label text : String) : Canvas :=
  let label :=
    Row.blanks (digits + 1) ++ Row.ofText .gutter "= ".toList ++
      Row.ofText .emphasis label.toList ++ Row.ofText .plain ": ".toList
  labelled label .plain text.toList

/-- The notes: the phase, if there is one, and the hints. -/
def notes (diagnostic : Diagnostic) : List (String × String) :=
  let phase := diagnostic.phase.map fun phase =>
    ("note", s!"raised at statement {phase.text}")
  phase.toList ++ diagnostic.hints.map ("help", ·)

def canvas (diagnostic : Diagnostic) (sources : Sources) : Canvas :=
  let source := (sources.text diagnostic.source).toList
  let excerpt : Snippet.Excerpt :=
    { source
      path := sources.path? diagnostic.source
      highlights := diagnostic.highlights source }
  let notes := diagnostic.notes.flatMap fun (label, text) =>
    noteRows excerpt.digits label text
  let bar :=
    if notes.isEmpty then [] else [Snippet.Excerpt.barRow excerpt.digits]
  diagnostic.titleRows ++ excerpt.draw ++ bar ++ notes

end Diagnostic

namespace Diagnostics

def render (diagnostics : Diagnostics) (sources : Sources) : String :=
  "\n".intercalate <| diagnostics.map fun diagnostic =>
    (diagnostic.canvas sources).text

/-- As `render`, with the color sequences of a terminal. -/
def renderColored (diagnostics : Diagnostics) (sources : Sources) : String :=
  "\n".intercalate <| diagnostics.map fun diagnostic =>
    (diagnostic.canvas sources).coloredText diagnostic.severity

end Diagnostics

end YangSchema
