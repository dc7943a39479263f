import YangSchema.Diagnostic.Kind
import YangSchema.Source.Sources

/-!
# Diagnostics

A diagnostic points at a span of one source and carries its final message,
spans related to it, and hints. The `with` functions fill in what a fresh
diagnostic of a kind leaves open.
-/

namespace YangSchema

/-- Another span of the same source that helps to explain a diagnostic. -/
structure RelatedSpan where
  message : String
  span : Span
  deriving DecidableEq, Repr

structure Diagnostic where
  kind : DiagnosticKind
  source : SourceId
  span : Span
  position : Option Position
  phase : Option Phase
  message : String
  related : List RelatedSpan
  hints : List String
  deriving DecidableEq, Repr

namespace Diagnostic

/-- A diagnostic with the plain message and the default hint of its kind. -/
def ofKind (source : SourceId) (kind : DiagnosticKind) (span : Span) :
    Diagnostic :=
  { kind, source, span
    position := none
    phase := none
    message := kind.plainMessage
    related := []
    hints := kind.defaultHint.toList }

def withDetail (diagnostic : Diagnostic) (detail : String) : Diagnostic :=
  { diagnostic with message := diagnostic.kind.detailedMessage detail }

def withText (diagnostic : Diagnostic) (text : String) : Diagnostic :=
  { diagnostic with message := text }

def withPosition (diagnostic : Diagnostic) (position : Position) : Diagnostic :=
  { diagnostic with position := some position }

def withPhase (diagnostic : Diagnostic) (phase : Phase) : Diagnostic :=
  { diagnostic with phase := some phase }

def withRelated (diagnostic : Diagnostic) (message : String) (span : Span) :
    Diagnostic :=
  { diagnostic with related := diagnostic.related ++ [⟨message, span⟩] }

def withHint (diagnostic : Diagnostic) (hint : String) : Diagnostic :=
  { diagnostic with hints := diagnostic.hints ++ [hint] }

def severity (diagnostic : Diagnostic) : Severity :=
  diagnostic.kind.severity

def isError (diagnostic : Diagnostic) : Bool :=
  diagnostic.severity == .error

def isWarning (diagnostic : Diagnostic) : Bool :=
  diagnostic.severity == .warning

/-- Severity, place, message, related spans and hints on one line. -/
def text (diagnostic : Diagnostic) : String :=
  let place :=
    match diagnostic.position with
    | some position => position.text
    | none => diagnostic.span.text
  let related := diagnostic.related.map fun related =>
    s!" (related: {related.message} at {related.span.text})"
  let hints := diagnostic.hints.map fun hint => s!" (hint: {hint})"
  s!"{diagnostic.severity.text} at {place}: {diagnostic.message}" ++
    String.join related ++ String.join hints

end Diagnostic

/-- Diagnostics in the order in which they were reported. -/
abbrev Diagnostics := List Diagnostic

namespace Diagnostics

def errorCount (diagnostics : Diagnostics) : Nat :=
  diagnostics.countP (·.isError)

def warningCount (diagnostics : Diagnostics) : Nat :=
  diagnostics.countP (·.isWarning)

def hasErrors (diagnostics : Diagnostics) : Bool :=
  diagnostics.any (·.isError)

def hasWarnings (diagnostics : Diagnostics) : Bool :=
  diagnostics.any (·.isWarning)

def hasErrorsIn (diagnostics : Diagnostics) (source : SourceId) : Bool :=
  diagnostics.any fun diagnostic =>
    diagnostic.source == source && diagnostic.isError

end Diagnostics

/-- `path:line:column: severity: message` -/
def Diagnostic.briefLine (diagnostic : Diagnostic) (sources : Sources) :
    String :=
  let name := sources.displayName diagnostic.source
  let position := diagnostic.position.getD
    (sources.position diagnostic.source diagnostic.span.start)
  s!"{name}:{position.text}: {diagnostic.severity.text}: {diagnostic.message}"

/-- One line for every diagnostic. -/
def Diagnostics.brief (diagnostics : Diagnostics) (sources : Sources) :
    String :=
  String.join <| diagnostics.map fun diagnostic =>
    diagnostic.briefLine sources ++ "\n"

end YangSchema
