import YangSchema.Diagnostic.Diagnostic
import YangSchema.Statement.Keyword
import YangSchema.Statement.Statement

/-!
# Errors about statements

A `StatementError` says what is wrong with one statement. Its message names
the statement in front of the message of its kind.
-/

namespace YangSchema

structure StatementError where
  kind : DiagnosticKind
  keyword : String
  argument : Option String
  phase : Phase
  position : Position
  span : Span
  detail : String
  related : Option RelatedSpan
  hint : Option String
  deriving DecidableEq, Repr

namespace StatementError

/-- An error about a statement that is being read. -/
def of (kind : DiagnosticKind) (statement : Statement) (phase : Phase)
    (detail : String) : StatementError :=
  { kind, phase, detail
    keyword := statement.keywordText
    argument := statement.argumentValue
    position := statement.position
    span := statement.headSpan
    related := none
    hint := none }

/-- An error about a statement of which only the place is known, raised while
linking. -/
def atPlace (kind : DiagnosticKind) (keyword : String)
    (argument : Option String) (position : Position) (span : Span)
    (detail : String) : StatementError :=
  { kind, keyword, argument, position, span, detail
    phase := .link
    related := none
    hint := none }

def withRelated (error : StatementError) (message : String) (span : Span) :
    StatementError :=
  { error with related := some ⟨message, span⟩ }

def inPhase (error : StatementError) (phase : Phase) : StatementError :=
  { error with phase }

def withHint (error : StatementError) (hint : String) : StatementError :=
  { error with hint := some hint }

/-- Keyword and argument as they name the statement. -/
def subject (error : StatementError) : String :=
  match error.argument with
  | some argument => error.keyword ++ " " ++ argument
  | none => error.keyword

def message (error : StatementError) : String :=
  let base := error.kind.detailedMessage error.detail
  if error.kind.isEngineError then
    s!"`{error.subject}` ({error.phase.text}): {base}"
  else
    s!"`{error.subject}`: {base}"

def toDiagnostic (error : StatementError) (source : SourceId) : Diagnostic :=
  let fresh := Diagnostic.ofKind source error.kind error.span
  { fresh with
    position := some error.position
    phase := some error.phase
    message := error.message
    related := error.related.toList
    hints := fresh.hints ++ error.hint.toList }

end StatementError

namespace Statement

/-- The keyword of a statement as the language knows it. -/
def known (statement : Statement) : Keyword :=
  .ofText statement.keywordText

/-- The sub-statements with a keyword, in source order. -/
def findAll (statement : Statement) (keyword : Keyword) : List Statement :=
  statement.substatements.filter (·.known == keyword)

def find? (statement : Statement) (keyword : Keyword) : Option Statement :=
  statement.substatements.find? (·.known == keyword)

def count (statement : Statement) (keyword : Keyword) : Nat :=
  (statement.findAll keyword).length

def has (statement : Statement) (keyword : Keyword) : Bool :=
  0 < statement.count keyword

end Statement

end YangSchema
