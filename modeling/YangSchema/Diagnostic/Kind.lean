/-!
# Kinds of diagnostics

The kinds stand in the order of their priority. A syntax error breaks the
statement tree and so makes everything found below it unreliable.
-/

namespace YangSchema

inductive Severity where
  | error
  | warning
  deriving DecidableEq, Repr

def Severity.text : Severity → String
  | .error => "error"
  | .warning => "warning"

/-- When in the life of a statement an error was raised. -/
inductive Phase where
  | entry
  | exit
  | link
  deriving DecidableEq, Repr

def Phase.text : Phase → String
  | .entry => "entry"
  | .exit => "exit"
  | .link => "link"

inductive DiagnosticKind where
  | unclosedBlock
  | expectedKeyword
  | expectedTerminator
  | expectedString
  | unexpectedToken
  | unexpectedBlockClose
  | unknownStatement
  | unsupportedStatement
  | stackEmpty
  | holderMismatch
  | invalidHolder
  | missingRequiredSubstatement
  | cardinalityViolation
  | invalidArgument
  | duplicateIdentifier
  | unresolvedReference
  | dataModelConstraintViolation
  | extensionSkipped
  deriving DecidableEq, Repr

namespace DiagnosticKind

/-- Every kind, the one of highest priority first. -/
def all : List DiagnosticKind :=
  [.unclosedBlock, .expectedKeyword, .expectedTerminator, .expectedString,
    .unexpectedToken, .unexpectedBlockClose, .unknownStatement,
    .unsupportedStatement, .stackEmpty, .holderMismatch, .invalidHolder,
    .missingRequiredSubstatement, .cardinalityViolation, .invalidArgument,
    .duplicateIdentifier, .unresolvedReference,
    .dataModelConstraintViolation, .extensionSkipped]

/-- The place of a kind among the priorities, zero for the highest. -/
def rank (kind : DiagnosticKind) : Nat :=
  all.idxOf kind

def severity : DiagnosticKind → Severity
  | .extensionSkipped => .warning
  | _ => .error

/-- A kind suppresses every kind of lower priority. -/
def suppresses (kind other : DiagnosticKind) : Bool :=
  kind.rank < other.rank

def isStructural (kind : DiagnosticKind) : Bool :=
  kind == .unclosedBlock

def isRootCause (kind : DiagnosticKind) : Bool :=
  kind == .expectedKeyword || kind == .expectedTerminator ||
    kind == .expectedString

def isSyntaxError (kind : DiagnosticKind) : Bool :=
  kind.rank ≤ rank .unexpectedBlockClose

/-- Kinds that no input may cause. -/
def isEngineError (kind : DiagnosticKind) : Bool :=
  kind == .stackEmpty || kind == .holderMismatch

/-- The advice that goes with every diagnostic of a kind. -/
def defaultHint : DiagnosticKind → Option String
  | .expectedTerminator =>
      some "end the statement with `;` or open a block with `\x7b`"
  | .expectedString =>
      some "quoted strings are joined with `+`: \"a\" + \"b\""
  | .unresolvedReference =>
      some "check the prefix against `import`/`include` statements of this module"
  | _ => none

/-- The message of a kind without any detail. -/
def plainMessage : DiagnosticKind → String
  | .unclosedBlock => "missing closing `\x7d`"
  | .expectedKeyword => "expected a statement keyword"
  | .expectedTerminator => "expected `;` or `\x7b`"
  | .expectedString => "expected a quoted string after `+`"
  | .unexpectedToken => "unexpected token"
  | .unexpectedBlockClose => "unexpected `\x7d`"
  | .unknownStatement => "unknown statement"
  | .unsupportedStatement => "unsupported statement"
  | .stackEmpty => "context stack is empty"
  | .holderMismatch => "context stack holder mismatch"
  | .invalidHolder => "statement is not allowed here"
  | .missingRequiredSubstatement => "missing required sub-statement"
  | .cardinalityViolation => "sub-statement cardinality violated"
  | .invalidArgument => "invalid argument"
  | .duplicateIdentifier => "duplicate identifier"
  | .unresolvedReference => "unresolved reference"
  | .dataModelConstraintViolation => "data model constraint violated"
  | .extensionSkipped => "extension statement ignored"

/-- The texts before and behind the detail in a detailed message. -/
def surroundings (kind : DiagnosticKind) : String × String :=
  match kind with
  | .unknownStatement => ("unknown statement `", "`")
  | .unsupportedStatement => ("`", "` is not supported")
  | .duplicateIdentifier => ("`", "` is already defined")
  | .unresolvedReference => ("`", "` cannot be resolved")
  | .extensionSkipped => ("extension statement `", "` ignored")
  | .unclosedBlock => (kind.plainMessage ++ "; ", "")
  | _ => (kind.plainMessage ++ ": ", "")

def detailedMessage (kind : DiagnosticKind) (detail : String) : String :=
  kind.surroundings.1 ++ detail ++ kind.surroundings.2

/-- The detailed message with braces where the detail goes. -/
def template (kind : DiagnosticKind) : String :=
  kind.detailedMessage "\x7b\x7d"

def message (kind : DiagnosticKind) : Option String → String
  | none => kind.plainMessage
  | some detail => kind.detailedMessage detail

end DiagnosticKind

end YangSchema
