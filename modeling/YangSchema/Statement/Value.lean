import YangSchema.Interval
import YangSchema.Regex.Parser
import YangSchema.Statement.Error
import YangSchema.Statement.Path

/-!
# Arguments read as values

Each statement expects its argument in some form. Reading an argument yields
its value, or an error at the statement that says what it should have been.
-/

namespace YangSchema

namespace Statement

def invalidArgument (statement : Statement) (detail : String) :
    StatementError :=
  .of .invalidArgument statement .entry detail

/-- The argument, which must be there. -/
def requiredArgument (statement : Statement) :
    Except StatementError String :=
  match statement.argumentValue with
  | some argument => .ok argument
  | none =>
      .error <| statement.invalidArgument
        s!"`{statement.known.text}` requires an argument"

/-- Succeeds when there is no argument. -/
def requireNoArgument (statement : Statement) : Except StatementError Unit :=
  match statement.argumentValue with
  | none => .ok ()
  | some argument =>
      .error <| statement.invalidArgument
        s!"`{statement.known.text}` takes no argument, found `{argument}`"

/-- Reads the argument; `complaint` follows the argument when it cannot be
read. -/
def readArgument {α : Type} (read? : String → Option α) (complaint : String)
    (statement : Statement) : Except StatementError α := do
  let argument ← statement.requiredArgument
  match read? argument with
  | some value => return value
  | none => throw <| statement.invalidArgument s!"`{argument}` {complaint}"

/-- A text that is kept as it is when a test accepts it. -/
def accepted? (accepts : List Char → Bool) (text : String) : Option String :=
  if accepts text.toList then some text else none

def identifierArgument : Statement → Except StatementError String :=
  readArgument (accepted? Identifier.isValid) "is not a valid identifier"

def nameArgument : Statement → Except StatementError QualifiedName :=
  readArgument QualifiedName.parse? "is not a valid identifier reference"

def booleanArgument : Statement → Except StatementError Bool :=
  readArgument Literal.boolean? "is not `true` or `false`"

def nonNegativeArgument : Statement → Except StatementError Nat :=
  readArgument (Literal.nonNegative? ·.toList) "is not a non-negative integer"

def integerArgument : Statement → Except StatementError Int :=
  readArgument (Literal.integer? ·.toList) "is not an integer"

def dateArgument : Statement → Except StatementError String :=
  readArgument (accepted? Literal.isDate) "is not a valid YYYY-MM-DD date"

def uriArgument : Statement → Except StatementError String :=
  readArgument (accepted? Literal.isUri) "is not a valid URI"

def statusArgument : Statement → Except StatementError Status :=
  readArgument Status.ofKeyword? "is not `current`, `deprecated` or `obsolete`"

def orderedByArgument : Statement → Except StatementError OrderedBy :=
  readArgument OrderedBy.ofKeyword? "is not `system` or `user`"

/-- `unbounded` or a positive integer. -/
def maxElements? (text : String) : Option MaxElements :=
  if text = "unbounded" then
    some .unbounded
  else
    match Literal.nonNegative? text.toList with
    | some 0 | none => none
    | some count => some (.bounded count)

def maxElementsArgument : Statement → Except StatementError MaxElements :=
  readArgument maxElements? "is not `unbounded` or a positive integer"

def yangVersionArgument (statement : Statement) :
    Except StatementError String := do
  let argument ← statement.requiredArgument
  if argument = "1" ∨ argument = "1.1" then
    return argument
  else
    throw <| statement.invalidArgument s!"unsupported YANG version `{argument}`"

/-- A number from 1 to 18. -/
def fractionDigitsArgument (statement : Statement) :
    Except StatementError Nat := do
  let digits ← statement.nonNegativeArgument
  if 1 ≤ digits ∧ digits ≤ 18 then
    return digits
  else
    throw <| statement.invalidArgument s!"`{digits}` is outside 1..18"

def intervalsArgument (kind : IntervalKind) (statement : Statement) :
    Except StatementError Intervals := do
  let argument ← statement.requiredArgument
  match Intervals.parse kind argument with
  | .ok intervals => return intervals
  | .error error => throw <| statement.invalidArgument error.message

/-- A well-formed regular expression, kept as it is. -/
def patternArgument (statement : Statement) :
    Except StatementError String := do
  let argument ← statement.requiredArgument
  match Regex.check argument with
  | .ok () => return argument
  | .error error =>
      throw <| statement.invalidArgument
        s!"invalid regular expression: {error.message}"

def leafrefPathArgument (statement : Statement) :
    Except StatementError LeafrefPath := do
  let argument ← statement.requiredArgument
  match LeafrefPath.parse argument with
  | .ok path => return path
  | .error error => throw <| statement.invalidArgument error.message

/-- A schema node identifier of the expected kind. -/
def schemaNodeIdArgument (absolute : Bool) (statement : Statement) :
    Except StatementError SchemaNodeId := do
  let argument ← statement.requiredArgument
  match SchemaNodeId.parse argument with
  | .ok id =>
      if id.absolute = absolute then
        return id
      else
        let expected := if absolute then "absolute" else "descendant"
        throw <| statement.invalidArgument
          s!"`{argument}` must be an {expected} schema node identifier"
  | .error error => throw <| statement.invalidArgument error.message

/-- Names of keys without their qualifiers, after those already `read`. -/
def keyNames (statement : Statement) (read : List String) :
    List (List Char) → Except StatementError (List String)
  | [] => .ok read
  | key :: rest =>
      match QualifiedName.ofCharacters? key with
      | none =>
          .error <| statement.invalidArgument
            s!"`{String.ofList key}` is not a valid key name"
      | some name =>
          if read.contains name.name then
            .error <| statement.invalidArgument
              s!"key `{name.name}` is listed twice"
          else
            keyNames statement (read ++ [name.name]) rest

/-- Different names of keys between blanks. -/
def keyListArgument (statement : Statement) :
    Except StatementError (List String) := do
  let argument ← statement.requiredArgument
  let keys ← keyNames statement [] (Text.words argument.toList)
  if keys.isEmpty then
    throw <| statement.invalidArgument "empty key list"
  return keys

/-- One path of a list of descendant paths. -/
def uniquePath (statement : Statement) (part : List Char) :
    Except StatementError String := do
  let text := String.ofList part
  match SchemaNodeId.parse text with
  | .ok id =>
      if id.absolute then
        throw <| statement.invalidArgument s!"`{text}` must be a descendant path"
      else
        return text
  | .error error => throw <| statement.invalidArgument error.message

/-- Descendant paths between blanks. -/
def uniqueListArgument (statement : Statement) :
    Except StatementError (List String) := do
  let argument ← statement.requiredArgument
  let paths ← (Text.words argument.toList).mapM statement.uniquePath
  if paths.isEmpty then
    throw <| statement.invalidArgument "empty unique list"
  return paths

/-- A text that neither starts nor ends with a blank. -/
def enumNameArgument : Statement → Except StatementError String :=
  readArgument
    (accepted? fun text => !text.isEmpty && Text.trim text == text)
    "is empty or has surrounding whitespace"

end Statement

end YangSchema
