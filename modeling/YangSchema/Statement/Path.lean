import YangSchema.Identifier
import YangSchema.Text.Blank

/-!
# Leafref paths and schema node identifiers

A leafref path is absolute, or climbs with one or more `../`; then it names
steps that are separated by slashes. Predicates in balanced square brackets
are dropped before the path is read. A schema node identifier is absolute or
descends from where it stands.
-/

namespace YangSchema

structure LeafrefPath where
  absolute : Bool
  /-- The number of leading `..` steps. -/
  up : Nat
  steps : List QualifiedName
  deriving DecidableEq, Repr

structure SchemaNodeId where
  absolute : Bool
  steps : List QualifiedName
  deriving DecidableEq, Repr

inductive PathError where
  | dereference
  | unbalancedClose (path : String)
  | unbalancedOpen (path : String)
  | noStart (path : String)
  | invalidStep (step path : String)
  deriving DecidableEq, Repr

namespace PathError

def message : PathError → String
  | .dereference => "`deref()` paths are not supported"
  | .unbalancedClose path => s!"unbalanced `]` in `{path}`"
  | .unbalancedOpen path => s!"unbalanced `[` in `{path}`"
  | .noStart path => s!"`{path}` is neither absolute nor starts with `../`"
  | .invalidStep step path => s!"`{step}` is not a valid step in `{path}`"

end PathError

namespace Path

/-- Whether `part` occurs in a text. -/
def occurs (part : List Char) : List Char → Bool
  | [] => part.isEmpty
  | c :: rest => part.isPrefixOf (c :: rest) || occurs part rest

/-- Drops what stands in brackets, at a nesting depth of `depth`. -/
def stripPredicates (path : String) : Nat → List Char →
    Except PathError (List Char)
  | depth, [] => if depth = 0 then .ok [] else .error (.unbalancedOpen path)
  | depth, '[' :: rest => stripPredicates path (depth + 1) rest
  | depth, ']' :: rest =>
      if depth = 0 then .error (.unbalancedClose path)
      else stripPredicates path (depth - 1) rest
  | depth, c :: rest =>
      if depth = 0 then (stripPredicates path depth rest).map (c :: ·)
      else stripPredicates path depth rest

/-- The qualified names between slashes, blanks around them dropped. -/
def parseSteps (path : String) (text : List Char) :
    Except PathError (List QualifiedName) :=
  (Text.splitOn '/' text).mapM fun step =>
    let step := Text.trim step
    match QualifiedName.ofCharacters? step with
    | some name => .ok name
    | none => .error (.invalidStep (String.ofList step) path)

/-- Counts leading `../`, each with the blanks behind it, and drops them. -/
def climb (text : List Char) : Nat × List Char :=
  match text with
  | '.' :: '.' :: '/' :: rest =>
      let (up, steps) := climb (Text.trimStart rest)
      (up + 1, steps)
  | text => (0, text)
  termination_by text.length
  decreasing_by
    have shorter : (Text.trimStart rest).length ≤ rest.length :=
      (List.dropWhile_suffix Text.isBlank).length_le
    simp +arith only [List.length_cons]
    omega

end Path

namespace LeafrefPath

def parse (path : String) : Except PathError LeafrefPath := do
  if Path.occurs "deref(".toList path.toList then
    throw .dereference
  let stripped ← Path.stripPredicates path 0 path.toList
  match Text.trim stripped with
  | '/' :: rest => return ⟨true, 0, ← Path.parseSteps path rest⟩
  | text =>
      let (up, rest) := Path.climb text
      if up = 0 then
        throw (.noStart path)
      return ⟨false, up, ← Path.parseSteps path rest⟩

end LeafrefPath

namespace SchemaNodeId

def parse (path : String) : Except PathError SchemaNodeId := do
  match Text.trim path.toList with
  | '/' :: rest => return ⟨true, ← Path.parseSteps path rest⟩
  | text => return ⟨false, ← Path.parseSteps path text⟩

end SchemaNodeId

/-- Whether a path text starts with a slash, blanks in front apart. -/
def isAbsolutePath (path : String) : Bool :=
  (Text.trimStart path.toList).head? = some '/'

end YangSchema
