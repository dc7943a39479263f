import YangSchema.Draft.Reading
import YangSchema.Linking.Findings
import YangSchema.Linking.Imports
import YangSchema.Linking.Settling
import YangSchema.SyntaxTree.Parser

/-!
# Compiling a set of sources

Every source is parsed. Those without syntax errors become units, each of which
is read and linked on its own. Then imports and includes are bound, what is
left is linked across units, and what cannot be linked is reported.
-/

namespace YangSchema

/-- The bounds that hold for each source unless others are given. -/
def ParseLimits.standard : ParseLimits :=
  ⟨some 1000000, some 4096⟩

/-- Why a compilation has no valid result. -/
inductive CompilationError where
  | limit (error : LimitError)
  | syntaxErrors (count : Nat)
  | schemaErrors (count : Nat)
  deriving DecidableEq, Repr

def CompilationError.message : CompilationError → String
  | limit error => error.message
  | syntaxErrors count => s!"schema parsing failed with {count} errors"
  | schemaErrors count => s!"schema analysis failed with {count} errors"

/-- Sources with their syntax trees, in the same order. -/
structure ParsedSources where
  sources : Sources
  trees : List SyntaxTree
  diagnostics : Diagnostics
  /-- Significant tokens of all sources. -/
  tokensRead : Nat

namespace ParsedSources

/-- Parses sources; the first one that runs into a limit ends it. -/
def ofSources (limits : ParseLimits) (sources : Sources) :
    Except LimitError ParsedSources := do
  let parsed ← sources.zipIdx.mapM fun (source, id) =>
    parse limits id source.text
  return {
    sources
    trees := parsed.map (·.tree)
    diagnostics := parsed.flatMap (·.diagnostics)
    tokensRead :=
      parsed.foldl (fun total parsed => total + parsed.tokensRead) 0 }

/-- What the statements of every source without syntax errors amount to. -/
def analyses (parsed : ParsedSources) : List Analysis :=
  parsed.trees.zipIdx.filterMap fun (tree, id) =>
    if parsed.diagnostics.hasErrorsIn id then none
    else some (.ofStatements id (Statement.ofTree tree))

end ParsedSources

namespace LinkUnit

/-- A unit that can be linked unless its reading failed. -/
def ofAnalysis (analysis : Analysis) : LinkUnit :=
  { tree := analysis.tree
    queue := analysis.queue
    usable := !analysis.failed
    deferredKeys := analysis.deferredKeys }

def name? (unit : LinkUnit) : Option String :=
  unit.tree.root?.map (·.name)

def revision? (unit : LinkUnit) : Option String :=
  unit.tree.header?.bind (·.revision?)

def isSubmodule (unit : LinkUnit) : Bool :=
  unit.tree.isKind rootId .submodule

end LinkUnit

structure Compilation where
  sources : Sources
  units : List LinkUnit
  diagnostics : Diagnostics

namespace Compilation

/-- Reads every source without syntax errors as a unit of its own. -/
def ofParsed (parsed : ParsedSources) : Compilation :=
  let analyses := parsed.analyses
  { sources := parsed.sources
    units := analyses.map .ofAnalysis
    diagnostics := parsed.diagnostics ++ analyses.flatMap (·.diagnostics) }

/-- Links the units with each other and reports what stays unresolved. -/
def linked (compilation : Compilation) : Compilation :=
  let (bound, problems) := Linking.bindSources compilation.units
  let units := Linking.link .interFile bound
  { compilation with
    units
    diagnostics :=
      compilation.diagnostics ++ problems ++ Linking.findings units }

def isValid (compilation : Compilation) : Bool :=
  !compilation.diagnostics.hasErrors

/-- The unit of a name; of several the newest, and the last one of those. -/
def unitNamed? (compilation : Compilation) (name : String) :
    Option LinkUnit :=
  let entries := compilation.units.filterMap UnitEntry.of?
  let newest := UnitEntry.newest? (entries.filter (·.name == name))
  newest.bind fun entry =>
    compilation.units.find? (·.source == entry.source)

/-- Why the compilation is not valid, if it is not. -/
def error? (compilation : Compilation) : Option CompilationError :=
  let diagnostics := compilation.diagnostics
  if diagnostics.any (·.kind.isSyntaxError) then
    some (.syntaxErrors diagnostics.errorCount)
  else if diagnostics.hasErrors then
    some (.schemaErrors diagnostics.errorCount)
  else
    none

end Compilation

/-- Compiles sources from their texts to linked units. -/
def compile (limits : ParseLimits) (sources : Sources) :
    Except LimitError Compilation := do
  let parsed ← ParsedSources.ofSources limits sources
  return (Compilation.ofParsed parsed).linked

end YangSchema
