import YangSchema.CommandLine.Arguments
import YangSchema.CommandLine.Loading
import YangSchema.Compilation
import YangSchema.Diagnostic.Rendering
import YangSchema.Json.Text
import YangSchema.Schema.Json
import YangSchema.Schema.Outline

/-!
# What commands report

`check` reports diagnostics, `tree` prints the schema trees of a valid set, and
`modules` lists the units of any set. Diagnostics go to the error stream
without those that follow from others. The exit code is zero for a valid set,
one for a set that is not or cannot be read, and two for a command line that
makes no sense.
-/

namespace YangSchema.CommandLine

/-- What a run writes and how it exits. -/
structure Report where
  exitCode : UInt32
  output : String
  errors : String
  deriving DecidableEq, Repr

namespace Report

/-- A run that fails with a last line about the reason. -/
def failure (errors reason : String) : Report :=
  ⟨1, "", errors ++ s!"error: {reason}\n"⟩

def success (output : String) : Report :=
  ⟨0, output, ""⟩

end Report

/-- One unit in the list of modules. -/
structure ModuleEntry where
  name : String
  revision : Option String
  isSubmodule : Bool
  source : String
  belongsTo : Option String
  imports : List String
  includes : List String
  failed : Bool
  deriving DecidableEq, Repr

namespace ModuleEntry

/-- `name@revision`, or just the name. -/
def withRevision (name : String) : Option String → String
  | some revision => s!"{name}@{revision}"
  | none => name

def ofUnit? (sources : Sources) (unit : LinkUnit) : Option ModuleEntry := do
  let header ← unit.tree.header?
  let name ← unit.name?
  return {
    name
    revision := unit.revision?
    isSubmodule := unit.isSubmodule
    source := sources.displayName unit.source
    belongsTo := header.belongsTo.map (·.module)
    imports := header.imports.map fun declaration =>
      withRevision declaration.module declaration.revisionDate
    includes := header.includes.map fun declaration =>
      withRevision declaration.submodule declaration.revisionDate
    failed := !unit.usable }

def kind (entry : ModuleEntry) : String :=
  if entry.isSubmodule then "submodule" else "module"

/-- The line of a unit and one indented line for each module it depends on. -/
def text (entry : ModuleEntry) : String :=
  let failed := if entry.failed then " [failed]" else ""
  let name := withRevision entry.name entry.revision
  let lines :=
    s!"{entry.kind} {name} ({entry.source}){failed}" ::
      (entry.belongsTo.toList.map ("  belongs-to " ++ ·) ++
        entry.imports.map ("  import " ++ ·) ++
        entry.includes.map ("  include " ++ ·))
  String.join (lines.map (· ++ "\n"))

def toJson (entry : ModuleEntry) : Json :=
  .object <|
    [("name", .string entry.name)] ++
    Json.optional "revision" .string entry.revision ++
    [("kind", .string entry.kind), ("source", .string entry.source)] ++
    Json.optional "belongs_to" .string entry.belongsTo ++
    Json.unlessEmpty "imports" .string entry.imports ++
    Json.unlessEmpty "includes" .string entry.includes ++
    [("failed", .bool entry.failed)]

end ModuleEntry

/-- The units of a compilation that have a name. -/
def moduleList (compilation : Compilation) : List ModuleEntry :=
  compilation.units.filterMap (ModuleEntry.ofUnit? compilation.sources)

namespace Options

/-- No output is a terminal, so only an explicit choice brings colors. -/
def isColored (options : Options) : Bool :=
  options.color == some .always

def has (options : Options) (switch : Switch) : Bool :=
  options.switches.contains switch

def limits (options : Options) : ParseLimits :=
  { ParseLimits.standard with
    tokens := options.fuel.or ParseLimits.standard.tokens }

end Options

/-- The lines about what is wrong with a compilation. -/
def rendered (options : Options) (compilation : Compilation) : String :=
  let diagnostics := compilation.diagnostics.filtered
  if options.has .brief then diagnostics.brief compilation.sources
  else if options.isColored then
    diagnostics.renderColored compilation.sources
  else
    diagnostics.render compilation.sources

def checkReport (options : Options) (compilation : Compilation) : Report :=
  let errors := rendered options compilation
  match compilation.error? with
  | some error => .failure errors error.message
  | none =>
      if options.has .strict && compilation.diagnostics.hasWarnings then
        .failure errors "warnings are errors with --strict"
      else
        ⟨0, "", errors⟩

/-- The trees that are asked for: that of one module, or all. -/
def selectedTrees (options : Options) (compilation : Compilation) :
    Except String (List SchemaTree) :=
  match options.module with
  | none => .ok (compilation.units.map (·.tree))
  | some name =>
      match compilation.unitNamed? name with
      | some unit => .ok [unit.tree]
      | none =>
          .error s!"no module named `{name}` in the compilation set"

def treeReport (options : Options) (compilation : Compilation) : Report :=
  if compilation.isValid then
    match selectedTrees options compilation with
    | .error reason => .failure "" reason
    | .ok trees =>
        if options.has .json then
          .success (Json.pretty (.array (trees.map (·.toJson))) ++ "\n")
        else
          let all := compilation.units.map (·.tree)
          let outlines := trees.map
            (·.outline ⟨all, !options.has .noGroupings⟩)
          .success ("\n".intercalate outlines)
  else
    ⟨1, "", rendered options compilation⟩

def modulesReport (options : Options) (compilation : Compilation) : Report :=
  let entries := moduleList compilation
  let output :=
    if options.has .json then
      Json.pretty (.array (entries.map (·.toJson))) ++ "\n"
    else
      String.join (entries.map (·.text))
  if compilation.isValid then .success output
  else ⟨1, output, rendered options compilation⟩

def Command.report : Command → Options → Compilation → Report
  | check => checkReport
  | tree => treeReport
  | modules => modulesReport

def helpText : String :=
  "Semantic checks for YANG schema modules\n\n" ++
  "  check PATH... [--strict] [--brief]\n" ++
  "  tree PATH... [-m NAME] [--no-groupings] [--json]\n" ++
  "  modules PATH... [--json]\n\n" ++
  "Every command takes --fuel N, --color auto|always|never and -v. A path is\n" ++
  "a file, a directory of .yang files, or - for the standard input.\n"

/-- Runs a command on the sources that its paths lead to. -/
def runCommand {m : Type → Type} [Monad m] (access : FileAccess m)
    (command : Command) (options : Options) : m Report := do
  match ← (loadSources access options.paths).run with
  | .error error => return .failure "" error.message
  | .ok sources =>
      match compile options.limits sources with
      | .error error => return .failure "" error.message
      | .ok compilation => return command.report options compilation

/-- Runs a command line. -/
def run {m : Type → Type} [Monad m] (access : FileAccess m)
    (arguments : List String) : m Report :=
  match Request.ofArguments arguments with
  | .error error => return ⟨2, "", s!"error: {error.message}\n"⟩
  | .ok .help => return .success helpText
  | .ok (.run command options) => runCommand access command options

end YangSchema.CommandLine
