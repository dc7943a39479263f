import YangSchema.CommandLine.Files
import YangSchema.Source.Sources

/-!
# Loading sources

A path names a file, a directory, which stands for its files with the ending
`.yang` in the order of their names, or `-`, the standard input. Sources are
numbered as they are found; the first failure ends loading.
-/

namespace YangSchema.CommandLine

inductive LoadError where
  | unreadable (path : String) (failure : ReadFailure)
  | unreadableInput (failure : ReadFailure)
  | emptyDirectory (path : String)
  | inputTwice
  deriving DecidableEq, Repr

def LoadError.message : LoadError → String
  | unreadable path failure => s!"failed to read '{path}': {failure.message}"
  | unreadableInput failure => s!"failed to read stdin: {failure.message}"
  | emptyDirectory path => s!"no .yang files found in '{path}'"
  | inputTwice => "stdin can only be given once"

/-- The path that stands for the standard input. -/
def standardInputPath : String :=
  "-"

/-- Whether a name has the ending of a schema file, and more before it. -/
def isSchemaFile (name : String) : Bool :=
  name.endsWith ".yang" && name ≠ ".yang"

/-- The path of a name in a directory. -/
def memberPath (directory name : String) : String :=
  if directory.endsWith "/" then directory ++ name
  else directory ++ "/" ++ name

/-- The schema files of a directory, sorted by name. -/
def schemaFiles (directory : String) (names : List String) : List String :=
  let sorted := (names.filter isSchemaFile).mergeSort fun first second =>
    !(second < first)
  sorted.map (memberPath directory)

/-- The source that the content of a file is. -/
def fileSource (path : String) (entry : Except ReadFailure FileEntry) :
    Except LoadError Source :=
  let text : Except ReadFailure String :=
    match entry with
    | .error failure => .error failure
    | .ok (.directory _) => .error .isADirectory
    | .ok (.file content) => textOf content
  match text with
  | .error failure => .error (.unreadable path failure)
  | .ok text => .ok ⟨.file path, text⟩

section

variable {m : Type → Type} [Monad m]

def loadFile (access : FileAccess m) (path : String) :
    ExceptT LoadError m Source := do
  let entry ← access.entry path
  fileSource path entry

def loadStandardInput (access : FileAccess m) :
    ExceptT LoadError m Source := do
  match (← access.standardInput).bind textOf with
  | .error failure => throw (.unreadableInput failure)
  | .ok text => return ⟨.standardInput, text⟩

/-- The sources of one path. -/
def loadPath (access : FileAccess m) (path : String) :
    ExceptT LoadError m Sources := do
  if path = standardInputPath then
    return [← loadStandardInput access]
  match ← access.entry path with
  | .ok (.directory names) =>
      let files := schemaFiles path names
      if files.isEmpty then throw (.emptyDirectory path)
      files.mapM (loadFile access)
  | entry => return [← fileSource path entry]

/-- The sources of all paths, one after another. -/
def loadSources (access : FileAccess m) (paths : List String) :
    ExceptT LoadError m Sources := do
  if 1 < paths.count standardInputPath then throw .inputTwice
  let sources ← paths.mapM (loadPath access)
  return sources.flatten

end

end YangSchema.CommandLine
