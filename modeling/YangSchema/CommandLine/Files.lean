import YangSchema.Text.Blank

/-!
# Access to files

Commands see files through a `FileAccess`, which may sit on a disk or on a
`FileTree` in memory. A path is walked from the top; what is not last in it has
to be a directory.
-/

namespace YangSchema.CommandLine

/-- What a path leads to. -/
inductive FileEntry where
  | file (content : ByteArray)
  | directory (names : List String)

inductive ReadFailure where
  | noSuchFile
  | notADirectory
  | isADirectory
  | permissionDenied
  | notText
  | other (message : String)
  deriving DecidableEq, Repr

def ReadFailure.message : ReadFailure → String
  | noSuchFile => "No such file or directory (os error 2)"
  | notADirectory => "Not a directory (os error 20)"
  | isADirectory => "Is a directory (os error 21)"
  | permissionDenied => "Permission denied (os error 13)"
  | notText => "stream did not contain valid UTF-8"
  | other message => message

/-- How entries and the standard input are read. -/
structure FileAccess (m : Type → Type) where
  entry : String → m (Except ReadFailure FileEntry)
  standardInput : m (Except ReadFailure ByteArray)

/-- The text of bytes in UTF-8. -/
def textOf (content : ByteArray) : Except ReadFailure String :=
  match String.fromUTF8? content with
  | some text => .ok text
  | none => .error .notText

/-- Files and directories in memory, by the components of their paths. -/
structure FileTree where
  files : List (List String × ByteArray)
  directories : List (List String)

namespace FileTree

/-- The components of a path; empty ones stay. -/
def components (path : String) : List String :=
  (Text.splitOn '/' path.toList).map String.ofList

/-- The components of a path without empty ones and `.`. -/
def key (path : String) : List String :=
  (components path).filter fun name => name ≠ "" ∧ name ≠ "."

def empty : FileTree :=
  ⟨[], []⟩

/-- A later file takes the place of an earlier one of the same path. -/
def addFile (tree : FileTree) (path : String) (content : ByteArray) :
    FileTree :=
  { tree with files := (key path, content) :: tree.files }

def addDirectory (tree : FileTree) (path : String) : FileTree :=
  { tree with directories := key path :: tree.directories }

/-- The names directly below a directory. -/
def namesBelow (tree : FileTree) (directory : List String) : List String :=
  let below (path : List String) : Option String :=
    if directory.isPrefixOf path then path[directory.length]? else none
  ((tree.files.map (·.1) ++ tree.directories).filterMap below).eraseDups

def isDirectory (tree : FileTree) (path : List String) : Bool :=
  path.isEmpty || tree.directories.contains path ||
    !(tree.namesBelow path).isEmpty

def entryAt (tree : FileTree) (path : List String) :
    Except ReadFailure FileEntry :=
  match tree.files.find? (·.1 == path) with
  | some (_, content) => .ok (.file content)
  | none =>
      if tree.isDirectory path then .ok (.directory (tree.namesBelow path))
      else .error .noSuchFile

/-- Walks from a place along further components. -/
def walk (tree : FileTree) (place : List String) :
    List String → Except ReadFailure FileEntry
  | [] => tree.entryAt place
  | name :: rest =>
      match tree.entryAt place with
      | .error failure => .error failure
      | .ok (.file _) => .error .notADirectory
      | .ok (.directory _) =>
          if name = "" ∨ name = "." then tree.walk place rest
          else if name = ".." then
            if place.isEmpty then .error .noSuchFile
            else tree.walk place.dropLast rest
          else
            tree.walk (place ++ [name]) rest

/-- What a relative path leads to; an absolute one leads nowhere. -/
def entry (tree : FileTree) (path : String) : Except ReadFailure FileEntry :=
  if path.startsWith "/" then .error .noSuchFile
  else tree.walk [] (components path)

def access (tree : FileTree) (standardInput : String) : FileAccess Id :=
  { entry := tree.entry
    standardInput := .ok standardInput.toUTF8 }

end FileTree

end YangSchema.CommandLine
