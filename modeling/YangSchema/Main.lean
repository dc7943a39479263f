import YangSchema.CommandLine.Report

/-!
# The program

Reads files from the disk for the command line, writes what the run reports and
exits with its code.
-/

namespace YangSchema.CommandLine

/-- Why an operation on a path failed. -/
def readFailure : IO.Error → ReadFailure
  | .noFileOrDirectory _ _ _ => .noSuchFile
  | .noSuchThing _ _ _ => .noSuchFile
  | .inappropriateType _ 20 _ => .notADirectory
  | .inappropriateType _ 21 _ => .isADirectory
  | .permissionDenied _ _ _ => .permissionDenied
  | error => .other (toString error)

/-- Reads a path of the disk. -/
def diskEntry (path : String) : IO (Except ReadFailure FileEntry) := do
  try
    let real ← IO.FS.realPath path
    if ← real.isDir then
      let members ← real.readDir
      return .ok (.directory (members.toList.map (·.fileName)))
    else
      return .ok (.file (← IO.FS.readBinFile path))
  catch error =>
    return .error (readFailure error)

def readStandardInput : IO (Except ReadFailure ByteArray) := do
  try
    return .ok (← (← IO.getStdin).readBinToEnd)
  catch error =>
    return .error (readFailure error)

/-- The disk and the standard input of the process. -/
def diskAccess : FileAccess IO :=
  ⟨diskEntry, readStandardInput⟩

end YangSchema.CommandLine

def main (arguments : List String) : IO UInt32 := do
  let report ←
    YangSchema.CommandLine.run YangSchema.CommandLine.diskAccess arguments
  (← IO.getStdout).putStr report.output
  (← IO.getStderr).putStr report.errors
  return report.exitCode
