import GateGrid.CommandLine.Run

/-!
# The program

Runs the command line on the real files: the only module with input and output.
-/

namespace GateGrid.CommandLine

/-- What the system's refusal means here. -/
def FileFault.ofError : IO.Error → FileFault
  | .noFileOrDirectory .. => .notFound
  | .inappropriateType _ 21 _ => .isADirectory
  | .inappropriateType .. => .notADirectory
  | .invalidArgument (some _) .. => .nameTooLong
  | .resourceExhausted _ 28 _ => .noSpace
  | .permissionDenied .. => .refused "Permission denied (os error 13)"
  | e => .refused (toString e)

/-- Looks at a path of the file system. -/
def readAccess (path : String) : IO Access := do
  try
    return .present (.ok (← IO.FS.readBinFile path))
  catch e =>
    match FileFault.ofError e with
    | .notFound | .notADirectory | .nameTooLong => return .missing
    | fault => return .present (.error fault)

/-- Writes a file of the file system. -/
def writeText (path text : String) : IO (Option FileFault) := do
  try
    let handle ← IO.FS.Handle.mk path .write
    handle.putStr text
    handle.flush
    return none
  catch e => return some (FileFault.ofError e)

/-- Runs a task on the file system. -/
def Task.perform {α : Type} : Task α → IO α
  | .done result => return result
  | .read path next => do (next (← readAccess path)).perform
  | .write path text next => do (next (← writeText path text)).perform
  | .print .stdout text next => do
    let stream ← IO.getStdout
    stream.putStr text
    stream.flush
    next.perform
  | .print .stderr text next => do
    IO.eprint text
    next.perform

/-- Styles are written to a terminal, or wherever they are demanded. -/
def wantsColor : IO Bool := do
  if (← IO.getEnv "CLICOLOR_FORCE").getD "0" != "0" then return true
  if (← IO.getEnv "NO_COLOR").isSome || (← IO.getEnv "CLICOLOR") == some "0" then return false
  (← IO.getStdout).isTty

end GateGrid.CommandLine

open GateGrid.CommandLine in
/-- Runs a command line and gives the exit status. -/
def main (arguments : List String) : IO UInt32 := do
  (run (← wantsColor) arguments).perform
