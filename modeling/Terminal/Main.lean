import Terminal.Report

/-!
# The command

Reads the environment and the files that the search asks for, one after the other, and writes a
report.

The runtime hands over variables and takes the names of files as texts.  A variable that is not
UTF-8 is seen with replacement characters, and the home directory is known from its variable only.
-/

namespace Terminal

/-- The value of an environment variable. -/
def readVariable (name : String) : IO (Option Bytes) := do
  return (← IO.getEnv name).map Bytes.ofString

/-- The content of a file, if it can be read.  A file whose name is not UTF-8 may well exist, but
cannot be named to the system here, so that the search cannot go on. -/
def readFile (path : Bytes) : IO (Option Bytes) := do
  match String.fromUTF8? ⟨path.toArray⟩ with
  | none => throw (IO.userError "the name of a file is not UTF-8")
  | some name =>
    try
      return some (← IO.FS.readBinFile name).data.toList
    catch _ => return none

/-- The environment of the process. -/
def readEnvironment : IO Search.Environment := do
  let names := ["TERM", "TERMINFO", "TERMINFO_DIRS"]
  let values ← names.mapM readVariable
  let home ← readVariable "HOME"
  return .ofVariables (fun name => ((names.zip values).lookup name).join) home

end Terminal

open Terminal in
/-- Shows a capability of the terminal in use. -/
def main (arguments : List String) : IO UInt32 := do
  let env ← readEnvironment
  let course ← Search.locateM env readFile
  let report := Report.ofLoaded course.entry arguments
  (← IO.getStdout).write ⟨report.output.toArray⟩
  (← IO.getStderr).write ⟨report.errors.toArray⟩
  return report.status
