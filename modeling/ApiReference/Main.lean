/-
  The program: reads its files, runs the extraction, prints and writes what comes out.
-/
import ApiReference.CommandLine

namespace ApiReference

/-- The content of a file, if it can be read. -/
def readFile? (path : String) : IO (Option String) := do
  try return some (← IO.FS.readFile path)
  catch _ => return none

/-- The host of the program: the plain one, in the directory that it runs in. -/
def thisHost : IO Host := do
  let directory := codePoints (← IO.currentDir).toString
  return { Host.plain with directory := normalParts (pathParts directory) }

/-- A file system with the file at a path, if it can be read. -/
def withFile (files : FileTree) (path : Option String) : IO FileTree := do
  match path with
  | none => return files
  | some path =>
    match ← readFile? path with
    | none => return files
    | some content => match files.save (.ofText path) content with
      | .ok files => return files
      | .error _ => return files

/-- Writes the file that a run has left at a path, making its directory if needed. -/
def writeResult (files : FileTree) (path : Path) : IO Unit := do
  match files.read path with
  | .ok (some content) =>
    if !path.parent.names.isEmpty then IO.FS.createDirAll path.parent.text
    IO.FS.writeFile path.text content
  | _ => return ()

/-- The end of a failed run: its message, and the status of a failure. -/
def reportFault (f : Fault) : IO UInt32 := do
  match f with
  | .usage =>
    IO.eprintln "usage: [--unit NAME] [--config FILE] [--verbose] facts out"
    return 2
  | f =>
    IO.eprintln (f.message.getD (reprStr f))
    return 1

end ApiReference

open ApiReference in
/-- Documents a fact file. -/
def main (words : List String) : IO UInt32 := do
  match Arguments.parse words with
  | .error f => reportFault f
  | .ok a =>
    let files ← withFile (← withFile {} (some a.facts)) a.config
    let run := a.extract files (← thisHost)
    for line in run.log do IO.eprintln line
    match run.outcome with
    | .error f => reportFault f
    | .ok report =>
      writeResult run.files (.ofText (a.out.getD ""))
      IO.println report
      return 0
