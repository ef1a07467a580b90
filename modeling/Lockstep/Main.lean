import Lockstep.Command.Run
import Lockstep.Command.Validate

/-!
The command line. The first argument names the command, the others are its own. The files that the
arguments name are read first; what the command makes of them is decided without looking at the
disk again.
-/
namespace Lockstep

/-- The file at a path, or the directory and all in it. A path that leads nowhere adds nothing. -/
partial def readTree (files : Files) (path : String) : IO Files := do
  let target := (← IO.currentDir) / path
  if ← target.isDir then
    let mut files := files.withDirectory path
    for entry in ← target.readDir do
      files ← readTree files (Path.join path entry.fileName)
    return files
  else if ← target.pathExists then
    return files.withFile path (← IO.FS.readBinFile target)
  else return files

def Output.print (o : Output) : IO UInt32 := do
  (← IO.getStdout).putStr o.stdoutText
  (← IO.getStderr).putStr o.stderrText
  return o.exit.toUInt32

def usage : Output :=
  { exit := 2, stderr := ["Usage: (qpca-run | qpca-validate) [ARGUMENTS]"] }

end Lockstep

open Lockstep in
def main (arguments : List String) : IO UInt32 := do
  let working := Path.names (← IO.currentDir).toString
  let empty : Files := { working }
  let files ← (arguments.tail.filter (· ≠ "")).foldlM readTree (empty.withDirectory ".")
  match arguments with
  | "qpca-run" :: rest => (RunCommand.run files rest).print
  | "qpca-validate" :: rest => (ValidateCommand.run files rest).print
  | _ => usage.print
