import Lockstep.Command.Output
import Lockstep.Validation.Report

/-!
The command that checks program files, given by their paths or those of directories. It exits with
0 if all pass, with 1 if one does not, or has a warning where that counts, and with 2 if it cannot
check them.
-/
namespace Lockstep.ValidateCommand

def help : List String :=
  ["qpca-validate - Validate node program (.qasm) files",
   "",
   "USAGE:",
   "    qpca-validate [OPTIONS] <PATH>...",
   "",
   "ARGS:",
   "    <PATH>    File or directory to validate (recursive for directories)",
   "",
   "OPTIONS:",
   "    -v, --verbose    Show class, line usage and instruction counts",
   "    -s, --strict     Fail on lint warnings as well as assembly errors",
   "    -h, --help       Print this help message",
   "",
   "Files named <slot>-<class>.qasm are checked against that class's",
   "line limit; other .qasm files against the 15x5 limit.",
   "",
   "EXIT CODES:",
   "    0    All files validated successfully",
   "    1    One or more files failed validation",
   "    2    Invalid arguments or IO error"]

structure Arguments where
  verbose : Bool := false
  strict : Bool := false
  paths : List String := []

/-- Reads the arguments in order, up to one that asks for help or is no option; then the output is
known already. -/
def Arguments.read (a : Arguments) : List String → Except Output Arguments
  | [] => .ok a
  | arg :: rest =>
    if arg = "-v" ∨ arg = "--verbose" then Arguments.read { a with verbose := true } rest
    else if arg = "-s" ∨ arg = "--strict" then Arguments.read { a with strict := true } rest
    else if arg = "-h" ∨ arg = "--help" then .error { exit := 0, stderr := help }
    else if arg.toList.head? = some '-' then
      .error { exit := 2, stderr := ["Unknown option: " ++ arg, ""] ++ help }
    else Arguments.read { a with paths := a.paths ++ [arg] } rest

def validatedLine (verbose : Bool) (path : String) (v : Validated) : String :=
  (if v.diagnostics.isEmpty then "+ " else "! ") ++ path ++
    if verbose then
      " (" ++ v.nodeClass.name ++ ", " ++ Text.numeral v.assembly.lineCount ++ "/"
        ++ Text.numeral v.nodeClass.lines ++ " lines, "
        ++ Text.numeral v.assembly.program.length ++ " instrs)"
    else ""

def warningLine (d : Diagnostic) : String :=
  "  WARN  line " ++ Text.numeral (d.line + 1) ++ ": " ++ d.message

def printResult (verbose : Bool) (o : Output) (v : Validation) : Output :=
  match v.verdict with
  | .ok validated =>
    { o with
      stdout := o.stdout ++ [validatedLine verbose v.path validated]
      stderr := o.stderr ++ validated.diagnostics.map warningLine }
  | .error e => { o with stderr := o.stderr ++ ["x " ++ v.path] ++ e.lines.map ("  " ++ ·) }

def check (files : Files) (path : String) : Option (List Validation) :=
  match files.find path with
  | .error _ => none
  | .ok (.file _) => some [Validation.ofFile files path]
  | .ok .directory => some (Validation.ofDirectory files path)

def exitCode (strict : Bool) (r : ValidationReport) : UInt8 :=
  if 0 < r.failed ∨ (strict ∧ ¬ r.warnings.isEmpty) then 1 else 0

/-- Checks path after path; `checked` and `o` are what there is already. -/
def checkAll (files : Files) (a : Arguments) (checked : List Validation) (o : Output) :
    List String → Output
  | [] =>
    let report := ValidationReport.ofResults checked
    { o with exit := exitCode a.strict report, stderr := o.stderr ++ [""] ++ report.lines }
  | path :: rest =>
    match check files path with
    | none =>
      { o with exit := 2, stderr := o.stderr ++ ["Error: Path does not exist: " ++ path] }
    | some results =>
      checkAll files a (checked ++ results) (results.foldl (printResult a.verbose) o) rest

def run (files : Files) (arguments : List String) : Output :=
  match Arguments.read {} arguments with
  | .error output => output
  | .ok a =>
    if a.paths.isEmpty then { exit := 2, stderr := ["Error: No path specified", ""] ++ help }
    else checkAll files a [] { exit := 0 } a.paths

end Lockstep.ValidateCommand
