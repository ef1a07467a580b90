import Lockstep.Files.Store
import Lockstep.Layout.FileName
import Lockstep.Program.Assembly
import Lockstep.Validation.Lint

/-!
Checking program files without running them. The name of a file says how large its node is; a
program file of another name is checked for the largest.
-/
namespace Lockstep

inductive ValidationError where
  | unreadable (cause : FileError)
  | unassembled (error : AssemblyError) (snippet : Option String)
  deriving Repr, DecidableEq

namespace ValidationError

def line? : ValidationError → Option Nat
  | unreadable _ => none
  | unassembled e _ => some (e.line + 1)

def message : ValidationError → String
  | unreadable cause => cause.message
  | unassembled e _ => e.message

def snippet? : ValidationError → Option String
  | unreadable _ => none
  | unassembled _ snippet => snippet

def located (e : ValidationError) : String :=
  match e.line? with
  | some line => "line " ++ Text.numeral line ++ ": " ++ e.message
  | none => e.message

def lines (e : ValidationError) : List String :=
  e.located :: (e.snippet?.map ("| " ++ ·)).toList

def text (e : ValidationError) : String :=
  match e.snippet? with
  | some snippet => e.located ++ "\n  | " ++ snippet
  | none => e.located

end ValidationError

structure Validated where
  nodeClass : NodeClass
  assembly : Assembly
  diagnostics : List Diagnostic

structure Validation where
  path : String
  verdict : Except ValidationError Validated

namespace Validation

def diagnostics (v : Validation) : List Diagnostic :=
  match v.verdict with
  | .ok validated => validated.diagnostics
  | .error _ => []

/-- The line of the text without the blanks around it, unless nothing is left. -/
def snippet (source : String) (line : Nat) : Option String :=
  match (Text.lines source.toList)[line]? with
  | some l => if Text.trim l = [] then none else some (String.ofList (Text.trim l))
  | none => none

def ofSource (path source : String) (nodeClass : NodeClass) : Validation :=
  let assembly := assemble source nodeClass.lines
  ⟨path,
    match assembly.error with
    | some e => .error (.unassembled e (snippet source e.line))
    | none => .ok ⟨nodeClass, assembly, assembly.program.lint nodeClass⟩⟩

def classOfPath (path : String) : NodeClass :=
  match FileName.ofPath? path with
  | some name => name.nodeClass
  | none => .large

def ofFile (files : Files) (path : String) : Validation :=
  match files.read path with
  | .ok source => ofSource path source (classOfPath path)
  | .error cause => ⟨path, .error (.unreadable cause)⟩

def programPaths (files : Files) : Nat → String → List String
  | 0, _ => []
  | depth + 1, directory =>
    match files.list directory with
    | .error _ => []
    | .ok names =>
      names.flatMap fun name =>
        let path := Path.join directory name
        if files.isDirectory path then programPaths files depth path
        else if isProgramName name then [path]
        else []

def inPathOrder (paths : List String) : List String :=
  paths.mergeSort fun a b => (compare (Path.names a) (Path.names b)).isLE

/-- All program files in a directory, in the order of their paths. No directory is as deep as there
are entries. -/
def ofDirectory (files : Files) (directory : String) : List Validation :=
  (inPathOrder (programPaths files (files.entries.length + 1) directory)).map (ofFile files)

end Validation
end Lockstep
