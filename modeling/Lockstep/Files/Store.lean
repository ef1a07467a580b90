import Lockstep.Files.Path

/-!
A store of files and directories. Each is known by its place, the names that lead to it from the
root; entries stand in the order in which a directory lists them. Paths are followed name by name
from the working directory, or from the root if they start with a slash.
-/
namespace Lockstep

inductive FileError where
  | notFound
  | alreadyThere
  | notDirectory
  | isDirectory
  | nameTooLong
  | nulInPath
  | notText
  deriving Repr, DecidableEq

def FileError.message : FileError → String
  | notFound => "No such file or directory (os error 2)"
  | alreadyThere => "File exists (os error 17)"
  | notDirectory => "Not a directory (os error 20)"
  | isDirectory => "Is a directory (os error 21)"
  | nameTooLong => "File name too long (os error 36)"
  | nulInPath => "file name contained an unexpected NUL byte"
  | notText => "stream did not contain valid UTF-8"

abbrev Place := List String

inductive Entry where
  | file (bytes : ByteArray)
  | directory

structure Files where
  entries : List (Place × Entry) := []
  working : Place := []

namespace Files

/-- What is at a place. The root is always there. -/
def entry? (files : Files) (place : Place) : Option Entry :=
  if place = [] then some .directory else files.entries.lookup place

def put (files : Files) (place : Place) (entry : Entry) : Files :=
  match files.entry? place with
  | some _ =>
    { files with entries := files.entries.map fun e => if e.1 = place then (place, entry) else e }
  | none => { files with entries := files.entries ++ [(place, entry)] }

def longestName : Nat := 255

def longestPath : Nat := 4095

/-- Follows names from a place. Each has to be looked up in a directory; at the end there may be
nothing. -/
def follow (files : Files) : Place → List String → Except FileError Place
  | place, [] => .ok place
  | place, name :: rest =>
    match files.entry? place with
    | none => .error .notFound
    | some (.file _) => .error .notDirectory
    | some .directory =>
      if Path.isIdle name then files.follow place rest
      else if name = ".." then files.follow place.dropLast rest
      else if longestName < name.utf8ByteSize then .error .nameTooLong
      else files.follow (place ++ [name]) rest

def start (files : Files) (path : String) : Place :=
  if Path.isAbsolute path then [] else files.working

def checkPath (path : String) : Except FileError Unit :=
  if path.toList.contains '\x00' then .error .nulInPath
  else if path = "" then .error .notFound
  else if longestPath < path.utf8ByteSize then .error .nameTooLong
  else .ok ()

def place (files : Files) (path : String) : Except FileError Place := do
  checkPath path
  files.follow (files.start path) (Path.pieces path)

def find (files : Files) (path : String) : Except FileError Entry := do
  match files.entry? (← files.place path) with
  | some entry => return entry
  | none => throw .notFound

def pathExists (files : Files) (path : String) : Bool := (files.find path).isOk

def isFile (files : Files) (path : String) : Bool :=
  match files.find path with
  | .ok (.file _) => true
  | _ => false

def isDirectory (files : Files) (path : String) : Bool :=
  match files.find path with
  | .ok .directory => true
  | _ => false

def read (files : Files) (path : String) : Except FileError String := do
  match ← files.find path with
  | .directory => throw .isDirectory
  | .file bytes =>
    match String.fromUTF8? bytes with
    | some text => return text
    | none => throw .notText

def namesIn (files : Files) (place : Place) : List String :=
  files.entries.filterMap fun e => if e.1.dropLast = place then e.1.getLast? else none

def list (files : Files) (path : String) : Except FileError (List String) := do
  let place ← files.place path
  match files.entry? place with
  | none => throw .notFound
  | some (.file _) => throw .notDirectory
  | some .directory => return files.namesIn place

def write (files : Files) (path text : String) : Except FileError Files := do
  let place ← files.place path
  match files.entry? place with
  | some .directory => throw .isDirectory
  | _ => return files.put place (.file text.toUTF8)

def makeDirectory (files : Files) (path : String) : Except FileError Files := do
  checkPath path
  let place ← files.follow (files.start path) (Path.trimmed path)
  match files.entry? place with
  | some _ => throw .alreadyThere
  | none => return files.put place .directory

/-- Makes the first of some paths a directory, after those that enclose it if one is missing. Those
made stay if a later one cannot be made. -/
def makeDirectories (files : Files) : List String → Except FileError Unit × Files
  | [] => (.ok (), files)
  | path :: outer =>
    let settle (files : Files) (result : Except FileError Files) : Except FileError Unit × Files :=
      match result with
      | .ok made => (.ok (), made)
      | .error cause => (if files.isDirectory path then .ok () else .error cause, files)
    match files.makeDirectory path with
    | .error .notFound =>
      match files.makeDirectories outer with
      | (.ok (), made) => settle made (made.makeDirectory path)
      | failed => failed
    | result => settle files result

def createDirectory (files : Files) (path : String) : Except FileError Unit × Files :=
  if path = "" then (.ok (), files) else files.makeDirectories (path :: Path.enclosing path)

/-- Puts an entry where names from a place lead to, with the directories on the way. -/
def plant (files : Files) (entry : Entry) : Place → List String → Files
  | _, [] => files
  | place, [name] => files.put (place ++ [name]) entry
  | place, name :: rest =>
    let next := place ++ [name]
    let files := if (files.entry? next).isSome then files else files.put next .directory
    files.plant entry next rest

/-- The place that a path means, whether anything is there or not. -/
def target (files : Files) (path : String) : Place :=
  (Path.names path).foldl (fun place name =>
    if name = ".." then place.dropLast else place ++ [name]) (files.start path)

def withFile (files : Files) (path : String) (bytes : ByteArray) : Files :=
  files.plant (.file bytes) [] (files.target path)

def withDirectory (files : Files) (path : String) : Files :=
  files.plant .directory [] (files.target path)

end Files
end Lockstep
