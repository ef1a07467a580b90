import Lockstep.Text.Blank

/-!
Paths, as the texts they are written as. Names are divided by `/`; empty names and the name `.` lead
nowhere else.
-/
namespace Lockstep.Path

def pieces (path : String) : List String := (Text.pieces (· == '/') path.toList).map String.ofList

def isIdle (name : String) : Bool := name == "" || name == "."

/-- The names that a path goes through. Paths are ordered by them. -/
def names (path : String) : List String := (pieces path).filter fun name => !isIdle name

def trimmed (path : String) : List String :=
  ((pieces path).reverse.dropWhile (· == "")).reverse

/-- The beginnings of a path before each of its names but the first, the longest first. The pieces
are taken from the last to the first. -/
def beginnings : List String → List (List String)
  | [] => []
  | name :: before =>
    if isIdle name then beginnings before
    else
      match before.dropWhile isIdle with
      | [] => []
      | directory => directory.reverse :: beginnings before

def enclosing (path : String) : List String :=
  (beginnings (pieces path).reverse).map "/".intercalate

def isAbsolute (path : String) : Bool := path.toList.head? == some '/'

def fileName? (path : String) : Option String := (names path).getLast?.filter (· ≠ "..")

def join (directory name : String) : String :=
  if directory = "" ∨ directory.toList.getLast? = some '/' then directory ++ name
  else directory ++ "/" ++ name

def withoutEnding? (ending name : String) : Option String :=
  if ending.toList.isSuffixOf name.toList then
    some (String.ofList (name.toList.take (name.length - ending.length)))
  else none

end Lockstep.Path
