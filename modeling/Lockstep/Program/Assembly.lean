import Lockstep.Program.Labels
import Lockstep.Program.SourceLine
import Lockstep.Text.Lines

/-!
Assembling a whole text. It never stops at an error: lines that can be read become instructions,
and of the errors the one on the smallest line is kept. A text with more lines than there is room
for has that error, whatever else is wrong with it.
-/
namespace Lockstep

structure Assembly where
  program : Program
  labels : Table String Nat
  lineCount : Nat
  error : Option AssemblyError

namespace Assembly

def instructions (lines : List SourceLine) : Program :=
  lines.filterMap fun l =>
    match l.body with
    | .ok i => i
    | .error _ => none

/-- The line of each label; where a label stands on several lines, the first. -/
def labelLines : Nat → List SourceLine → Table String Nat → Table String Nat
  | _, [], found => found
  | n, l :: rest, found =>
    labelLines (n + 1) rest <|
      match l.label with
      | some name => found.insertNew name n
      | none => found

/-- The errors of line `n` when the labels in `known` are defined above it. -/
def lineErrors (n : Nat) (l : SourceLine) (known : List String) : List AssemblyError :=
  (match l.label with
    | some name => if name ∈ known then [⟨n, .duplicateLabel name⟩] else []
    | none => []) ++
  (match l.body with
    | .ok _ => []
    | .error fault => [⟨n, fault⟩])

def errorsFrom : Nat → List SourceLine → List String → List AssemblyError
  | _, [], _ => []
  | n, l :: rest, known =>
    lineErrors n l known ++ errorsFrom (n + 1) rest (l.label.toList ++ known)

end Assembly

open Assembly in
def assemble (source : String) (capacity : Nat) : Assembly :=
  let raw := Text.lines source.toList
  let lines := raw.zipIdx.map fun l => SourceLine.read l.2 l.1
  let resolution := (instructions lines).resolve (labelLines 0 lines .empty)
  { program := resolution.program
    labels := resolution.labels
    lineCount := raw.length
    error :=
      if capacity < raw.length then some ⟨capacity - 1, .tooManyLines capacity⟩
      else AssemblyError.earliest? (errorsFrom 0 lines [] ++ resolution.errors) }

namespace Assembly

def strict (a : Assembly) : Except AssemblyError Assembly :=
  match a.error with
  | some e => .error e
  | none => .ok a

end Assembly
end Lockstep
