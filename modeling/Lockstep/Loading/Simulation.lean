import Lockstep.Loading.Edit
import Lockstep.Puzzle.Json
import Lockstep.Settings.Json

/-!
Loading puzzles, settings and whole simulations from files, and saving a layout.
-/
namespace Lockstep

def Puzzle.load (files : Files) (path : String) : Except LoadError Puzzle := do
  let text ← (files.read path).mapError (.puzzleUnreadable path)
  (Puzzle.ofJson text).mapError (.puzzleInvalid path)

def Settings.load (files : Files) (path : String) : Except LoadError Settings := do
  let text ← (files.read path).mapError (.settingsUnreadable path)
  (Settings.ofJson text).mapError (.settingsInvalid path)

namespace Simulation

def ofFiles (puzzle : Puzzle) (settings : Settings) (layout : List LayoutFile) :
    Except LoadError Simulation := do
  let sim ← (ofPuzzle puzzle settings).mapError .simulation
  match (Edit.applyLayout layout).perform sim with
  | (.ok (), after) => return after
  | (.error e, _) => throw e

def ofDirectory (files : Files) (puzzle : Puzzle) (settings : Settings) (directory : String) :
    Except LoadError Simulation := do
  ofFiles puzzle settings (← LayoutFile.readDirectory files directory)

def load (files : Files) (puzzlePath directory : String) (settings : Settings) :
    Except LoadError Simulation := do
  ofDirectory files (← Puzzle.load files puzzlePath) settings directory

def savedFile (directory : String) (n : Node) : String × String :=
  (Path.join directory (FileName.mk n.slot n.nodeClass).text, n.source)

def writeAll (files : Files) : List (String × String) → Except LoadError Unit × Files
  | [] => (.ok (), files)
  | (path, text) :: rest =>
    match files.write path text with
    | .ok written => writeAll written rest
    | .error cause => (.error (.writeFailed path cause), files)

/-- Writes the program of each node to its file in a directory, which is made if need be. Gives the
paths and texts written, and the files after it. -/
def save (sim : Simulation) (files : Files) (directory : String) :
    Except LoadError (List (String × String)) × Files :=
  match files.createDirectory directory with
  | (.error cause, made) => (.error (.createFailed directory cause), made)
  | (.ok (), made) =>
    let saved := sim.nodes.map (savedFile directory)
    match writeAll made saved with
    | (.ok (), written) => (.ok saved, written)
    | (.error e, written) => (.error e, written)

end Simulation
end Lockstep
