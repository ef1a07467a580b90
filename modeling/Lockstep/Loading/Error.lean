import Lockstep.Files.Store
import Lockstep.Json.Reader
import Lockstep.Simulation.Basic

/-!
Why something could not be loaded or saved. An error is told as a chain, from what was attempted
down to what went wrong there.
-/
namespace Lockstep

inductive LoadError where
  | puzzleUnreadable (path : String) (cause : FileError)
  | puzzleInvalid (path : String) (fault : Json.Fault)
  | settingsUnreadable (path : String) (cause : FileError)
  | settingsInvalid (path : String) (fault : Json.Fault)
  | noFileName (path : String)
  | notLayoutName (path : String)
  | fileUnreadable (path : String) (cause : FileError)
  | directoryUnreadable (path : String) (cause : FileError)
  | slotTwice (slot : UInt8) (path other : String)
  | slotHolds (path : String) (slot : UInt8) (nodeClass : NodeClass)
  | slotFixed (path : String) (slot : UInt8) (nodeClass : NodeClass)
  | loadFailed (path : String) (error : SimulationError)
  | reloadFailed (path : String) (error : SimulationError)
  | layoutInvalid (error : SimulationError)
  | createFailed (path : String) (cause : FileError)
  | writeFailed (path : String) (cause : FileError)
  | simulation (error : SimulationError)
  deriving Repr, DecidableEq

/-- The error, and below an error of a code that one once more. -/
def SimulationError.chain (e : SimulationError) : List String :=
  match e with
  | .code cause => [e.message, cause.message]
  | _ => [e.message]

namespace LoadError

def inSlot (path : String) (slot : UInt8) (rest : String) : String :=
  path ++ ": slot " ++ Text.numeral slot.toNat ++ rest

def bothPaths (path other : String) : String :=
  if path ≤ other then path ++ " and " ++ other else other ++ " and " ++ path

def chain : LoadError → List String
  | puzzleUnreadable path cause => ["Failed to read puzzle: " ++ path, cause.message]
  | puzzleInvalid path fault => ["Failed to parse puzzle: " ++ path, fault.category]
  | settingsUnreadable path cause => ["Failed to read config: " ++ path, cause.message]
  | settingsInvalid path fault => ["Failed to parse config: " ++ path, fault.category]
  | noFileName path => ["Invalid file name: " ++ path]
  | notLayoutName path => ["Expected <slot>-<class>.qasm, got " ++ path]
  | fileUnreadable path cause => ["Failed to read " ++ path, cause.message]
  | directoryUnreadable path cause => ["Failed to read layout directory: " ++ path, cause.message]
  | slotTwice slot path other =>
    ["Slot " ++ Text.numeral slot.toNat ++ " defined twice: " ++ bothPaths path other]
  | slotHolds path slot nodeClass =>
    [inSlot path slot (" already holds a " ++ nodeClass.name ++ " node")]
  | slotFixed path slot nodeClass => [inSlot path slot (" is fixed as " ++ nodeClass.name)]
  | loadFailed path error => ("Failed to load " ++ path) :: error.chain
  | reloadFailed path error => ("Failed to reload " ++ path) :: error.chain
  | layoutInvalid error => "Failed to decode layout" :: error.chain
  | createFailed path cause => ["Failed to create " ++ path, cause.message]
  | writeFailed path cause => ["Failed to write " ++ path, cause.message]
  | simulation error => error.chain

def text (e : LoadError) : String := String.intercalate ": " e.chain

end LoadError
end Lockstep
