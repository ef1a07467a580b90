import Lockstep.Loading.LayoutFile
import Lockstep.Simulation.Run

/-!
Putting program files into a simulation, all of a layout at once or one that has changed. An edit
that fails leaves what was done before it.
-/
namespace Lockstep

/-- A change to a simulation that can fail, with the state it reached kept in either case. -/
abbrev Edit := ExceptT LoadError (StateM Simulation)

namespace Edit

def perform {α : Type} (edit : Edit α) (sim : Simulation) : Except LoadError α × Simulation :=
  (edit.run.run sim).run

def attempt (blame : SimulationError → LoadError)
    (change : Simulation → Except SimulationError Simulation) : Edit Unit := do
  match change (← get) with
  | .ok after => set after
  | .error e => throw (blame e)

def add (file : LayoutFile) : Edit Unit :=
  attempt .simulation fun sim => sim.addNode file.nodeClass file.slot

def remove (slot : UInt8) : Edit Unit :=
  attempt .simulation fun sim => (sim.removeNode slot).map (·.2)

/-- Places one file of a layout. A slot that the puzzle fixes has to be of the file's class. -/
def place (file : LayoutFile) : Edit Unit := do
  match (← get).node? file.slot with
  | some node =>
    if node.fixed ∧ node.nodeClass = file.nodeClass then pure ()
    else throw (.slotHolds file.path file.slot node.nodeClass)
  | none => add file
  attempt (.loadFailed file.path) fun sim => sim.setProgram file.slot file.source

def applyLayout : List LayoutFile → Edit Unit
  | [] => return ()
  | file :: rest => do
    place file
    applyLayout rest

end Edit

structure Reload where
  path : String
  slot : UInt8
  count : Nat
  error : Option NodeError
  deriving Repr, DecidableEq

namespace Edit

/-- Loads a file that has changed. The node in its slot is made, kept, or made anew in the file's
class, which one that the puzzle fixes cannot be. -/
def reload (file : LayoutFile) : Edit Reload := do
  match (← get).node? file.slot with
  | none => add file
  | some node =>
    if node.nodeClass = file.nodeClass then pure ()
    else if node.fixed then throw (.slotFixed file.path file.slot node.nodeClass)
    else
      remove file.slot
      add file
  attempt (.reloadFailed file.path) fun sim => sim.setProgram file.slot file.source
  let assembly := assemble file.source file.nodeClass.lines
  return {
    path := file.path
    slot := file.slot
    count := assembly.program.length
    error := assembly.error.map .static }

end Edit
end Lockstep
