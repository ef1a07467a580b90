import Lockstep.Layout.Code
import Lockstep.Settings
import Lockstep.Simulation.Event
import Lockstep.Value

/-!
A simulation: a puzzle, the nodes laid out for it, and how far its run has come. Nodes are kept in
the order of their slots, no two in one slot. Editing is allowed at any time; `Mode` says what the
run is doing.
-/
namespace Lockstep

inductive Mode where
  | edit
  | running
  | paused
  | won
  deriving Repr, DecidableEq

def Mode.name : Mode → String
  | edit => "editing"
  | running => "running"
  | paused => "paused"
  | won => "won"

inductive SimulationError where
  | invalidTransition (mode : Mode) (action : String)
  | unknownSlot (slot : UInt8)
  | slotOccupied (slot : UInt8)
  | fixedNode (slot : UInt8)
  | tooManyFixedNodes (count : Nat)
  | noTestSets (id : String)
  | code (error : CodeError)
  deriving Repr, DecidableEq

def SimulationError.message : SimulationError → String
  | invalidTransition mode action => "Cannot " ++ action ++ " while " ++ mode.name
  | unknownSlot slot => "No node in slot " ++ Text.numeral slot.toNat
  | slotOccupied slot => "Slot " ++ Text.numeral slot.toNat ++ " is already occupied"
  | fixedNode slot => "Node in slot " ++ Text.numeral slot.toNat ++ " is fixed by the puzzle"
  | tooManyFixedNodes count =>
    "Puzzle fixes " ++ Text.numeral count ++ " nodes, at most 256 fit"
  | noTestSets id => "Puzzle " ++ id ++ " has no test sets"
  | code error => "Codec error: " ++ error.message

structure Simulation where
  puzzle : Puzzle
  settings : Settings
  nodes : List Node
  /-- the values on the channels when the last tick ended -/
  channels : Channels := .empty
  mode : Mode := .edit
  /-- a node has failed, and no tick runs until it is mended -/
  halted : Bool := false
  setIndex : Nat := 0
  setsPassed : Nat := 0
  cursor : Nat := 0
  output : Array Int := #[]
  /-- the ticks that ran; runs of 2^64 ticks, which a 64-bit counter cannot count, are outside the
  model -/
  ticks : Nat := 0
  score : Option Score := none
  deriving Repr, DecidableEq

namespace Simulation

def node? (sim : Simulation) (slot : UInt8) : Option Node := sim.nodes.find? fun n => n.slot = slot

def runtimeErrors (sim : Simulation) : List (UInt8 × NodeError) :=
  sim.nodes.filterMap fun n =>
    match n.error with
    | some e => if e.isRuntime then some (n.slot, e) else none
    | none => none

def layout (sim : Simulation) : Layout := sim.nodes.map fun n => ⟨n.nodeClass, n.slot, n.program⟩

def encodeLayout (sim : Simulation) : Except SimulationError String :=
  match sim.layout.encode with
  | .ok text => .ok text
  | .error e => .error (.code e)

/-- The sum of all broadcasts on each channel, drawn into the range of values. -/
def mixChannels (nodes : List Node) : Channels :=
  (nodes.foldl (fun sums n => n.broadcasts.foldl (fun sums b => sums.add b.1 b.2) sums)
    Table.empty).map clamp

def remix (sim : Simulation) : Simulation := { sim with channels := mixChannels sim.nodes }

def liftHalt (sim : Simulation) : Simulation :=
  if sim.runtimeErrors.isEmpty then { sim with halted := false } else sim

def insertNode (node : Node) : List Node → List Node
  | [] => [node]
  | n :: rest => if node.slot < n.slot then node :: n :: rest else n :: insertNode node rest

def addNode (sim : Simulation) (nodeClass : NodeClass) (slot : UInt8) :
    Except SimulationError Simulation :=
  match sim.node? slot with
  | some _ => .error (.slotOccupied slot)
  | none => .ok { sim with nodes := insertNode { nodeClass, slot } sim.nodes }

def removeNode (sim : Simulation) (slot : UInt8) : Except SimulationError (Node × Simulation) :=
  match sim.node? slot with
  | none => .error (.unknownSlot slot)
  | some node =>
    if node.fixed then .error (.fixedNode slot)
    else
      .ok (node, { sim with nodes := sim.nodes.filter fun n => n.slot ≠ slot }.remix.liftHalt)

def replaceNode (sim : Simulation) (node : Node) : Simulation :=
  { sim with nodes := sim.nodes.map fun n => if n.slot = node.slot then node else n }

/-- Gives a node a new program text. One that assembles is passed through its code and back first;
one that does not is kept in the node with its error. -/
def setProgram (sim : Simulation) (slot : UInt8) (source : String) :
    Except SimulationError Simulation :=
  match sim.node? slot with
  | none => .error (.unknownSlot slot)
  | some node =>
    let assembly := node.assemble source
    let installed := (sim.replaceNode (node.install source assembly)).remix.liftHalt
    match assembly.error with
    | some _ => .ok installed
    | none =>
      match assembly.program.verifiedCode with
      | .ok _ => .ok installed
      | .error e => .error (.code e)

def ofPuzzle (puzzle : Puzzle) (settings : Settings) : Except SimulationError Simulation :=
  if puzzle.fixedNodes.length ≤ 256 then
    .ok
      { puzzle, settings
        nodes := puzzle.fixedNodes.zipIdx.map fun c =>
          { nodeClass := c.1, slot := UInt8.ofNat c.2, fixed := true } }
  else .error (.tooManyFixedNodes puzzle.fixedNodes.length)

/-- Places one node of a layout; where the puzzle has placed it already, only its program counts. -/
def placeEntry (sim : Simulation) (e : LayoutEntry) : Except SimulationError Simulation :=
  match sim.node? e.slot with
  | some node =>
    if node.fixed ∧ node.nodeClass = e.nodeClass then sim.setProgram e.slot e.program.listing
    else .error (.slotOccupied e.slot)
  | none => do
    let placed ← sim.addNode e.nodeClass e.slot
    placed.setProgram e.slot e.program.listing

def ofCode (puzzle : Puzzle) (settings : Settings) (text : String) :
    Except SimulationError Simulation :=
  match Layout.decode text with
  | .error e => .error (.code e)
  | .ok layout => do
    let sim ← ofPuzzle puzzle settings
    layout.foldlM placeEntry sim

end Simulation
end Lockstep
