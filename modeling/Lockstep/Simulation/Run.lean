import Lockstep.Simulation.Basic
import Lockstep.Simulation.Exchange

/-!
Running. In a tick every node takes one step on the channel values of the tick before; then the
channels are mixed anew. A test set is passed when its output is complete and all its input taken,
and the next one starts from nodes that are reset. After the last one the puzzle is won.
-/
namespace Lockstep

namespace Simulation

def resetSet (sim : Simulation) : Simulation :=
  { sim with
    output := #[]
    cursor := 0
    channels := .empty
    nodes := sim.nodes.map Node.reset }

def resetRun (sim : Simulation) : Simulation :=
  { sim with
    setIndex := 0
    setsPassed := 0
    ticks := 0
    halted := false
    score := none }.resetSet

def transition (sim : Simulation) (source target : Mode) (action : String) :
    Except SimulationError Simulation :=
  if sim.mode = source then .ok { sim with mode := target }
  else .error (.invalidTransition sim.mode action)

def start (sim : Simulation) : Except SimulationError Simulation :=
  if sim.puzzle.sets.isEmpty then .error (.noTestSets sim.puzzle.id)
  else (sim.transition .edit .running "start").map resetRun

def pause (sim : Simulation) : Except SimulationError Simulation :=
  sim.transition .running .paused "pause"

def resume (sim : Simulation) : Except SimulationError Simulation :=
  sim.transition .paused .running "resume"

def stop (sim : Simulation) : Simulation := { sim with mode := .edit }.resetRun

def totalOf (f : Node → Nat) (nodes : List Node) : Nat :=
  nodes.foldl (fun total n => total + f n) 0

def currentScore (sim : Simulation) : Score :=
  { instructions := totalOf (fun n => n.program.length) sim.nodes
    cost := totalOf (fun n => n.nodeClass.cost) sim.nodes
    ticks := sim.ticks }

def currentSet (sim : Simulation) : TestSet := sim.puzzle.sets[sim.setIndex]?.getD ⟨#[], #[]⟩

def offer (sim : Simulation) : Offer :=
  { input := sim.currentSet.input[sim.cursor]?
    expected := sim.currentSet.output
    limit := sim.settings.outputLimit }

structure Tick where
  outcome : Outcome
  events : List Event
  after : Simulation

def afterSteps (sim : Simulation) (nodes : List Node) (x : Exchange) : Simulation :=
  { sim with
    ticks := sim.ticks + 1
    nodes := nodes
    output := x.output
    cursor := if x.consumed then sim.cursor + 1 else sim.cursor }.remix

/-- The test set is passed: on to the next one, or the puzzle is won. -/
def passSet (sim : Simulation) (events : List Event) : Tick :=
  let set := sim.setIndex
  let passed := { sim with setsPassed := sim.setsPassed + 1 }
  let events := events ++ [.setPassed set]
  if set + 1 < sim.puzzle.sets.length then
    ⟨.setPassed set, events, { passed with setIndex := set + 1 }.resetSet⟩
  else
    let score := sim.currentScore
    ⟨.won score, events ++ [.won score], { passed with mode := .won, score := some score }⟩

def tick (sim : Simulation) : Tick :=
  if sim.mode = .running ∧ ¬ sim.halted then
    match Exchange.stepNodes sim.offer sim.channels sim.nodes { output := sim.output } with
    | (nodes, x, failure) =>
      let stepped := sim.afterSteps nodes x
      match failure with
      | some (slot, error) =>
        ⟨.halted slot error, x.events ++ [.runtimeError slot error.line error.message],
          { stepped with halted := true }⟩
      | none =>
        if x.output = sim.currentSet.output ∧ stepped.cursor = sim.currentSet.input.size then
          stepped.passSet x.events
        else ⟨.advanced, x.events, stepped⟩
  else ⟨.idle, [], sim⟩

/-- Up to `limit` ticks, until one after which the run does not go on. The last outcome counts;
`events` holds what happened before. -/
def runFrom (last : Outcome) (events : Array Event) :
    Nat → Simulation → Outcome × Array Event × Simulation
  | 0, sim => (last, events, sim)
  | limit + 1, sim =>
    let t := sim.tick
    let events := events.appendList t.events
    if t.outcome.goesOn then runFrom t.outcome events limit t.after
    else (t.outcome, events, t.after)

def run (sim : Simulation) (limit : Nat) : Outcome × Array Event × Simulation :=
  runFrom .idle #[] limit sim

end Simulation
end Lockstep
