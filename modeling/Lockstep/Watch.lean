import Lockstep.Loading.Simulation
import Lockstep.Time.Nanos

/-!
A simulation that follows a directory. Changed layout files are reported by their paths; a path that
has been quiet for a while is due, is read, and its program is reloaded. What came of each reload is
kept in a history.
-/
namespace Lockstep

structure Watch where
  directory : String
  delay : Nanos := .ofMillis 100
  pending : Table String Nanos := .empty

namespace Watch

/-- Notes changes. Only layout files count. -/
def note (w : Watch) (reported : List String) (now : Nanos) : Watch :=
  { w with
    pending := (reported.filter fun path => (FileName.ofPath? path).isSome).foldl
      (fun pending path => pending.insert path now) w.pending }

def isDue (w : Watch) (now changed : Nanos) : Bool := decide (w.delay ≤ now - changed)

def due (w : Watch) (now : Nanos) : List String :=
  (w.pending.entries.filter fun e => w.isDue now e.2).map (·.1)

def forgetDue (w : Watch) (now : Nanos) : Watch :=
  { w with pending := ⟨w.pending.entries.filter fun e => !w.isDue now e.2⟩ }

/-- Notes changes and reads the files that are due, which are no longer pending then, whether they
could be read or not. -/
def poll (w : Watch) (files : Files) (reported : List String) (now : Nanos) :
    Except LoadError (List LayoutFile) × Watch :=
  let noted := w.note reported now
  ((noted.due now).mapM (LayoutFile.read files), noted.forgetDue now)

end Watch

structure LiveSimulation where
  sim : Simulation
  watch : Watch
  history : List Reload := []
  historyLimit : Nat := 100

namespace LiveSimulation

def ofDirectory (files : Files) (puzzle : Puzzle) (settings : Settings) (directory : String) :
    Except LoadError LiveSimulation := do
  return { sim := ← Simulation.ofDirectory files puzzle settings directory, watch := { directory } }

def record (live : LiveSimulation) (reload : Reload) : LiveSimulation :=
  let history := live.history ++ [reload]
  { live with history := if live.historyLimit < history.length then history.tail else history }

def reloadAll (live : LiveSimulation) : List LayoutFile → Except LoadError Unit × LiveSimulation
  | [] => (.ok (), live)
  | file :: rest =>
    match (Edit.reload file).perform live.sim with
    | (.ok reload, sim) => ({ live with sim := sim }.record reload).reloadAll rest
    | (.error e, sim) => (.error e, { live with sim := sim })

def check (live : LiveSimulation) (files : Files) (reported : List String) (now : Nanos) :
    Except LoadError Nat × LiveSimulation :=
  match live.watch.poll files reported now with
  | (.error e, watch) => (.error e, { live with watch := watch })
  | (.ok changed, watch) =>
    match { live with watch := watch }.reloadAll changed with
    | (.ok (), after) => (.ok changed.length, after)
    | (.error e, after) => (.error e, after)

def tick (live : LiveSimulation) (files : Files) (reported : List String) (now : Nanos) :
    Except LoadError Simulation.Tick × LiveSimulation :=
  match live.check files reported now with
  | (.error e, after) => (.error e, after)
  | (.ok _, after) =>
    let t := after.sim.tick
    (.ok t, { after with sim := t.after })

def lastReload? (live : LiveSimulation) : Option Reload := live.history.getLast?

end LiveSimulation
end Lockstep
