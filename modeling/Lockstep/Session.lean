import Lockstep.Simulation.Run
import Lockstep.Time.Pacer

/-!
A simulation that runs by the clock: the simulation, a pacer, and the time it is. `pump` runs the
ticks that are due.
-/
namespace Lockstep

structure Session where
  sim : Simulation
  pacer : Pacer
  now : Nanos
  pumpLimit : Nat := 64

inductive SessionError where
  | refused (error : SimulationError)
  | time (overflow : TimeOverflow)

namespace Session

structure Pumped where
  outcomes : List Outcome
  events : List Event
  after : Session

def timed {α : Type} (r : Except TimeOverflow α) : Except SessionError α := r.mapError .time

def allowed {α : Type} (r : Except SimulationError α) : Except SessionError α :=
  r.mapError .refused

def opening (sim : Simulation) (now : Nanos) : Except TimeOverflow Session := do
  let pacer ← Pacer.starting sim.settings.timing now
  return { sim, pacer, now }

def advance (s : Session) (elapsed : Nanos) : Except TimeOverflow Session := do
  let now ← s.now.plus elapsed
  return { s with now := now }

def setClock (s : Session) (now : Nanos) : Session := { s with now := now }

def setPace (s : Session) (pace : Pace) : Except TimeOverflow Session := do
  let pacer ← s.pacer.setPace pace s.now
  return { s with pacer := pacer }

def start (s : Session) : Except SessionError Session := do
  let sim ← allowed s.sim.start
  let pacer ← timed (Pacer.starting sim.settings.timing s.now)
  return { s with sim := sim, pacer := pacer }

def pause (s : Session) : Except SessionError Session := do
  let sim ← allowed s.sim.pause
  timed ({ s with sim := sim }.setPace .paused)

def resume (s : Session) (pace : Pace) : Except SessionError Session := do
  let sim ← allowed s.sim.resume
  timed ({ s with sim := sim }.setPace pace)

def stop (s : Session) : Session := { s with sim := s.sim.stop }

/-- Runs the ticks that are due, `limit` at most, until the simulation no longer goes on. -/
def pumpUpTo (s : Session) : Nat → Except TimeOverflow Pumped
  | 0 => .ok ⟨[], [], s⟩
  | limit + 1 =>
    if s.sim.mode = .running ∧ ¬ s.sim.halted then do
      match ← s.pacer.poll s.now with
      | none => return ⟨[], [], s⟩
      | some pacer =>
        let t := s.sim.tick
        let next := { s with sim := t.after, pacer := pacer }
        if t.outcome.goesOn then
          let rest ← next.pumpUpTo limit
          return ⟨t.outcome :: rest.outcomes, t.events ++ rest.events, rest.after⟩
        else return ⟨[t.outcome], t.events, next⟩
    else .ok ⟨[], [], s⟩

def pump (s : Session) : Except TimeOverflow Pumped := s.pumpUpTo s.pumpLimit

end Session
end Lockstep
