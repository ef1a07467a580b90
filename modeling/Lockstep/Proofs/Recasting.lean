import Lockstep.Proofs.EventRecord

/-!
Simulations that run alike because their nodes do. A `Recast` puts other nodes in the place of those
of a simulation, and says that they take the same steps; a tick and a run then give the same, but
for the lines of errors and for what the score counts.
-/
namespace Lockstep

/-- Other nodes that take the same steps. -/
structure Recast where
  nodes : List Node → List Node
  error : NodeError → NodeError := id
  line : Nat → Nat := id
  score : Score → Score
  stepNodes (offer : Offer) (ch : Channels) (ns : List Node) (x : Exchange) :
    Exchange.stepNodes offer ch (nodes ns) x =
      (nodes (Exchange.stepNodes offer ch ns x).1, (Exchange.stepNodes offer ch ns x).2.1,
        (Exchange.stepNodes offer ch ns x).2.2.map fun f => (f.1, error f.2))
  mixChannels (ns : List Node) : Simulation.mixChannels (nodes ns) = Simulation.mixChannels ns
  map_reset (ns : List Node) : (nodes ns).map Node.reset = nodes (ns.map Node.reset)
  currentScore (sim : Simulation) :
    { sim with nodes := nodes sim.nodes }.currentScore = score sim.currentScore
  error_line (e : NodeError) : (error e).line = line e.line
  error_message (e : NodeError) : (error e).message = e.message

def Outcome.recast (r : Recast) : Outcome → Outcome
  | won score => won (r.score score)
  | halted slot error => halted slot (r.error error)
  | other => other

def Event.recast (r : Recast) : Event → Event
  | won score => won (r.score score)
  | runtimeError slot line message => runtimeError slot (r.line line) message
  | other => other

theorem Event.map_recast {events : List Event} (r : Recast) (h : ∀ e ∈ events, e.isOfNode) :
    events.map (Event.recast r) = events := by
  have hsame : ∀ e ∈ events, e.recast r = e := by
    intro e he
    have hnode := h e he
    cases e with
    | won => cases hnode
    | runtimeError => cases hnode
    | _ => rfl
  exact (List.map_congr_left hsame).trans (List.map_id events)

namespace Simulation

def recast (r : Recast) (sim : Simulation) : Simulation :=
  { sim with nodes := r.nodes sim.nodes, score := sim.score.map r.score }

def Tick.recast (r : Recast) (t : Tick) : Tick :=
  ⟨t.outcome.recast r, t.events.map (Event.recast r), t.after.recast r⟩

variable (r : Recast) (sim : Simulation)

theorem begun_recast : (sim.recast r).begun = sim.begun.recast r := by
  simp only [begun, resetRun, resetSet, recast, r.map_reset]
  rfl

theorem afterSteps_recast (ns : List Node) (x : Exchange) :
    (sim.recast r).afterSteps (r.nodes ns) x = (sim.afterSteps ns x).recast r := by
  simp only [afterSteps, remix, recast, r.mixChannels]

theorem toNextSet_recast (ns : List Node) (x : Exchange) :
    (sim.recast r).toNextSet (r.nodes ns) x = (sim.toNextSet ns x).recast r := by
  simp only [toNextSet, afterSteps_recast]
  simp only [resetSet, recast, r.map_reset]

theorem finalScore_recast (ns : List Node) (x : Exchange) :
    (sim.recast r).finalScore (r.nodes ns) x = r.score (sim.finalScore ns x) := by
  simp only [finalScore, afterSteps_recast]
  exact r.currentScore _

theorem toWon_recast (ns : List Node) (x : Exchange) :
    (sim.recast r).toWon (r.nodes ns) x = (sim.toWon ns x).recast r := by
  simp only [toWon, afterSteps_recast, finalScore_recast]
  rfl

theorem steps_recast {sim : Simulation} {ns : List Node} {x : Exchange}
    {failure : Option (UInt8 × NodeError)} (h : sim.steps = (ns, x, failure)) :
    (sim.recast r).steps = (r.nodes ns, x, failure.map fun f => (f.1, r.error f.2)) := by
  have hsteps := r.stepNodes sim.offer sim.channels sim.nodes { output := sim.output }
  rw [show Exchange.stepNodes _ _ sim.nodes _ = _ from h] at hsteps
  exact hsteps

theorem tick_recast : (sim.recast r).tick = sim.tick.recast r := by
  have hevents : ∀ {ns x failure}, sim.steps = (ns, x, failure) →
      x.events.map (Event.recast r) = x.events :=
    fun hs => Event.map_recast r (steps_isOfNode hs)
  have hactive : (sim.recast r).Active ↔ sim.Active := Iff.rfl
  have ht := sim.tick_ticked
  generalize sim.tick = t at ht
  cases ht with
  | idle hn => exact tick_idle (mt hactive.mp hn)
  | @halted ns x slot error ha hs =>
    rw [tick_eq_of_ticked (.halted (hactive.mpr ha) (steps_recast r hs)), Tick.recast,
      List.map_append, hevents hs, r.error_line, r.error_message, afterSteps_recast]
    rfl
  | @advanced ns x ha hs hc =>
    rw [tick_eq_of_ticked (.advanced (hactive.mpr ha) (steps_recast r hs) hc), Tick.recast,
      hevents hs, afterSteps_recast]
    rfl
  | @setPassed ns x ha hs hc hn =>
    rw [tick_eq_of_ticked (.setPassed (hactive.mpr ha) (steps_recast r hs) hc hn), Tick.recast,
      List.map_append, hevents hs, toNextSet_recast]
    rfl
  | @won ns x ha hs hc hl =>
    rw [tick_eq_of_ticked (.won (hactive.mpr ha) (steps_recast r hs) hc hl), Tick.recast,
      List.map_append, List.map_append, hevents hs, finalScore_recast, toWon_recast]
    rfl

/-! Whole runs. -/

theorem outcomes_recast (k : Nat) :
    (sim.recast r).outcomes k = (sim.outcomes k).map (Outcome.recast r) := by
  induction k generalizing sim with
  | zero => rfl
  | succ k ih =>
    rw [outcomes, tick_recast]
    exact congrArg (sim.tick.outcome.recast r :: ·) (ih sim.tick.after)

theorem afterTicks_recast (k : Nat) :
    (sim.recast r).afterTicks k = (sim.afterTicks k).recast r := by
  induction k generalizing sim with
  | zero => rfl
  | succ k ih =>
    rw [afterTicks, tick_recast]
    exact ih sim.tick.after

theorem record_recast (k : Nat) :
    (sim.recast r).record (List.replicate k .tick) =
      (sim.record (List.replicate k .tick)).map (Event.recast r) := by
  induction k generalizing sim with
  | zero => rfl
  | succ k ih =>
    simp only [List.replicate_succ, record, Operation.events, Operation.after, tick_recast,
      List.map_append]
    exact congrArg (sim.tick.events.map (Event.recast r) ++ ·) (ih sim.tick.after)

end Simulation
end Lockstep
