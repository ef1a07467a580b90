import Lockstep.Proofs.RunState

/-!
Stopping undoes a run. A stop keeps the puzzle, the settings and what a reset leaves of the nodes,
and no operation of a run touches any of these; so however a run went, a stop leads back to the
simulation that was being edited, and the next run from there is the first one over again.
-/
namespace Lockstep

def Operation.outcome? (sim : Simulation) : Operation → Option Outcome
  | tick => some sim.tick.outcome
  | _ => none

namespace Simulation
variable {s t : Simulation}

theorem stop_congr (hpuzzle : t.puzzle = s.puzzle) (hsettings : t.settings = s.settings)
    (hnodes : t.nodes.map Node.reset = s.nodes.map Node.reset) : t.stop = s.stop := by
  simp only [stop, resetRun, resetSet, hpuzzle, hsettings, hnodes]

theorem tick_puzzle (s : Simulation) :
    s.tick.after.puzzle = s.puzzle ∧ s.tick.after.settings = s.settings := by
  have ht := s.tick_ticked
  generalize s.tick = t at ht
  cases ht <;> exact ⟨rfl, rfl⟩

theorem Ran.stop_eq (h : Ran s t) : t.stop = s.stop := by
  cases h with
  | refused => rfl
  | started => exact stop_congr rfl rfl (map_reset_reset s.nodes)
  | paused => exact stop_congr rfl rfl rfl
  | resumed => exact stop_congr rfl rfl rfl
  | stopped => exact stop_congr rfl rfl (map_reset_reset s.nodes)
  | ticked =>
    obtain ⟨hpuzzle, hsettings⟩ := s.tick_puzzle
    exact stop_congr hpuzzle hsettings s.tick_reset

theorem stop_afterAll {ops : List Operation} (hops : ∀ op ∈ ops, op.runs) (sim : Simulation) :
    (sim.afterAll ops).stop = sim.stop := by
  induction ops generalizing sim with
  | nil => rfl
  | cons op ops ih =>
    obtain ⟨hop, hrest⟩ := List.forall_mem_cons.mp hops
    calc (afterAll ops (op.after sim)).stop
      _ = (op.after sim).stop := ih hrest (op.after sim)
      _ = sim.stop := (ran hop sim).stop_eq

/-- Nothing of a run is left while a simulation is being edited, so there is nothing to undo. -/
theorem Reachable.stop_eq_self (hreach : Reachable s) (hmode : s.mode = .edit) : s.stop = s := by
  have hprogress := invariant_progress.reachable hreach
  have hhalt := invariant_halt.reachable hreach
  have hrest := invariant_rest.reachable hreach hmode
  obtain ⟨hticks, hcursor, hindex, hpassed, houtput⟩ := hprogress.editing hmode
  have hnodes : s.nodes.map Node.reset = s.nodes :=
    (List.map_congr_left hrest).trans (List.map_id' s.nodes)
  have hscore : s.score = none := hprogress.score_eq_none (by simp [hmode])
  have hhalted : s.halted = false := by
    by_contra hh
    have hrunning := hhalt.mode (by simpa using hh)
    simp [hmode] at hrunning
  have hchannels : s.channels = .empty := by
    rw [hreach.channels_eq, ← hnodes]
    exact mixChannels_reset s.nodes
  obtain ⟨puzzle, settings, nodes, channels, mode, halted, setIndex, setsPassed, cursor, output,
    ticks, score⟩ := s
  simp only at hmode hticks hcursor hindex hpassed houtput hnodes hscore hhalted hchannels
  simp only [stop, resetRun, resetSet, hnodes, hmode, hticks, hcursor, hindex, hpassed, houtput,
    hscore, hhalted, hchannels]

/-! Two runs, one after the other. -/

def tickOutcomes : List Operation → Simulation → List Outcome
  | [], _ => []
  | op :: ops, sim => (op.outcome? sim).toList ++ tickOutcomes ops (op.after sim)

theorem afterAll_append (before after : List Operation) (sim : Simulation) :
    sim.afterAll (before ++ after) = (sim.afterAll before).afterAll after := by
  induction before generalizing sim with
  | nil => rfl
  | cons op before ih => exact ih (op.after sim)

theorem record_append (before after : List Operation) (sim : Simulation) :
    sim.record (before ++ after) = sim.record before ++ (sim.afterAll before).record after := by
  induction before generalizing sim with
  | nil => rfl
  | cons op before ih =>
    simp only [List.cons_append, record, ih, List.append_assoc]
    rfl

theorem tickOutcomes_append (before after : List Operation) (sim : Simulation) :
    sim.tickOutcomes (before ++ after) =
      sim.tickOutcomes before ++ (sim.afterAll before).tickOutcomes after := by
  induction before generalizing sim with
  | nil => rfl
  | cons op before ih =>
    simp only [List.cons_append, tickOutcomes, ih, List.append_assoc]
    rfl

/-- Stopping undoes a run: whatever was started, paused, resumed and ticked, and however it ended, a
stop gives back the very simulation that was being edited. What is done next, another run or
anything else, goes as if there had been no run before. -/
theorem stop_undoes_run (sim : Simulation) (hreach : Reachable sim) (hmode : sim.mode = .edit)
    (ops : List Operation) (hops : ∀ op ∈ ops, op.runs) :
    (sim.afterAll ops).stop = sim ∧
    ∀ again : List Operation,
      sim.afterAll (ops ++ .stop :: again) = sim.afterAll again ∧
      sim.record (ops ++ .stop :: again) = sim.record ops ++ sim.record again ∧
      sim.tickOutcomes (ops ++ .stop :: again) = sim.tickOutcomes ops ++ sim.tickOutcomes again := by
  have hstop : (sim.afterAll ops).stop = sim :=
    (stop_afterAll hops sim).trans (hreach.stop_eq_self hmode)
  refine ⟨hstop, ?_⟩
  intro again
  have hnext : Operation.after (sim.afterAll ops) .stop = sim := hstop
  refine ⟨?_, ?_, ?_⟩
  · rw [afterAll_append]
    exact congrArg (afterAll again) hnext
  · rw [record_append]
    exact congrArg (fun t => sim.record ops ++ t.record again) hnext
  · rw [tickOutcomes_append]
    exact congrArg (fun t => sim.tickOutcomes ops ++ t.tickOutcomes again) hnext

def workshop : Simulation :=
  vacant.afterAll
    [.addNode .tiny 0, .setProgram 0 "JMP nowhere", .addNode .small 1,
      .setProgram 1 "MOV ACC INPUT\nMOV CH2 ACC\nMOV OUTPUT 7", .addNode .small 2,
      .setProgram 2 "NOP\nINC\nMOV OUTPUT CH2"]

def haltingRun : List Operation := [.start, .tick, .pause, .resume, .tick, .tick, .tick, .pause]

theorem stop_undoes_run_workshop :
    Reachable workshop ∧ workshop.mode = .edit ∧ (∀ op ∈ haltingRun, op.runs) ∧
      (workshop.afterAll haltingRun).halted = true ∧
      (workshop.afterAll haltingRun).nodes ≠ workshop.nodes ∧
      (workshop.afterAll haltingRun).stop = workshop ∧
      workshop.record (haltingRun ++ .stop :: haltingRun) =
        workshop.record haltingRun ++ workshop.record haltingRun := by
  have hreach : Reachable workshop := reachable_vacant _
  have hmode : workshop.mode = .edit := by decide +kernel
  have hruns : ∀ op ∈ haltingRun, op.runs := by
    simp [haltingRun, Operation.runs]
  obtain ⟨hstop, hagain⟩ := stop_undoes_run workshop hreach hmode haltingRun hruns
  exact ⟨hreach, hmode, hruns, by decide +kernel, by decide +kernel, hstop, (hagain haltingRun).2.1⟩

end Simulation
end Lockstep
