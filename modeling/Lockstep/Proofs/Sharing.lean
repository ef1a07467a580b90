import Lockstep.Proofs.Guise
import Lockstep.Proofs.Recasting
import Lockstep.Proofs.Restoring

/-!
Sharing a layout as a code. A simulation runs the same in another guise, so what a code drops, the
source text, the labels and the lines, does not matter to a run; and the code keeps all the rest.
-/
namespace Lockstep

def Guise.bare : Guise where
  source := fun _ => ""
  labels := fun _ => .empty
  lineCount := fun _ => 0
  line := fun _ => 0

def Outcome.inGuise (g : Guise) : Outcome → Outcome
  | halted slot error => halted slot (error.inGuise g)
  | other => other

def Outcome.bare : Outcome → Outcome := inGuise .bare

def Simulation.inGuise (g : Guise) (sim : Simulation) : Simulation :=
  { sim with nodes := sim.nodes.map (Node.inGuise g) }

/-- The simulation without source texts, labels and line numbers. Everything else is left: the
puzzle, the run, and of each node its place and class, its instructions, and all that it holds. -/
def Simulation.bare : Simulation → Simulation := inGuise .bare

section Run
variable {g : Guise}

theorem Exchange.stepNode_inGuise (hslot : g.slot = id) (offer : Offer) (ch : Channels) (n : Node)
    (x : Exchange) :
    stepNode offer ch (n.inGuise g) x =
      ((stepNode offer ch n x).1.inGuise g, (stepNode offer ch n x).2.1,
        (stepNode offer ch n x).2.2.map fun f => (f.1, f.2.inGuise g)) := by
  have hn : (n.inGuise g).slot = n.slot := by simp only [Node.inGuise, hslot, id]
  unfold stepNode
  rw [hn, Node.step_inGuise]
  generalize n.step (terminal offer n.slot) ch x = r
  obtain ⟨result, m, y⟩ := r
  have hm : (m.inGuise g).slot = m.slot := by simp only [Node.inGuise, hslot, id]
  simp only [hm]
  refine Prod.ext rfl (Prod.ext rfl ?_)
  cases result with
  | failed fault => cases he : m.error <;> simp [Node.inGuise, he]
  | _ => rfl

theorem Exchange.stepNodes_inGuise (hslot : g.slot = id) (offer : Offer) (ch : Channels)
    (ns : List Node) (x : Exchange) :
    stepNodes offer ch (ns.map (Node.inGuise g)) x =
      ((stepNodes offer ch ns x).1.map (Node.inGuise g), (stepNodes offer ch ns x).2.1,
        (stepNodes offer ch ns x).2.2.map fun f => (f.1, f.2.inGuise g)) := by
  induction ns generalizing x with
  | nil => rfl
  | cons n ns ih =>
    simp only [List.map_cons, stepNodes, stepNode_inGuise hslot, ih]
    refine Prod.ext rfl (Prod.ext rfl ?_)
    cases (stepNode offer ch n x).2.2 <;> rfl

namespace Simulation

theorem mixChannels_inGuise (ns : List Node) :
    mixChannels (ns.map (Node.inGuise g)) = mixChannels ns := by
  simp only [mixChannels, List.foldl_map]
  rfl

theorem totalOf_inGuise {f : Node → Nat} (hf : ∀ n, f (n.inGuise g) = f n) (ns : List Node) :
    totalOf f (ns.map (Node.inGuise g)) = totalOf f ns := by
  simp only [totalOf, List.foldl_map, hf]

theorem currentScore_inGuise (sim : Simulation) :
    (sim.inGuise g).currentScore = sim.currentScore := by
  have hlength : ∀ n : Node, (n.inGuise g).program.length = n.program.length :=
    fun n => List.length_map _
  simp only [currentScore, inGuise]
  rw [totalOf_inGuise hlength, totalOf_inGuise fun _ => rfl]

def guised (g : Guise) (hslot : g.slot = id) : Recast where
  nodes := List.map (Node.inGuise g)
  error := NodeError.inGuise g
  line := g.line
  score := id
  stepNodes := Exchange.stepNodes_inGuise hslot
  mixChannels := mixChannels_inGuise
  map_reset ns := by
    simp only [List.map_map]
    exact List.map_congr_left fun n _ => n.inGuise_reset g
  currentScore sim := sim.currentScore_inGuise
  error_line e := by cases e <;> rfl
  error_message e := by cases e <;> rfl

theorem recast_guised (hslot : g.slot = id) (sim : Simulation) :
    sim.recast (guised g hslot) = sim.inGuise g := by
  simp only [recast, guised, inGuise, Option.map_id_fun, id]

theorem run_inGuise (hslot : g.slot = id) (sim : Simulation) (n : Nat) :
    (sim.inGuise g).outcomes n = (sim.outcomes n).map (Outcome.inGuise g) ∧
      (sim.inGuise g).afterTicks n = (sim.afterTicks n).inGuise g := by
  have houtcome : Outcome.recast (guised g hslot) = Outcome.inGuise g :=
    funext fun outcome => by cases outcome <;> rfl
  constructor
  · rw [← recast_guised hslot, outcomes_recast, houtcome]
  · rw [← recast_guised hslot, afterTicks_recast, recast_guised hslot]

end Simulation
end Run

namespace Simulation

theorem restored_bare {n : Node} (h : n.error = none) :
    n.restored.reset.inGuise .bare = n.reset.inGuise .bare := by
  have hlines : ∀ (p : Program) (line : Nat),
      (p.linedFrom line).map (Instruction.inGuise .bare) = p.map (Instruction.inGuise .bare) := by
    intro p
    induction p with
    | nil => exact fun _ => rfl
    | cons i p ih =>
      intro line
      exact congrArg (i.inGuise .bare :: ·) (ih (line + 1))
  simp only [Node.inGuise, Node.reset, Node.restored, h, Program.relined, hlines]
  rfl

theorem runs_alike {s t : Simulation} (h : s.bare = t.bare) (n : Nat) :
    (s.outcomes n).map Outcome.bare = (t.outcomes n).map Outcome.bare ∧
      (s.afterTicks n).bare = (t.afterTicks n).bare := by
  obtain ⟨hs, hs'⟩ := run_inGuise (g := .bare) rfl s n
  obtain ⟨ht, ht'⟩ := run_inGuise (g := .bare) rfl t n
  rw [Outcome.bare, ← hs, ← ht]
  exact ⟨congrArg (outcomes n) h, hs'.symm.trans ((congrArg (afterTicks n) h).trans ht')⟩

/-- Sharing a layout as a code preserves its execution: the layout of any simulation that is being
edited and has no errors is restored from its code, and runs as before. -/
theorem shared_layout_runs_alike (sim : Simulation) (hreach : Reachable sim)
    (hmode : sim.mode = .edit) (herror : ∀ n ∈ sim.nodes, n.error = none) :
    ∃ text copy, sim.encodeLayout = .ok text ∧ ofCode sim.puzzle sim.settings text = .ok copy ∧
      (∀ e, sim.start = .error e ↔ copy.start = .error e) ∧
      ∀ s t, sim.start = .ok s → copy.start = .ok t → ∀ n,
        (s.outcomes n).map Outcome.bare = (t.outcomes n).map Outcome.bare ∧
          (s.afterTicks n).bare = (t.afterTicks n).bare := by
  obtain ⟨text, copy, hencode, hcopy, hpuzzle, hsettings, hedit, hnodes⟩ :=
    restore hreach.placed herror
  refine ⟨text, copy, hencode, hcopy, ?_, ?_⟩
  · intro e
    simp only [start, transition, hpuzzle, hmode, hedit, if_true]
    split_ifs
    · exact Iff.rfl
    · simp [Except.map]
  · intro s t hs ht n
    obtain ⟨-, -, rfl⟩ := start_eq_ok hs
    obtain ⟨-, -, rfl⟩ := start_eq_ok ht
    apply runs_alike
    have hbare : (copy.nodes.map Node.reset).map (Node.inGuise .bare) =
        (sim.nodes.map Node.reset).map (Node.inGuise .bare) := by
      rw [hnodes]
      simp only [List.map_map]
      exact List.map_congr_left fun n hn => restored_bare (herror n hn)
    simp only [bare, inGuise, begun, resetRun, resetSet, hbare, hpuzzle, hsettings]

def relayPuzzle : Puzzle :=
  { id := "relay", title := "", goal := ""
    fixedNodes := [.tiny]
    sets := [⟨#[3], #[3]⟩, ⟨#[4, 5], #[4, 5]⟩] }

def relay : Simulation :=
  Operation.after
    (Operation.after
      { puzzle := relayPuzzle, settings := {}
        nodes := [{ nodeClass := .tiny, slot := 0, fixed := true }] }
      (.addNode .small 7))
    (.setProgram 0 "again: MOV OUTPUT INPUT\nJMP again ; and again")

theorem shared_layout_runs_alike_relay :
    Reachable relay ∧ relay.mode = .edit ∧ (∀ n ∈ relay.nodes, n.error = none) ∧
      ∃ text copy s t, relay.encodeLayout = .ok text ∧
        ofCode relay.puzzle relay.settings text = .ok copy ∧ relay.start = .ok s ∧
        copy.start = .ok t ∧ ∀ n, (s.afterTicks n).bare = (t.afterTicks n).bare := by
  have hbegin : ofPuzzle relayPuzzle {} =
      .ok { puzzle := relayPuzzle, settings := {}
            nodes := [{ nodeClass := .tiny, slot := 0, fixed := true }] } := rfl
  have hreach : Reachable relay := .after _ (.after _ (.ofPuzzle hbegin))
  have hmode : relay.mode = .edit := by decide +kernel
  have herror : ∀ n ∈ relay.nodes, n.error = none := by decide +kernel
  obtain ⟨text, copy, hencode, hcopy, hstart, hruns⟩ :=
    shared_layout_runs_alike relay hreach hmode herror
  have hs := start_eq_begun hmode (show relay.puzzle.sets ≠ [] by decide +kernel)
  cases ht : copy.start with
  | error e =>
    rw [(hstart e).mpr ht] at hs
    cases hs
  | ok t =>
    exact ⟨hreach, hmode, herror, text, copy, _, t, hencode, hcopy, hs, ht,
      fun n => (hruns _ t hs ht n).2⟩

end Simulation
end Lockstep
