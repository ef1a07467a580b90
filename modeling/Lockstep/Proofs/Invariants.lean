import Lockstep.Proofs.EventRecord
import Lockstep.Proofs.Placement
import Lockstep.Proofs.StepEffect

/-!
Invariants, each induction made once. `Enduring` properties of nodes are kept by every run, and an
`Invariant` of simulations holds in all that can be reached.
-/
namespace Lockstep

namespace Node
variable {P : Node → Prop}

/-- A property of nodes that running keeps. -/
structure Enduring (P : Node → Prop) : Prop where
  reset : ∀ n, P n → P n.reset
  clearAccWritten : ∀ n, P n → P n.clearAccWritten
  step : ∀ {n m : Node} {r : StepResult}, n.Stepped r m → P n → P m

inductive Reaches (n : Node) : Node → Prop
  | refl : Reaches n n
  | reset {m : Node} (h : Reaches n m) : Reaches n m.reset
  | clearAccWritten {m : Node} (h : Reaches n m) : Reaches n m.clearAccWritten
  | step {m : Node} (h : Reaches n m) {σ : Type} (t : Terminal σ) (ch : Channels) (s : σ) :
      Reaches n (m.step t ch s).2.1

theorem Enduring.reaches (h : Enduring P) {n m : Node} (hr : n.Reaches m) (hn : P n) : P m := by
  induction hr with
  | refl => exact hn
  | reset _ ih => exact h.reset _ ih
  | clearAccWritten _ ih => exact h.clearAccWritten _ ih
  | step _ t ch s ih => exact h.step (step_stepped t ch _ s) ih

theorem tuned_enduring : Enduring Tuned := by
  refine ⟨fun n _ => tuned_of_silent rfl, fun n h => ⟨h.distinct, h.value⟩, ?_⟩
  intro n m r hstep h
  cases hstep with
  | idle => exact h
  | continued _ _ he =>
    have hm := h.effect he
    exact ⟨hm.distinct, hm.value⟩
  | jumped => exact ⟨h.distinct, h.value⟩
  | failed => exact ⟨h.distinct, h.value⟩

theorem Stepped.reset_eq {n m : Node} {r : StepResult} (h : n.Stepped r m) : m.reset = n.reset := by
  cases h with
  | idle => rfl
  | continued _ _ he =>
    rw [advance_reset, he.frame]
    rfl
  | jumped => rfl
  | failed hn fault =>
    simp only [fail, reset, hn]
    rfl

theorem enduring_reset (P : Node → Prop) : Enduring fun n => P n.reset where
  reset n h := n.reset_reset.symm ▸ h
  clearAccWritten _ h := h
  step hstep h := hstep.reset_eq.symm ▸ h

theorem Enduring.stepNodes (h : Enduring P) (offer : Offer) (ch : Channels) {ns : List Node}
    (hns : ∀ n ∈ ns, P n) (x : Exchange) : ∀ n ∈ (Exchange.stepNodes offer ch ns x).1, P n := by
  induction ns generalizing x with
  | nil => exact hns
  | cons n ns ih =>
    simp only [Exchange.stepNodes]
    refine List.forall_mem_cons.mpr ⟨?_, ?_⟩
    · have hstep := n.step_stepped (Exchange.terminal offer n.slot) ch x
      exact h.clearAccWritten _ (h.step hstep (hns n (.head _)))
    · exact ih (fun m hm => hns m (.tail _ hm)) _

theorem Enduring.map_reset (h : Enduring P) {ns : List Node} (hns : ∀ n ∈ ns, P n) :
    ∀ n ∈ ns.map Node.reset, P n := by
  intro n hn
  obtain ⟨m, hm, rfl⟩ := List.mem_map.mp hn
  exact h.reset m (hns m hm)

theorem Enduring.tick (h : Enduring P) {sim : Simulation} (hns : ∀ n ∈ sim.nodes, P n) :
    ∀ n ∈ sim.tick.after.nodes, P n := by
  have hsteps : ∀ {ns x failure}, sim.steps = (ns, x, failure) → ∀ n ∈ ns, P n := by
    intro ns x failure hs
    have hkept := h.stepNodes sim.offer sim.channels hns { output := sim.output }
    rw [← Simulation.steps, hs] at hkept
    exact hkept
  have ht := sim.tick_ticked
  generalize sim.tick = t at ht
  cases ht with
  | idle => exact hns
  | halted _ hs => exact hsteps hs
  | advanced _ hs => exact hsteps hs
  | setPassed _ hs => exact h.map_reset (hsteps hs)
  | won _ hs => exact hsteps hs

end Node

def Operation.runs : Operation → Bool
  | start => true
  | pause => true
  | resume => true
  | stop => true
  | tick => true
  | _ => false

namespace Simulation

inductive Ran (sim : Simulation) : Simulation → Prop
  | refused : Ran sim sim
  | started (hmode : sim.mode = .edit) (hsets : sim.puzzle.sets ≠ []) : Ran sim sim.begun
  | paused (hmode : sim.mode = .running) : Ran sim { sim with mode := .paused }
  | resumed (hmode : sim.mode = .paused) : Ran sim { sim with mode := .running }
  | stopped : Ran sim sim.stop
  | ticked : Ran sim sim.tick.after

theorem ran {op : Operation} (hop : op.runs) (sim : Simulation) : Ran sim (op.after sim) := by
  cases op with
  | start =>
    rw [Operation.after]
    cases hs : sim.start with
    | error e => exact .refused
    | ok t =>
      obtain ⟨hmode, hsets, rfl⟩ := start_eq_ok hs
      exact .started hmode hsets
  | pause =>
    rw [Operation.after]
    cases hs : sim.pause with
    | error e => exact .refused
    | ok t =>
      obtain ⟨hmode, rfl⟩ := transition_eq_ok hs
      exact .paused hmode
  | resume =>
    rw [Operation.after]
    cases hs : sim.resume with
    | error e => exact .refused
    | ok t =>
      obtain ⟨hmode, rfl⟩ := transition_eq_ok hs
      exact .resumed hmode
  | stop => exact .stopped
  | tick => exact .ticked
  | _ => cases hop

end Simulation

theorem Node.Enduring.operation {P : Node → Prop} (h : Enduring P) {sim : Simulation}
    (hns : ∀ n ∈ sim.nodes, P n) {op : Operation} (hop : op.runs) :
    ∀ n ∈ (op.after sim).nodes, P n := by
  have hran := Simulation.ran hop sim
  generalize op.after sim = t at hran
  cases hran with
  | refused => exact hns
  | started => exact h.map_reset hns
  | paused => exact hns
  | resumed => exact hns
  | stopped => exact h.map_reset hns
  | ticked => exact h.tick hns

theorem Node.Enduring.afterAll {P : Node → Prop} (h : Enduring P) {sim : Simulation}
    (hns : ∀ n ∈ sim.nodes, P n) {ops : List Operation} (hops : ∀ op ∈ ops, op.runs) :
    ∀ n ∈ (sim.afterAll ops).nodes, P n := by
  induction ops generalizing sim with
  | nil => exact hns
  | cons op ops ih =>
    obtain ⟨hop, hrest⟩ := List.forall_mem_cons.mp hops
    exact ih (h.operation hns hop) hrest

namespace Simulation
variable {P : Simulation → Prop} {s t : Simulation}

/-! Where the nodes of a simulation come from. -/

theorem mem_of_addNode {nodeClass : NodeClass} {slot : UInt8} {n : Node}
    (h : s.addNode nodeClass slot = .ok t) (hn : n ∈ t.nodes) :
    n = { nodeClass, slot } ∨ n ∈ s.nodes := by
  obtain ⟨-, rfl⟩ := addNode_eq_ok h
  exact mem_insertNode.mp hn

theorem mem_of_removeNode {node n : Node} {slot : UInt8}
    (h : s.removeNode slot = .ok (node, t)) (hn : n ∈ t.nodes) : n ∈ s.nodes := by
  obtain ⟨-, -, rfl⟩ := removeNode_eq_ok h
  rw [liftHalt_nodes] at hn
  exact (List.mem_filter.mp hn).1

theorem mem_of_setProgram {slot : UInt8} {source : String} {n : Node}
    (h : s.setProgram slot source = .ok t) (hn : n ∈ t.nodes) :
    (∃ node, s.node? slot = some node ∧ n = node.setProgram source) ∨ n ∈ s.nodes := by
  obtain ⟨node, hnode, rfl, -⟩ := setProgram_eq_ok h
  rw [liftHalt_nodes] at hn
  obtain ⟨m, hm, rfl⟩ := List.mem_map.mp hn
  split_ifs
  · exact .inl ⟨node, hnode, rfl⟩
  · exact .inr hm

/-- A property of simulations that holds at first and that every operation keeps. -/
structure Invariant (P : Simulation → Prop) : Prop where
  ofPuzzle : ∀ {puzzle : Puzzle} {settings : Settings} {sim : Simulation},
    ofPuzzle puzzle settings = .ok sim → P sim
  addNode : ∀ {s t : Simulation} {nodeClass : NodeClass} {slot : UInt8},
    s.addNode nodeClass slot = .ok t → P s → P t
  removeNode : ∀ {s t : Simulation} {node : Node} {slot : UInt8},
    s.removeNode slot = .ok (node, t) → P s → P t
  setProgram : ∀ {s t : Simulation} {slot : UInt8} {source : String},
    s.setProgram slot source = .ok t → P s → P t
  start : ∀ {s : Simulation}, s.mode = .edit → s.puzzle.sets ≠ [] → P s → P s.begun
  pause : ∀ {s : Simulation}, s.mode = .running → P s → P { s with mode := .paused }
  resume : ∀ {s : Simulation}, s.mode = .paused → P s → P { s with mode := .running }
  stop : ∀ {s : Simulation}, P s → P s.stop
  tick : ∀ {s : Simulation}, P s → P s.tick.after

theorem Invariant.edited (h : Invariant P) (he : Edited s t) (hs : P s) : P t := by
  induction he with
  | refl => exact hs
  | addNode _ hu ih => exact h.addNode hu ih
  | removeNode _ hu ih => exact h.removeNode hu ih
  | setProgram _ hu ih => exact h.setProgram hu ih

theorem Invariant.operated (h : Invariant P) {op : Operation} {events : List Event}
    (ho : Operated s op events t) (hs : P s) : P t := by
  cases ho with
  | edited _ he => exact h.edited he hs
  | started hmode hsets => exact h.start hmode hsets hs
  | paused hmode => exact h.pause hmode hs
  | resumed hmode => exact h.resume hmode hs
  | stopped => exact h.stop hs
  | ticked => exact h.tick hs

theorem Invariant.reachable (h : Invariant P) {sim : Simulation} (hr : Reachable sim) : P sim := by
  induction hr with
  | ofPuzzle hp => exact h.ofPuzzle hp
  | ofCode hc =>
    obtain ⟨bare, hbare, hedited⟩ := ofCode_edited hc
    exact h.edited hedited (h.ofPuzzle hbare)
  | after op _ ih => exact h.operated (Simulation.operated op _) ih

/-- A property that new nodes have, and that neither a program nor a run takes from them, is one of
all nodes. -/
theorem invariant_nodes {Q : Node → Prop} (h : Node.Enduring Q)
    (hnew : ∀ nodeClass slot fixed, Q { nodeClass, slot, fixed })
    (hset : ∀ n source, Q n → Q (n.setProgram source)) :
    Invariant fun sim => ∀ n ∈ sim.nodes, Q n where
  ofPuzzle := by
    intro puzzle settings sim hp n hn
    obtain ⟨nodeClass, slot, rfl⟩ := mem_of_ofPuzzle hp hn
    exact hnew _ _ _
  addNode := by
    intro s t nodeClass slot ht hs n hn
    rcases mem_of_addNode ht hn with rfl | hn
    · exact hnew _ _ _
    · exact hs n hn
  removeNode := fun ht hs n hn => hs n (mem_of_removeNode ht hn)
  setProgram := by
    intro s t slot source ht hs n hn
    rcases mem_of_setProgram ht hn with ⟨node, hnode, rfl⟩ | hn
    · exact hset _ _ (hs _ (node?_eq_some hnode).1)
    · exact hs n hn
  start := fun _ _ hs => h.map_reset hs
  pause := fun _ hs => hs
  resume := fun _ hs => hs
  stop := fun hs => h.map_reset hs
  tick := fun hs => h.tick hs

theorem Reachable.tuned {sim : Simulation} (h : Reachable sim) : ∀ n ∈ sim.nodes, n.Tuned :=
  (invariant_nodes Node.tuned_enduring (fun _ _ _ => Node.tuned_of_silent rfl)
    fun _ _ _ => Node.tuned_of_silent rfl).reachable h

def vacant : Simulation := { puzzle := echo.puzzle, settings := {}, nodes := [] }

theorem ofPuzzle_vacant : ofPuzzle echo.puzzle {} = .ok vacant := rfl

theorem reachable_vacant (ops : List Operation) : Reachable (vacant.afterAll ops) :=
  (Reachable.ofPuzzle ofPuzzle_vacant).afterAll ops

end Simulation
end Lockstep
