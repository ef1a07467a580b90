import Lockstep.Proofs.Recasting
import Lockstep.Proofs.Refusals

/-!
Nodes that stand by. A node without a program, or with a text that is wrong, never takes a step, not
even where some lines of the text are instructions. A simulation that it has joined runs as it would
without it, tick by tick; only the score of a win counts its class and the instructions it holds.
-/
namespace Lockstep

def Node.Inert (n : Node) : Prop := n.program = [] ∨ ∃ e, n.error = some (.static e)

def Score.joinedBy (n : Node) (score : Score) : Score :=
  { score with
    instructions := score.instructions + n.program.length
    cost := score.cost + n.nodeClass.cost }

def Outcome.joinedBy (n : Node) : Outcome → Outcome
  | won score => won (score.joinedBy n)
  | other => other

def Event.joinedBy (n : Node) : Event → Event
  | won score => won (score.joinedBy n)
  | other => other

def Simulation.joinedBy (n : Node) (sim : Simulation) : Simulation :=
  { sim with
    nodes := insertNode n sim.nodes
    score := sim.score.map (Score.joinedBy n) }

section
variable {n : Node}

namespace Node

theorem Inert.not_steppable (h : n.Inert) : n.steppable = false := by
  rcases h with hprogram | ⟨e, herror⟩
  · simp [steppable, hprogram]
  · simp [steppable, herror]

/-- Stands by: takes no step, and holds nothing that a run could show. -/
structure Idles (n : Node) : Prop where
  inert : n.Inert
  rest : n.reset = n

theorem Idles.quiet (h : n.Idles) : n.accWritten = false :=
  congrArg accWritten h.rest.symm

theorem Idles.silent (h : n.Idles) : n.broadcasts = [] :=
  congrArg broadcasts h.rest.symm

end Node

namespace Exchange

theorem stepNode_idles (h : n.Idles) (offer : Offer) (ch : Channels) (x : Exchange) :
    stepNode offer ch n x = (n, x, none) := by
  have hstep : n.step (terminal offer n.slot) ch x = (.idle, n, x) :=
    if_neg (Bool.eq_false_iff.mp h.inert.not_steppable)
  have hclear : n.clearAccWritten = n := by
    rw [Node.clearAccWritten, ← h.quiet]
  simp only [stepNode, hstep, h.quiet, hclear]
  rfl

theorem stepNode_slot (offer : Offer) (ch : Channels) (m : Node) (x : Exchange) :
    (stepNode offer ch m x).1.slot = m.slot :=
  (Simulation.fields_of_reset (stepNode_reset offer ch m x)).1

theorem stepNodes_insertNode (h : n.Idles) (offer : Offer) (ch : Channels) (ns : List Node)
    (x : Exchange) :
    stepNodes offer ch (Simulation.insertNode n ns) x =
      (Simulation.insertNode n (stepNodes offer ch ns x).1, (stepNodes offer ch ns x).2) := by
  induction ns generalizing x with
  | nil =>
    simp only [Simulation.insertNode, stepNodes, stepNode_idles h]
    rfl
  | cons m ns ih =>
    have hslot := stepNode_slot offer ch m x
    unfold Simulation.insertNode
    split_ifs with hlt
    · simp only [stepNodes, stepNode_idles h, hslot, if_pos hlt]
      rfl
    · simp only [stepNodes, ih, hslot, if_neg hlt]

end Exchange

namespace Simulation
variable {sim : Simulation}

theorem map_reset_insertNode (n : Node) (ns : List Node) :
    (insertNode n ns).map Node.reset = insertNode n.reset (ns.map Node.reset) := by
  induction ns with
  | nil => rfl
  | cons m ns ih =>
    unfold insertNode
    simp only [List.map_cons, apply_ite (List.map Node.reset), ih]
    rfl

theorem totalOf_insertNode (f : Node → Nat) (n : Node) (ns : List Node) :
    totalOf f (insertNode n ns) = totalOf f ns + f n := by
  rw [totalOf_eq_sum, ((insertNode_perm n ns).map f).sum_eq, List.map_cons, List.sum_cons,
    totalOf_eq_sum, Nat.add_comm]

def joining (h : n.Idles) : Recast where
  nodes := insertNode n
  score := Score.joinedBy n
  stepNodes offer ch ns x := by
    rw [Exchange.stepNodes_insertNode h]
    exact Prod.ext rfl (Prod.ext rfl Option.map_id'.symm)
  mixChannels := mixChannels_insertNode h.silent
  map_reset ns := by rw [map_reset_insertNode, h.rest]
  currentScore sim := by simp only [currentScore, Score.joinedBy, totalOf_insertNode]
  error_line _ := rfl
  error_message _ := rfl

theorem run_joinedBy (h : n.Idles) (sim : Simulation) (k : Nat) :
    (sim.joinedBy n).outcomes k = (sim.outcomes k).map (Outcome.joinedBy n) ∧
      (sim.joinedBy n).record (List.replicate k .tick) =
        (sim.record (List.replicate k .tick)).map (Event.joinedBy n) ∧
      (sim.joinedBy n).afterTicks k = (sim.afterTicks k).joinedBy n := by
  have houtcome : Outcome.recast (joining h) = Outcome.joinedBy n :=
    funext fun outcome => by cases outcome <;> rfl
  have hevent : Event.recast (joining h) = Event.joinedBy n :=
    funext fun event => by cases event <;> rfl
  rw [← houtcome, ← hevent]
  exact ⟨outcomes_recast (joining h) sim k, record_recast (joining h) sim k,
    afterTicks_recast (joining h) sim k⟩

/-! Joining. -/

theorem node?_joinedBy (hfree : ∀ m ∈ sim.nodes, m.slot ≠ n.slot) (slot : UInt8) :
    (sim.joinedBy n).node? slot = if slot = n.slot then some n else sim.node? slot :=
  find?_insertNode hfree slot

theorem free_afterTicks {slot : UInt8} (hfree : ∀ m ∈ sim.nodes, m.slot ≠ slot) (k : Nat) :
    ∀ m ∈ (sim.afterTicks k).nodes, m.slot ≠ slot := by
  induction k generalizing sim with
  | zero => exact hfree
  | succ k ih => exact ih ((Node.enduring_reset fun m => m.slot ≠ slot).tick hfree)

theorem Edited.nodes_eq {extended : Simulation} (h : Edited sim extended) (hreach : Reachable sim)
    (hfree : sim.node? n.slot = none) (hnode : extended.node? n.slot = some n)
    (hothers : ∀ other, other ≠ n.slot → extended.node? other = sim.node? other) :
    extended.nodes = insertNode n sim.nodes := by
  have hvacant := node?_eq_none hfree
  have hplaced := h.placed hreach.placed
  refine InOrder.eq_of_node? (t := sim.joinedBy n) hplaced.order
    (hreach.placed.order.insertNode hvacant) fun slot => ?_
  rw [node?_joinedBy hvacant]
  split_ifs with hslot
  · rw [hslot, hnode]
  · exact hothers slot hslot

/-- A node that stands by does not interfere. Whatever edits have placed it in a free slot, and
changed nothing else, the run has the outcomes, the events and the states that it would have without
it, but for the score of a win; and the node stays as it is. -/
theorem inert_node_apart {sim extended : Simulation} {slot : UInt8} {n : Node}
    (hreach : Reachable sim) (hmode : sim.mode = .edit) (hedited : Edited sim extended)
    (hfree : sim.node? slot = none) (hnode : extended.node? slot = some n)
    (hothers : ∀ other, other ≠ slot → extended.node? other = sim.node? other)
    (hinert : n.Inert) :
    (∀ e, extended.start = .error e ↔ sim.start = .error e) ∧
      ∀ s t, sim.start = .ok s → extended.start = .ok t → ∀ k,
        t.outcomes k = (s.outcomes k).map (Outcome.joinedBy n) ∧
        t.record (List.replicate k .tick) =
          (s.record (List.replicate k .tick)).map (Event.joinedBy n) ∧
        t.afterTicks k = (s.afterTicks k).joinedBy n ∧
        (t.afterTicks k).node? slot = some n ∧
        ∀ other, other ≠ slot → (t.afterTicks k).node? other = (s.afterTicks k).node? other := by
  obtain ⟨hmem, rfl⟩ := node?_eq_some hnode
  have hnodes := hedited.nodes_eq hreach hfree hnode hothers
  have hmode' : extended.mode = .edit := hedited.mode_eq.trans hmode
  have hidles : n.Idles :=
    ⟨hinert, invariant_rest.edited hedited (invariant_rest.reachable hreach) hmode' n hmem⟩
  obtain ⟨nodes, channels, halted, rfl⟩ := hedited.same_run
  obtain rfl : nodes = insertNode n sim.nodes := hnodes
  refine ⟨fun e => by rw [start_eq_error_iff, start_eq_error_iff], ?_⟩
  intro s t hs ht k
  obtain ⟨-, -, rfl⟩ := start_eq_ok hs
  obtain ⟨-, -, rfl⟩ := start_eq_ok ht
  have hbegun : begun { sim with nodes := insertNode n sim.nodes, channels, halted } =
      sim.begun.joinedBy n :=
    begun_recast (joining hidles) sim
  rw [hbegun]
  obtain ⟨houtcomes, hrecord, hafter⟩ := run_joinedBy hidles sim.begun k
  have hvacant : ∀ m ∈ sim.begun.nodes, m.slot ≠ n.slot :=
    (Node.enduring_reset fun m => m.slot ≠ n.slot).map_reset (node?_eq_none hfree)
  have hlookup := node?_joinedBy (free_afterTicks hvacant k)
  refine ⟨houtcomes, hrecord, hafter, ?_, ?_⟩
  · rw [hafter, hlookup, if_pos rfl]
  · intro other hother
    rw [hafter, hlookup, if_neg hother]

def recital : Simulation :=
  vacant.afterAll [.addNode .tiny 0, .setProgram 0 "MOV OUTPUT INPUT"]

/-- A node that would put out a wrong value if it ran, but jumps to a label that is not there. -/
def heckler : Node :=
  Node.setProgram { nodeClass := .small, slot := 3 } "INC\nMOV OUTPUT 7\nJMP nowhere"

theorem inert_node_apart_heckler :
    Reachable recital ∧ recital.mode = .edit ∧ heckler.Inert ∧ heckler.program.length = 3 ∧
      ∃ extended t, Edited recital extended ∧ extended.node? 3 = some heckler ∧
        extended.start = .ok t ∧
        recital.begun.outcomes 3 = [.setPassed 0, .advanced, .won ⟨1, 1, 3⟩] ∧
        t.outcomes 3 = [.setPassed 0, .advanced, .won ⟨4, 4, 3⟩] ∧
        ∀ k, (t.afterTicks k).node? 3 = some heckler := by
  have hreach : Reachable recital := reachable_vacant _
  have hmode : recital.mode = .edit := by decide +kernel
  have hfree : recital.node? 3 = none := by decide +kernel
  have hinert : heckler.Inert := .inr ⟨⟨2, .unknownLabel "nowhere"⟩, by decide +kernel⟩
  have hscore : recital.begun.outcomes 3 = [.setPassed 0, .advanced, .won ⟨1, 1, 3⟩] := by
    decide +kernel
  obtain ⟨added, hadded⟩ : ∃ added, recital.addNode .small 3 = .ok added :=
    ⟨_, by rw [addNode, hfree]⟩
  have hnew : added.node? 3 = some { nodeClass := .small, slot := 3 } :=
    (node?_addNode hadded 3).trans (if_pos rfl)
  have hset := setProgram_ok hnew "INC\nMOV OUTPUT 7\nJMP nowhere"
  generalize (added.replaceNode _).remix.liftHalt = extended at hset
  have hedited : Edited recital extended := (Edited.refl.addNode hadded).setProgram hset
  have hnode : extended.node? 3 = some heckler :=
    (node?_setProgram hnew hset 3).trans (if_pos rfl)
  have hothers : ∀ other, other ≠ 3 → extended.node? other = recital.node? other := by
    intro other hother
    rw [node?_setProgram hnew hset, if_neg hother, node?_addNode hadded, if_neg hother]
  obtain ⟨-, hruns⟩ := inert_node_apart hreach hmode hedited hfree hnode hothers hinert
  have hsets : recital.puzzle.sets ≠ [] := by decide +kernel
  have hs := start_eq_begun hmode hsets
  have ht : extended.start = .ok extended.begun := by
    obtain ⟨nodes, channels, halted, rfl⟩ := hedited.same_run
    exact start_eq_begun hmode hsets
  refine ⟨hreach, hmode, hinert, by decide +kernel, extended, _, hedited, hnode, ht, hscore, ?_, ?_⟩
  · rw [(hruns _ _ hs ht 3).1, hscore]
    decide +kernel
  · exact fun k => (hruns _ _ hs ht k).2.2.2.1

end Simulation
end
end Lockstep
