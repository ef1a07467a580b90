import Lockstep.Proofs.Reloading

/-!
Operations that are refused. `inPlace` carries out an operation on one simulation, check by check
and change by change, and keeps what was done when it is refused. It comes to what the operation
comes to, so nothing was done by then. `Refused` lists the reasons, and there are no others: a
program text is always taken, and a reload is refused by a node of the puzzle only, before anything
is removed.
-/
namespace Lockstep

namespace Simulation
variable {sim : Simulation} {slot : UInt8} {cause : SimulationError}

theorem transition_eq_error_iff {source target : Mode} {action : String} :
    sim.transition source target action = .error cause ↔
      sim.mode ≠ source ∧ .invalidTransition sim.mode action = cause := by
  unfold transition
  split_ifs with hmode <;> simp [hmode]

theorem start_eq_error_iff :
    sim.start = .error cause ↔
      (sim.puzzle.sets = [] ∧ .noTestSets sim.puzzle.id = cause) ∨
        (sim.puzzle.sets ≠ [] ∧ sim.mode ≠ .edit ∧
          .invalidTransition sim.mode "start" = cause) := by
  have hmap : (sim.transition .edit .running "start").map resetRun = .error cause ↔
      sim.transition .edit .running "start" = .error cause := by
    cases sim.transition .edit .running "start" <;> simp [Except.map]
  unfold start
  split_ifs with hsets
  · simp [List.isEmpty_iff.mp hsets]
  · rw [hmap, transition_eq_error_iff]
    simp [mt List.isEmpty_iff.mpr hsets]

theorem addNode_eq_error_iff {nodeClass : NodeClass} :
    sim.addNode nodeClass slot = .error cause ↔
      (∃ n, sim.node? slot = some n) ∧ .slotOccupied slot = cause := by
  unfold addNode
  cases sim.node? slot <;> simp

theorem removeNode_eq_error_iff :
    sim.removeNode slot = .error cause ↔
      (sim.node? slot = none ∧ .unknownSlot slot = cause) ∨
        ∃ n, sim.node? slot = some n ∧ n.fixed = true ∧ .fixedNode slot = cause := by
  unfold removeNode
  cases sim.node? slot with
  | none => simp
  | some n => cases hfixed : n.fixed <;> simp [hfixed]

theorem setProgram_eq_error_iff {source : String} :
    sim.setProgram slot source = .error cause ↔
      sim.node? slot = none ∧ .unknownSlot slot = cause := by
  cases hn : sim.node? slot with
  | none => simp [setProgram, hn]
  | some n => simp [setProgram_ok hn]

end Simulation

namespace Edit

def shift (source target : Mode) (action : String) : Edit Unit := do
  let sim ← get
  if sim.mode = source then modify fun sim => { sim with mode := target }
  else throw (.simulation (.invalidTransition sim.mode action))

def verify (program : Program) : Edit Unit :=
  match program.verifiedCode with
  | .ok _ => pure ()
  | .error e => throw (.simulation (.code e))

def settle : Edit Unit := do
  modify Simulation.remix
  modify Simulation.liftHalt

end Edit

namespace Operation
open Simulation (insertNode)

/-- The operation, with each of its changes made as soon as its turn comes. -/
def inPlace : Operation → Edit Unit
  | start => do
    let sim ← get
    if sim.puzzle.sets.isEmpty then throw (.simulation (.noTestSets sim.puzzle.id))
    else
      Edit.shift .edit .running "start"
      modify Simulation.resetRun
  | pause => Edit.shift .running .paused "pause"
  | resume => Edit.shift .paused .running "resume"
  | stop => modify Simulation.stop
  | tick => modify fun sim => sim.tick.after
  | addNode nodeClass slot => do
    match (← get).node? slot with
    | some _ => throw (.simulation (.slotOccupied slot))
    | none => modify fun sim => { sim with nodes := insertNode { nodeClass, slot } sim.nodes }
  | removeNode slot => do
    match (← get).node? slot with
    | none => throw (.simulation (.unknownSlot slot))
    | some node =>
      if node.fixed then throw (.simulation (.fixedNode slot))
      else
        modify fun sim => { sim with nodes := sim.nodes.filter fun n => n.slot ≠ slot }
        Edit.settle
  | setProgram slot source => do
    match (← get).node? slot with
    | none => throw (.simulation (.unknownSlot slot))
    | some node =>
      let assembly := node.assemble source
      if assembly.error = none then Edit.verify assembly.program
      modify fun sim => sim.replaceNode (node.install source assembly)
      Edit.settle
  | applyLayout files => Edit.applyLayout files
  | reload file => do
    let _ ← Edit.reload file

def told {α : Type} (r : Except SimulationError α) : Except LoadError Unit :=
  (r.map fun _ => ()).mapError .simulation

def answer (sim : Simulation) : Operation → Except LoadError Unit
  | start => told sim.start
  | pause => told sim.pause
  | resume => told sim.resume
  | stop => .ok ()
  | tick => .ok ()
  | addNode nodeClass slot => told (sim.addNode nodeClass slot)
  | removeNode slot => told (sim.removeNode slot)
  | setProgram slot source => told (sim.setProgram slot source)
  | applyLayout files => ((Edit.applyLayout files).perform sim).1
  | reload file => ((Edit.reload file).perform sim).1.map fun _ => ()

end Operation

namespace Edit

theorem perform_shift (source target : Mode) (action : String) (sim : Simulation) :
    (shift source target action).perform sim =
      (Operation.told (sim.transition source target action),
        Operation.attempted sim (sim.transition source target action)) := by
  rw [shift, perform_bind, perform_get]
  simp only [Simulation.transition]
  split_ifs <;> rfl

end Edit

namespace Operation

theorem perform_inPlace (op : Operation) (sim : Simulation) :
    op.inPlace.perform sim = (op.answer sim, op.after sim) := by
  cases op with
  | start =>
    rw [inPlace, Edit.perform_bind, Edit.perform_get]
    simp only [answer, after, Simulation.start]
    split_ifs with hsets
    · rfl
    · rw [Edit.perform_bind, Edit.perform_shift]
      cases sim.transition .edit .running "start" <;> rfl
  | pause => exact Edit.perform_shift .running .paused "pause" sim
  | resume => exact Edit.perform_shift .paused .running "resume" sim
  | stop => rfl
  | tick => rfl
  | addNode nodeClass slot =>
    rw [inPlace, Edit.perform_bind, Edit.perform_get]
    simp only [answer, after, Simulation.addNode]
    cases sim.node? slot <;> rfl
  | removeNode slot =>
    rw [inPlace, Edit.perform_bind, Edit.perform_get]
    simp only [answer, after, Simulation.removeNode]
    cases sim.node? slot with
    | none => rfl
    | some node =>
      simp only
      split_ifs <;> rfl
  | setProgram slot source =>
    rw [inPlace, Edit.perform_bind, Edit.perform_get]
    simp only [answer, after, Simulation.setProgram]
    cases sim.node? slot with
    | none => rfl
    | some node =>
      cases herror : (node.assemble source).error with
      | some e =>
        simp only [herror]
        rfl
      | none =>
        simp only [herror, if_true, Edit.verify]
        cases (node.assemble source).program.verifiedCode <;> rfl
  | applyLayout files => rfl
  | reload file =>
    rw [inPlace, Edit.perform_bind]
    simp only [answer, after]
    generalize (Edit.reload file).perform sim = r
    obtain ⟨_ | _, _⟩ := r <;> rfl

variable {sim : Simulation} {op : Operation} {e : LoadError}

/-- Why an operation is refused, and what it tells then. -/
inductive Refused (sim : Simulation) : Operation → LoadError → Prop
  | noSets (h : sim.puzzle.sets = []) : Refused sim .start (.simulation (.noTestSets sim.puzzle.id))
  | underway (hsets : sim.puzzle.sets ≠ []) (hmode : sim.mode ≠ .edit) :
      Refused sim .start (.simulation (.invalidTransition sim.mode "start"))
  | notRunning (hmode : sim.mode ≠ .running) :
      Refused sim .pause (.simulation (.invalidTransition sim.mode "pause"))
  | notPaused (hmode : sim.mode ≠ .paused) :
      Refused sim .resume (.simulation (.invalidTransition sim.mode "resume"))
  | occupied {nodeClass : NodeClass} {slot : UInt8} {n : Node} (hn : sim.node? slot = some n) :
      Refused sim (.addNode nodeClass slot) (.simulation (.slotOccupied slot))
  | nothing {slot : UInt8} (hn : sim.node? slot = none) :
      Refused sim (.removeNode slot) (.simulation (.unknownSlot slot))
  | placed {slot : UInt8} {n : Node} (hn : sim.node? slot = some n) (hfixed : n.fixed = true) :
      Refused sim (.removeNode slot) (.simulation (.fixedNode slot))
  | nowhere {slot : UInt8} {source : String} (hn : sim.node? slot = none) :
      Refused sim (.setProgram slot source) (.simulation (.unknownSlot slot))
  | barred {file : LayoutFile} {n : Node} (hn : sim.node? file.slot = some n)
      (hfixed : n.fixed = true) (hclass : n.nodeClass ≠ file.nodeClass) :
      Refused sim (.reload file) (.slotFixed file.path file.slot n.nodeClass)

theorem told_eq_error_iff {α : Type} {r : Except SimulationError α} :
    told r = .error e ↔ ∃ cause, r = .error cause ∧ .simulation cause = e := by
  cases r with
  | ok a => simp [told, Except.map, Except.mapError]
  | error cause => simp [told, Except.map, Except.mapError]

theorem refused_of_answer (hop : ∀ files, op ≠ .applyLayout files)
    (h : op.answer sim = .error e) : Refused sim op e := by
  cases op with
  | start =>
    obtain ⟨cause, hstart, rfl⟩ := told_eq_error_iff.mp h
    obtain ⟨hsets, rfl⟩ | ⟨hsets, hmode, rfl⟩ := Simulation.start_eq_error_iff.mp hstart
    · exact .noSets hsets
    · exact .underway hsets hmode
  | pause =>
    obtain ⟨cause, hpause, rfl⟩ := told_eq_error_iff.mp h
    obtain ⟨hmode, rfl⟩ := Simulation.transition_eq_error_iff.mp hpause
    exact .notRunning hmode
  | resume =>
    obtain ⟨cause, hresume, rfl⟩ := told_eq_error_iff.mp h
    obtain ⟨hmode, rfl⟩ := Simulation.transition_eq_error_iff.mp hresume
    exact .notPaused hmode
  | stop => cases h
  | tick => cases h
  | addNode nodeClass slot =>
    obtain ⟨cause, hadd, rfl⟩ := told_eq_error_iff.mp h
    obtain ⟨⟨n, hn⟩, rfl⟩ := Simulation.addNode_eq_error_iff.mp hadd
    exact .occupied hn
  | removeNode slot =>
    obtain ⟨cause, hremove, rfl⟩ := told_eq_error_iff.mp h
    obtain ⟨hn, rfl⟩ | ⟨n, hn, hfixed, rfl⟩ := Simulation.removeNode_eq_error_iff.mp hremove
    · exact .nothing hn
    · exact .placed hn hfixed
  | setProgram slot source =>
    obtain ⟨cause, hset, rfl⟩ := told_eq_error_iff.mp h
    obtain ⟨hn, rfl⟩ := Simulation.setProgram_eq_error_iff.mp hset
    exact .nowhere hn
  | applyLayout files => exact absurd rfl (hop files)
  | reload file =>
    have hreloads := Edit.reloads file sim
    rw [answer] at h
    generalize (Edit.reload file).perform sim = result at h hreloads
    cases hreloads with
    | refused hn hfixed hclass =>
      cases h
      exact .barred hn hfixed hclass
    | loaded => cases h

theorem Refused.perform (h : Refused sim op e) : op.inPlace.perform sim = (.error e, sim) := by
  have hfailed : ∀ {r : Except SimulationError Simulation} {cause : SimulationError},
      r = .error cause → (told r, attempted sim r) = (.error (.simulation cause), sim) := by
    rintro _ cause rfl
    rfl
  rw [perform_inPlace]
  cases h with
  | noSets hsets => exact hfailed (Simulation.start_eq_error_iff.mpr (.inl ⟨hsets, rfl⟩))
  | underway hsets hmode =>
    exact hfailed (Simulation.start_eq_error_iff.mpr (.inr ⟨hsets, hmode, rfl⟩))
  | notRunning hmode => exact hfailed (Simulation.transition_eq_error_iff.mpr ⟨hmode, rfl⟩)
  | notPaused hmode => exact hfailed (Simulation.transition_eq_error_iff.mpr ⟨hmode, rfl⟩)
  | occupied hn => exact hfailed (Simulation.addNode_eq_error_iff.mpr ⟨⟨_, hn⟩, rfl⟩)
  | nothing hn =>
    rw [answer, after, Simulation.removeNode_eq_error_iff.mpr (.inl ⟨hn, rfl⟩)]
    rfl
  | placed hn hfixed =>
    rw [answer, after, Simulation.removeNode_eq_error_iff.mpr (.inr ⟨_, hn, hfixed, rfl⟩)]
    rfl
  | nowhere hn => exact hfailed (Simulation.setProgram_eq_error_iff.mpr ⟨hn, rfl⟩)
  | barred hn hfixed hclass =>
    rw [answer, after, Edit.reload_refused hn hclass hfixed]
    rfl

theorem perform_eq_error_iff (hop : ∀ files, op ≠ .applyLayout files) {t : Simulation} :
    op.inPlace.perform sim = (.error e, t) ↔ Refused sim op e ∧ t = sim := by
  constructor
  · intro h
    have hanswer := h
    rw [perform_inPlace, Prod.mk.injEq] at hanswer
    have hreason := refused_of_answer hop hanswer.1
    rw [hreason.perform, Prod.mk.injEq] at h
    exact ⟨hreason, h.2.symm⟩
  · rintro ⟨hreason, rfl⟩
    exact hreason.perform

/-- An operation is refused for the reasons that `Refused` lists and for no others, and leaves the
simulation as it was, although it makes its changes one by one: none is made before the last check.
A reload is refused where a node of the puzzle holds the slot in another class, and only there. -/
theorem refused_untouched (sim : Simulation) :
    (∀ op : Operation, (∀ files, op ≠ .applyLayout files) →
      op.inPlace.perform sim = (op.answer sim, op.after sim) ∧
        ∀ e t, op.inPlace.perform sim = (.error e, t) ↔ Refused sim op e ∧ t = sim) ∧
    ∀ (file : LayoutFile) (t : Simulation),
      (∃ e, (Edit.reload file).perform sim = (.error e, t)) ↔
        (∃ n, sim.node? file.slot = some n ∧ n.fixed = true ∧ n.nodeClass ≠ file.nodeClass) ∧
          t = sim := by
  refine ⟨fun op hop => ⟨perform_inPlace op sim, fun e t => perform_eq_error_iff hop⟩, ?_⟩
  intro file t
  constructor
  · rintro ⟨e, he⟩
    obtain ⟨⟨n, hn, hfixed, hclass, -⟩, ht⟩ := Edit.reload_eq_error_iff.mp he
    exact ⟨⟨n, hn, hfixed, hclass⟩, ht⟩
  · rintro ⟨⟨n, hn, hfixed, hclass⟩, rfl⟩
    exact ⟨_, Edit.reload_refused hn hclass hfixed⟩

def manned : Simulation :=
  { puzzle := { Simulation.echo.puzzle with fixedNodes := [.tiny] }
    settings := {}
    nodes := [Node.setProgram { nodeClass := .tiny, slot := 0, fixed := true } "MOV OUTPUT INPUT"]
    mode := .running }

def usurper : LayoutFile := ⟨0, .small, "0-8x3.qasm", "NOP"⟩

theorem refused_untouched_manned :
    (Operation.start.inPlace.perform manned =
      (.error (.simulation (.invalidTransition .running "start")), manned)) ∧
    ((Operation.removeNode 0).inPlace.perform manned =
      (.error (.simulation (.fixedNode 0)), manned)) ∧
    ∃ e, (Edit.reload usurper).perform manned = (.error e, manned) := by
  obtain ⟨hops, hreload⟩ := refused_untouched manned
  have hnode : manned.node? 0 = manned.nodes.head? := by decide +kernel
  refine ⟨?_, ?_, ?_⟩
  · refine ((hops .start (fun _ h => by cases h)).2 _ _).mpr ⟨.underway ?_ ?_, rfl⟩
    · decide +kernel
    · decide +kernel
  · exact ((hops (.removeNode 0) (fun _ h => by cases h)).2 _ _).mpr ⟨.placed hnode rfl, rfl⟩
  · exact (hreload usurper manned).mpr ⟨⟨_, hnode, rfl, by decide +kernel⟩, rfl⟩

end Operation
end Lockstep
