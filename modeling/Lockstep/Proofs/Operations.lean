import Lockstep.Loading.Edit
import Lockstep.Proofs.Ticking

/-!
What can be done to a simulation, as data: `Operation` lists the operations, `Operated` what each of
them can do, and `Reachable` the simulations they lead to. Loading a file makes the same changes as
editing by hand, so what the three edits keep is kept by it too.
-/
namespace Lockstep

namespace Simulation

/-- Any number of nodes added, removed and given programs. -/
inductive Edited (sim : Simulation) : Simulation → Prop
  | refl : Edited sim sim
  | addNode {t u : Simulation} {nodeClass : NodeClass} {slot : UInt8} (h : Edited sim t)
      (hu : t.addNode nodeClass slot = .ok u) : Edited sim u
  | removeNode {t u : Simulation} {node : Node} {slot : UInt8} (h : Edited sim t)
      (hu : t.removeNode slot = .ok (node, u)) : Edited sim u
  | setProgram {t u : Simulation} {slot : UInt8} {source : String} (h : Edited sim t)
      (hu : t.setProgram slot source = .ok u) : Edited sim u

theorem Edited.trans {s t u : Simulation} (hst : Edited s t) (htu : Edited t u) : Edited s u := by
  induction htu with
  | refl => exact hst
  | addNode _ hu ih => exact ih.addNode hu
  | removeNode _ hu ih => exact ih.removeNode hu
  | setProgram _ hu ih => exact ih.setProgram hu

theorem liftHalt_eq (sim : Simulation) : ∃ halted, sim.liftHalt = { sim with halted } := by
  unfold liftHalt
  split_ifs
  · exact ⟨false, rfl⟩
  · exact ⟨sim.halted, rfl⟩

/-- Editing leaves the run where it is; only a halt can end. -/
theorem Edited.same_run {s t : Simulation} (h : Edited s t) :
    ∃ nodes channels halted, t = { s with nodes, channels, halted } := by
  induction h with
  | refl => exact ⟨s.nodes, s.channels, s.halted, rfl⟩
  | @addNode t u nodeClass slot _ hu ih =>
    obtain ⟨nodes, channels, halted, rfl⟩ := ih
    unfold Simulation.addNode at hu
    split at hu
    · cases hu
    · cases hu
      exact ⟨_, _, _, rfl⟩
  | @removeNode t u node slot _ hu ih =>
    obtain ⟨nodes, channels, halted, rfl⟩ := ih
    unfold Simulation.removeNode at hu
    split at hu
    · cases hu
    · split_ifs at hu
      cases hu
      obtain ⟨halted', hl⟩ := liftHalt_eq _
      exact ⟨_, _, halted', hl⟩
  | @setProgram t u slot source _ hu ih =>
    obtain ⟨nodes, channels, halted, rfl⟩ := ih
    unfold Simulation.setProgram at hu
    split at hu
    · cases hu
    · obtain ⟨halted', hl⟩ := liftHalt_eq _
      simp only at hu
      split at hu
      · cases hu
        exact ⟨_, _, halted', hl⟩
      · split at hu
        · cases hu
          exact ⟨_, _, halted', hl⟩
        · cases hu

theorem placeEntry_edited {sim after : Simulation} {e : LayoutEntry}
    (h : sim.placeEntry e = .ok after) : Edited sim after := by
  unfold placeEntry at h
  split at h
  · split_ifs at h
    exact Edited.refl.setProgram h
  · cases hp : sim.addNode e.nodeClass e.slot with
    | error err => simp [hp, bind, Except.bind] at h
    | ok placed =>
      simp only [hp, bind, Except.bind] at h
      exact (Edited.refl.addNode hp).setProgram h

theorem foldlM_placeEntry_edited {entries : Layout} {sim after : Simulation}
    (h : entries.foldlM placeEntry sim = .ok after) : Edited sim after := by
  induction entries generalizing sim with
  | nil =>
    cases h
    exact .refl
  | cons e entries ih =>
    simp only [List.foldlM_cons, bind, Except.bind] at h
    cases hp : sim.placeEntry e with
    | error err => simp [hp] at h
    | ok placed =>
      simp only [hp] at h
      exact (placeEntry_edited hp).trans (ih h)

theorem ofCode_eq_ok_iff {puzzle : Puzzle} {settings : Settings} {text : String}
    {sim : Simulation} :
    ofCode puzzle settings text = .ok sim ↔ ∃ layout bare, Layout.decode text = .ok layout ∧
      ofPuzzle puzzle settings = .ok bare ∧ layout.foldlM placeEntry bare = .ok sim := by
  unfold ofCode
  constructor
  · intro h
    split at h
    · cases h
    · rename_i layout hlayout
      cases hb : ofPuzzle puzzle settings with
      | error e => simp [hb, bind, Except.bind] at h
      | ok bare =>
        simp only [hb, bind, Except.bind] at h
        exact ⟨layout, bare, hlayout, rfl, h⟩
  · rintro ⟨layout, bare, hlayout, hb, h⟩
    simp only [hlayout, hb, bind, Except.bind]
    exact h

theorem ofCode_edited {puzzle : Puzzle} {settings : Settings} {text : String} {sim : Simulation}
    (h : ofCode puzzle settings text = .ok sim) :
    ∃ bare, ofPuzzle puzzle settings = .ok bare ∧ Edited bare sim := by
  obtain ⟨layout, bare, -, hb, hplaced⟩ := ofCode_eq_ok_iff.mp h
  exact ⟨bare, hb, foldlM_placeEntry_edited hplaced⟩

end Simulation

namespace Edit
open Simulation (Edited)
variable {α β : Type}

theorem perform_bind (edit : Edit α) (next : α → Edit β) (sim : Simulation) :
    (edit >>= next).perform sim =
      match edit.perform sim with
      | (.ok a, after) => (next a).perform after
      | (.error e, after) => (.error e, after) := by
  simp only [perform, ExceptT.run_bind, StateT.run_bind]
  rcases edit.run.run sim with ⟨_ | a, after⟩ <;> rfl

theorem perform_attempt (blame : SimulationError → LoadError)
    (change : Simulation → Except SimulationError Simulation) (sim : Simulation) :
    (attempt blame change).perform sim =
      match change sim with
      | .ok after => (.ok (), after)
      | .error e => (.error (blame e), sim) := by
  have hg : (get : Edit Simulation).perform sim = (.ok sim, sim) := rfl
  rw [attempt, perform_bind, hg]
  cases h : change sim <;> simp only [h] <;> rfl

def Edits (edit : Edit α) : Prop := ∀ sim, Edited sim (edit.perform sim).2

theorem edits_pure (a : α) : Edits (pure a) := fun _ => .refl

theorem edits_throw (e : LoadError) : Edits (throw e : Edit α) := fun _ => .refl

theorem edits_get : Edits get := fun _ => .refl

theorem Edits.bind {edit : Edit α} {next : α → Edit β} (he : edit.Edits)
    (hn : ∀ a, (next a).Edits) : (edit >>= next).Edits := by
  intro sim
  have h := he sim
  rw [perform_bind]
  generalize edit.perform sim = r at h
  obtain ⟨_ | a, after⟩ := r
  · exact h
  · exact h.trans (hn a after)

theorem edits_attempt {blame : SimulationError → LoadError}
    {change : Simulation → Except SimulationError Simulation}
    (hc : ∀ sim after, change sim = .ok after → Edited sim after) :
    (attempt blame change).Edits := by
  intro sim
  rw [perform_attempt]
  cases h : change sim with
  | error e => exact .refl
  | ok after => exact hc sim after h

theorem edits_add (file : LayoutFile) : (add file).Edits :=
  edits_attempt fun _ _ h => Edited.refl.addNode h

theorem edits_remove (slot : UInt8) : (remove slot).Edits := by
  apply edits_attempt
  intro sim after h
  cases hr : sim.removeNode slot with
  | error e => simp [hr, Except.map] at h
  | ok r =>
    obtain ⟨node, after'⟩ := r
    obtain rfl : after' = after := by simpa [hr, Except.map] using h
    exact Edited.refl.removeNode hr

theorem edits_place (file : LayoutFile) : (place file).Edits := by
  refine edits_get.bind fun sim => ?_
  split
  · split_ifs
    · exact (edits_pure ()).bind fun _ => edits_attempt fun _ _ h => Edited.refl.setProgram h
    · exact (edits_throw _).bind fun _ => edits_attempt fun _ _ h => Edited.refl.setProgram h
  · exact (edits_add file).bind fun _ => edits_attempt fun _ _ h => Edited.refl.setProgram h

theorem edits_applyLayout (files : List LayoutFile) : (applyLayout files).Edits := by
  induction files with
  | nil => exact edits_pure ()
  | cons file rest ih => exact (edits_place file).bind fun _ => ih

theorem edits_reload (file : LayoutFile) : (reload file).Edits := by
  have hset : ∀ r : Reload, (attempt (.reloadFailed file.path) (fun sim =>
      sim.setProgram file.slot file.source) >>= fun _ => pure r).Edits := fun r =>
    (edits_attempt fun _ _ h => Edited.refl.setProgram h).bind fun _ => edits_pure r
  refine edits_get.bind fun sim => ?_
  split
  · exact (edits_add file).bind fun _ => hset _
  · split_ifs
    · exact (edits_pure ()).bind fun _ => hset _
    · exact (edits_throw _).bind fun _ => hset _
    · exact (edits_remove _).bind fun _ => (edits_add file).bind fun _ => hset _

end Edit

inductive Operation where
  | start
  | pause
  | resume
  | stop
  | tick
  | addNode (nodeClass : NodeClass) (slot : UInt8)
  | removeNode (slot : UInt8)
  | setProgram (slot : UInt8) (source : String)
  | applyLayout (files : List LayoutFile)
  | reload (file : LayoutFile)

namespace Operation

def attempted (sim : Simulation) : Except SimulationError Simulation → Simulation
  | .ok after => after
  | .error _ => sim

def after (sim : Simulation) : Operation → Simulation
  | start => attempted sim sim.start
  | pause => attempted sim sim.pause
  | resume => attempted sim sim.resume
  | stop => sim.stop
  | tick => sim.tick.after
  | addNode nodeClass slot => attempted sim (sim.addNode nodeClass slot)
  | removeNode slot => attempted sim ((sim.removeNode slot).map (·.2))
  | setProgram slot source => attempted sim (sim.setProgram slot source)
  | applyLayout files => ((Edit.applyLayout files).perform sim).2
  | reload file => ((Edit.reload file).perform sim).2

def events (sim : Simulation) : Operation → List Event
  | tick => sim.tick.events
  | _ => []

def busy (sim : Simulation) : Operation → Nat
  | tick => if sim.tick.outcome = .idle then 0 else 1
  | _ => 0

end Operation

namespace Simulation

/-- What an operation can do, with its events. One that is refused counts as no edit. -/
inductive Operated (sim : Simulation) : Operation → List Event → Simulation → Prop
  | edited {op : Operation} {t : Simulation} (hop : op ≠ .tick) (h : Edited sim t) :
      Operated sim op [] t
  | started (hmode : sim.mode = .edit) (hsets : sim.puzzle.sets ≠ []) :
      Operated sim .start [] sim.begun
  | paused (hmode : sim.mode = .running) : Operated sim .pause [] { sim with mode := .paused }
  | resumed (hmode : sim.mode = .paused) : Operated sim .resume [] { sim with mode := .running }
  | stopped : Operated sim .stop [] sim.stop
  | ticked : Operated sim .tick sim.tick.events sim.tick.after

theorem transition_eq_ok {sim after : Simulation} {source target : Mode} {action : String}
    (h : sim.transition source target action = .ok after) :
    sim.mode = source ∧ after = { sim with mode := target } := by
  unfold transition at h
  split_ifs at h with hm
  exact ⟨hm, (Except.ok.inj h).symm⟩

theorem operated (op : Operation) (sim : Simulation) :
    Operated sim op (op.events sim) (op.after sim) := by
  cases op with
  | start =>
    simp only [Operation.events, Operation.after]
    cases h : sim.start with
    | error e => exact .edited (by simp) .refl
    | ok t =>
      obtain ⟨hmode, hsets, rfl⟩ := start_eq_ok h
      exact .started hmode hsets
  | pause =>
    simp only [Operation.events, Operation.after]
    cases h : sim.pause with
    | error e => exact .edited (by simp) .refl
    | ok t =>
      obtain ⟨hmode, rfl⟩ := transition_eq_ok h
      exact .paused hmode
  | resume =>
    simp only [Operation.events, Operation.after]
    cases h : sim.resume with
    | error e => exact .edited (by simp) .refl
    | ok t =>
      obtain ⟨hmode, rfl⟩ := transition_eq_ok h
      exact .resumed hmode
  | stop => exact .stopped
  | tick => exact .ticked
  | addNode nodeClass slot =>
    apply Operated.edited (by simp)
    simp only [Operation.after]
    cases h : sim.addNode nodeClass slot with
    | error e => exact .refl
    | ok t => exact Edited.refl.addNode h
  | removeNode slot =>
    apply Operated.edited (by simp)
    simp only [Operation.after]
    cases h : sim.removeNode slot with
    | error e => exact .refl
    | ok t => exact Edited.refl.removeNode h
  | setProgram slot source =>
    apply Operated.edited (by simp)
    simp only [Operation.after]
    cases h : sim.setProgram slot source with
    | error e => exact .refl
    | ok t => exact Edited.refl.setProgram h
  | applyLayout files => exact .edited (by simp) (Edit.edits_applyLayout files sim)
  | reload file => exact .edited (by simp) (Edit.edits_reload file sim)

/-- The simulations that operations lead to, from a puzzle or the code of a layout for it. -/
inductive Reachable : Simulation → Prop
  | ofPuzzle {puzzle : Puzzle} {settings : Settings} {sim : Simulation}
      (h : ofPuzzle puzzle settings = .ok sim) : Reachable sim
  | ofCode {puzzle : Puzzle} {settings : Settings} {text : String} {sim : Simulation}
      (h : ofCode puzzle settings text = .ok sim) : Reachable sim
  | after {sim : Simulation} (op : Operation) (h : Reachable sim) : Reachable (op.after sim)

end Simulation
end Lockstep
