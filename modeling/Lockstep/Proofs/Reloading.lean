import Lockstep.Proofs.Restoring
import Lockstep.Proofs.RunState

/-!
Reloading a file. Whatever is in its slot, a reload that is not refused leaves a fresh node there
with the program of the file, and every other slot as it was. In a simulation that operations lead
to, the channels and the halt follow from the nodes, so that says all about the simulation after it.
-/
namespace Lockstep

namespace LayoutFile

def node (file : LayoutFile) (fixed : Bool) : Node :=
  Node.setProgram { nodeClass := file.nodeClass, slot := file.slot, fixed } file.source

def report (file : LayoutFile) : Reload :=
  let assembly := assemble file.source file.nodeClass.lines
  { path := file.path
    slot := file.slot
    count := assembly.program.length
    error := assembly.error.map .static }

theorem setProgram_eq_node {file : LayoutFile} {n : Node} (hslot : n.slot = file.slot)
    (hclass : n.nodeClass = file.nodeClass) : n.setProgram file.source = file.node n.fixed := by
  simp only [node, Node.setProgram, Node.install, Node.assemble, Node.reset, hslot, hclass]

end LayoutFile

namespace Simulation

def fixedAt (sim : Simulation) (slot : UInt8) : Bool := (sim.node? slot).any Node.fixed

theorem node?_addNode {sim after : Simulation} {nodeClass : NodeClass} {added : UInt8}
    (h : sim.addNode nodeClass added = .ok after) (slot : UInt8) :
    after.node? slot =
      if slot = added then some { nodeClass, slot := added } else sim.node? slot := by
  obtain ⟨hfree, rfl⟩ := addNode_eq_ok h
  exact find?_insertNode (node?_eq_none hfree) slot

theorem node?_removeNode {sim after : Simulation} {node : Node} {removed : UInt8}
    (h : sim.removeNode removed = .ok (node, after)) (slot : UInt8) :
    after.node? slot = if slot = removed then none else sim.node? slot := by
  obtain ⟨-, -, rfl⟩ := removeNode_eq_ok h
  rw [node?, liftHalt_nodes]
  simp only [remix, List.find?_filter]
  split_ifs with hslot
  · rw [List.find?_eq_none]
    simp [hslot]
  · rw [node?]
    congr 1
    funext n
    by_cases hn : n.slot = slot <;> simp [hn, hslot]

/-- The slot is not held by a node of the puzzle in another class than the file's. -/
def Admits (sim : Simulation) (file : LayoutFile) : Prop :=
  ∀ n, sim.node? file.slot = some n → n.fixed = true → n.nodeClass = file.nodeClass

def SameRun (s t : Simulation) : Prop :=
  t = { s with nodes := t.nodes, channels := t.channels, halted := t.halted }

theorem SameRun.trans {s t u : Simulation} (hst : SameRun s t) (htu : SameRun t u) :
    SameRun s u := by
  rw [SameRun, hst] at htu
  exact htu

/-- All that comes of a file that is reloaded. -/
structure Reloaded (sim : Simulation) (file : LayoutFile) (after : Simulation) : Prop where
  own : after.node? file.slot = some (file.node (sim.fixedAt file.slot))
  others : ∀ slot ≠ file.slot, after.node? slot = sim.node? slot
  run : sim.SameRun after

/-- What reloading a file can come to. It is refused by a node of the puzzle in another class and by
nothing else. -/
inductive Reloads (sim : Simulation) (file : LayoutFile) :
    Except LoadError Reload × Simulation → Prop
  | refused {n : Node} (hn : sim.node? file.slot = some n) (hfixed : n.fixed = true)
      (hclass : n.nodeClass ≠ file.nodeClass) :
      Reloads sim file (.error (.slotFixed file.path file.slot n.nodeClass), sim)
  | loaded {after : Simulation} (hadmits : sim.Admits file) (h : sim.Reloaded file after) :
      Reloads sim file (.ok file.report, after)

theorem Reloaded.node? {sim after : Simulation} {file : LayoutFile} (h : sim.Reloaded file after)
    (slot : UInt8) :
    after.node? slot =
      if slot = file.slot then some (file.node (sim.fixedAt file.slot)) else sim.node? slot := by
  split_ifs with hslot
  · rw [hslot, h.own]
  · exact h.others slot hslot

theorem Reloaded.fixedAt {sim after : Simulation} {file : LayoutFile} (h : sim.Reloaded file after)
    (slot : UInt8) : after.fixedAt slot = sim.fixedAt slot := by
  rw [Simulation.fixedAt, h.node?]
  split_ifs with hslot
  · rw [hslot]
    rfl
  · rfl

end Simulation

namespace Edit
open Simulation (Reloads Reloaded)
variable {sim : Simulation} {file : LayoutFile}

theorem perform_get (sim : Simulation) : (get : Edit Simulation).perform sim = (.ok sim, sim) := rfl

theorem perform_add {after : Simulation} (h : sim.addNode file.nodeClass file.slot = .ok after) :
    (add file).perform sim = (.ok (), after) := by
  rw [add, perform_attempt, h]

theorem perform_remove {after : Simulation} {node : Node} {slot : UInt8}
    (h : sim.removeNode slot = .ok (node, after)) :
    (remove slot).perform sim = (.ok (), after) := by
  rw [remove, perform_attempt, h]
  rfl

theorem perform_setProgram {n : Node} (hn : sim.node? file.slot = some n)
    (hclass : n.nodeClass = file.nodeClass) (blame : SimulationError → LoadError) :
    ∃ after, (attempt blame fun sim => sim.setProgram file.slot file.source).perform sim =
        (.ok (), after) ∧
      ∀ slot, after.node? slot =
        if slot = file.slot then some (file.node n.fixed) else sim.node? slot := by
  obtain ⟨after, hset⟩ : ∃ after, sim.setProgram file.slot file.source = .ok after :=
    ⟨_, Simulation.setProgram_ok hn _⟩
  refine ⟨after, ?_, fun slot => ?_⟩
  · rw [perform_attempt, hset]
  · rw [Simulation.node?_setProgram hn hset slot,
      LayoutFile.setProgram_eq_node (Simulation.node?_eq_some hn).2 hclass]

def finish (file : LayoutFile) : Edit Reload := do
  attempt (.reloadFailed file.path) fun sim => sim.setProgram file.slot file.source
  return file.report

theorem perform_finish {n : Node} (hn : sim.node? file.slot = some n)
    (hclass : n.nodeClass = file.nodeClass) :
    ∃ after, (finish file).perform sim = (.ok file.report, after) ∧
      ∀ slot, after.node? slot =
        if slot = file.slot then some (file.node n.fixed) else sim.node? slot := by
  obtain ⟨after, hset, hnodes⟩ := perform_setProgram hn hclass (.reloadFailed file.path)
  refine ⟨after, ?_, hnodes⟩
  rw [finish, perform_bind, hset]
  rfl

theorem reloaded_of_ready {ready after : Simulation} {n : Node} (hedited : sim.Edited after)
    (hnodes : ∀ slot, after.node? slot =
      if slot = file.slot then some (file.node n.fixed) else ready.node? slot)
    (hfixed : n.fixed = sim.fixedAt file.slot)
    (hothers : ∀ slot ≠ file.slot, ready.node? slot = sim.node? slot) :
    sim.Reloaded file after := by
  refine ⟨?_, fun slot hslot => ?_, ?_⟩
  · rw [hnodes, if_pos rfl, hfixed]
  · rw [hnodes, if_neg hslot, hothers slot hslot]
  · obtain ⟨nodes, channels, halted, rfl⟩ := hedited.same_run
    rfl

theorem reloads_of_ready {ready : Simulation} {n : Node}
    (hperform : (reload file).perform sim = (finish file).perform ready)
    (hn : ready.node? file.slot = some n) (hclass : n.nodeClass = file.nodeClass)
    (hfixed : n.fixed = sim.fixedAt file.slot)
    (hothers : ∀ slot ≠ file.slot, ready.node? slot = sim.node? slot)
    (hadmits : sim.Admits file) : Reloads sim file ((reload file).perform sim) := by
  obtain ⟨after, hfinish, hnodes⟩ := perform_finish hn hclass
  have hedited : sim.Edited ((reload file).perform sim).2 := edits_reload file sim
  rw [hperform, hfinish] at hedited ⊢
  exact .loaded hadmits (reloaded_of_ready hedited hnodes hfixed hothers)

theorem perform_add_next {α : Type} (next : Edit α) (hfree : sim.node? file.slot = none) :
    ∃ ready, (add file >>= fun _ => next).perform sim = next.perform ready ∧
      ∀ slot, ready.node? slot =
        if slot = file.slot then some { nodeClass := file.nodeClass, slot := file.slot }
        else sim.node? slot := by
  obtain ⟨ready, hadd⟩ : ∃ ready, sim.addNode file.nodeClass file.slot = .ok ready := by
    rw [Simulation.addNode, hfree]
    exact ⟨_, rfl⟩
  refine ⟨ready, ?_, Simulation.node?_addNode hadd⟩
  rw [perform_bind, perform_add hadd]

theorem reloads_vacant (hn : sim.node? file.slot = none) :
    Reloads sim file ((reload file).perform sim) := by
  obtain ⟨ready, hfinish, hnodes⟩ := perform_add_next (finish file) hn
  have hperform : (reload file).perform sim = (finish file).perform ready := by
    rw [← hfinish, reload, perform_bind, perform_get]
    simp only [hn]
    rfl
  refine reloads_of_ready hperform ((hnodes _).trans (if_pos rfl)) rfl ?_ ?_ ?_
  · rw [Simulation.fixedAt, hn]
    rfl
  · exact fun slot hslot => (hnodes slot).trans (if_neg hslot)
  · intro m hm
    cases hn.symm.trans hm

theorem reloads_kept {n : Node} (hn : sim.node? file.slot = some n)
    (hclass : n.nodeClass = file.nodeClass) : Reloads sim file ((reload file).perform sim) := by
  have hperform : (reload file).perform sim = (finish file).perform sim := by
    rw [reload, perform_bind, perform_get]
    simp only [hn, hclass, if_true]
    rfl
  refine reloads_of_ready hperform hn hclass ?_ (fun _ _ => rfl) ?_
  · rw [Simulation.fixedAt, hn]
    rfl
  · rintro m hm -
    cases hn.symm.trans hm
    exact hclass

theorem reloads_replaced {n : Node} (hn : sim.node? file.slot = some n)
    (hclass : n.nodeClass ≠ file.nodeClass) (hfixed : n.fixed = false) :
    Reloads sim file ((reload file).perform sim) := by
  obtain ⟨bare, hremove⟩ : ∃ bare, sim.removeNode file.slot = .ok (n, bare) := by
    simp only [Simulation.removeNode, hn, hfixed]
    exact ⟨_, rfl⟩
  have hbare := Simulation.node?_removeNode hremove
  obtain ⟨ready, hfinish, hnodes⟩ := perform_add_next (finish file) ((hbare _).trans (if_pos rfl))
  have hperform : (reload file).perform sim = (finish file).perform ready := by
    rw [← hfinish, reload, perform_bind, perform_get]
    simp only [hn, hclass, hfixed, if_false, Bool.false_eq_true]
    rw [perform_bind, perform_remove hremove]
    rfl
  refine reloads_of_ready hperform ((hnodes _).trans (if_pos rfl)) rfl ?_ ?_ ?_
  · rw [Simulation.fixedAt, hn]
    exact hfixed.symm
  · intro slot hslot
    rw [hnodes, if_neg hslot, hbare, if_neg hslot]
  · intro m hm hmfixed
    cases hn.symm.trans hm
    cases hfixed.symm.trans hmfixed

theorem reload_refused {n : Node} (hn : sim.node? file.slot = some n)
    (hclass : n.nodeClass ≠ file.nodeClass) (hfixed : n.fixed = true) :
    (reload file).perform sim = (.error (.slotFixed file.path file.slot n.nodeClass), sim) := by
  rw [reload, perform_bind, perform_get]
  simp only [hn, hclass, hfixed, if_true, if_false]
  rfl

theorem reloads (file : LayoutFile) (sim : Simulation) :
    Reloads sim file ((reload file).perform sim) := by
  cases hn : sim.node? file.slot with
  | none => exact reloads_vacant hn
  | some n =>
    by_cases hclass : n.nodeClass = file.nodeClass
    · exact reloads_kept hn hclass
    · cases hfixed : n.fixed with
      | false => exact reloads_replaced hn hclass hfixed
      | true =>
        rw [reload_refused hn hclass hfixed]
        exact .refused hn hfixed hclass

theorem reload_eq_error_iff {e : LoadError} {after : Simulation} :
    (reload file).perform sim = (.error e, after) ↔
      (∃ n, sim.node? file.slot = some n ∧ n.fixed = true ∧ n.nodeClass ≠ file.nodeClass ∧
        .slotFixed file.path file.slot n.nodeClass = e) ∧ after = sim := by
  constructor
  · intro h
    have hreloads := reloads file sim
    rw [h] at hreloads
    cases hreloads with
    | refused hn hfixed hclass => exact ⟨⟨_, hn, hfixed, hclass, rfl⟩, rfl⟩
  · rintro ⟨⟨n, hn, hfixed, hclass, rfl⟩, rfl⟩
    exact reload_refused hn hclass hfixed

theorem reload_ok (h : sim.Admits file) :
    ∃ after, (reload file).perform sim = (.ok file.report, after) := by
  have hreloads := reloads file sim
  generalize (reload file).perform sim = result at hreloads ⊢
  cases hreloads with
  | refused hn hfixed hclass => exact absurd (h _ hn hfixed) hclass
  | @loaded after => exact ⟨after, rfl⟩

theorem reloaded_of_ok {report : Reload} {after : Simulation}
    (h : (reload file).perform sim = (.ok report, after)) :
    report = file.report ∧ sim.Admits file ∧ sim.Reloaded file after := by
  have hreloads := reloads file sim
  rw [h] at hreloads
  cases hreloads with
  | loaded hadmits hafter => exact ⟨rfl, hadmits, hafter⟩

end Edit

namespace Simulation
variable {sim after : Simulation} {file : LayoutFile}

theorem Reachable.ext {s t : Simulation} (hs : Reachable s) (ht : Reachable t)
    (hsrun : sim.SameRun s) (htrun : sim.SameRun t) (h : ∀ slot, s.node? slot = t.node? slot) :
    s = t := by
  have hnodes : s.nodes = t.nodes := hs.placed.order.eq_of_node? ht.placed.order h
  have hchannels : s.channels = t.channels := by rw [hs.channels_eq, ht.channels_eq, hnodes]
  have hhalted : s.halted = t.halted := by
    rw [Bool.eq_iff_iff, (invariant_halt.reachable hs).halted_iff,
      (invariant_halt.reachable ht).halted_iff, hnodes]
  rw [hsrun, htrun, hnodes, hchannels, hhalted]

theorem Reachable.reload {answer : Except LoadError Reload} (hreach : Reachable sim)
    (h : (Edit.reload file).perform sim = (answer, after)) : Reachable after := by
  have hafter : (Operation.reload file).after sim = after := by rw [Operation.after, h]
  rw [← hafter]
  exact .after _ hreach

theorem Reloaded.admits (h : sim.Reloaded file after) : after.Admits file := by
  intro n hn _
  cases h.own.symm.trans hn
  rfl

theorem Reloaded.admits_other {other : LayoutFile} (h : sim.Reloaded file after)
    (hslot : other.slot ≠ file.slot) (ho : sim.Admits other) : after.Admits other := by
  intro n hn
  rw [h.others _ hslot] at hn
  exact ho n hn

theorem Reloaded.idempotent {again : Simulation} (h : sim.Reloaded file after)
    (hagain : after.Reloaded file again) (slot : UInt8) : again.node? slot = after.node? slot := by
  rw [hagain.node?, h.fixedAt]
  split_ifs with hslot
  · rw [hslot, h.own]
  · rfl

/-- What two files for different slots leave there does not depend on their order. -/
theorem Reloaded.comm {a b : LayoutFile} {s t u v : Simulation} (hslot : b.slot ≠ a.slot)
    (hs : sim.Reloaded a s) (ht : s.Reloaded b t) (hu : sim.Reloaded b u) (hv : u.Reloaded a v)
    (slot : UInt8) : t.node? slot = v.node? slot := by
  rw [ht.node?, hs.node?, hs.fixedAt, hv.node?, hu.node?, hu.fixedAt]
  by_cases hb : slot = b.slot
  · rw [if_pos hb, if_pos hb, if_neg (hb ▸ hslot)]
  · rw [if_neg hb, if_neg hb]

theorem Reloaded.admits_iff {other : LayoutFile} (h : sim.Reloaded file after)
    (hadmits : sim.Admits file) : after.Admits other ↔ sim.Admits other := by
  by_cases hslot : other.slot = file.slot
  · have hafter : after.Admits other ↔
        (sim.fixedAt file.slot = true → file.nodeClass = other.nodeClass) := by
      rw [Admits, hslot, h.own]
      exact ⟨fun ho => ho _ rfl, fun ho n hn => by cases hn; exact ho⟩
    rw [hafter, Admits, hslot, Simulation.fixedAt]
    cases hn : sim.node? file.slot with
    | none => simp
    | some n =>
      have hclass := hadmits n hn
      simp only [Option.any_some, Option.some.injEq, forall_eq']
      exact forall_congr' fun hfixed => by rw [hclass hfixed]
  · rw [Admits, h.others _ hslot, Admits]

inductive Applied : Simulation → List LayoutFile → Simulation → Prop
  | nil {sim : Simulation} : Applied sim [] sim
  | cons {sim next after : Simulation} {file : LayoutFile} {rest : List LayoutFile}
      (hadmits : sim.Admits file) (hfile : sim.Reloaded file next)
      (hrest : Applied next rest after) : Applied sim (file :: rest) after

theorem Applied.node? {batch : List LayoutFile} (h : sim.Applied batch after)
    (hslots : (batch.map (·.slot)).Nodup) (slot : UInt8) :
    after.node? slot =
      ((batch.find? fun f => f.slot = slot).map fun f => f.node (sim.fixedAt slot)).or
        (sim.node? slot) := by
  induction h with
  | nil => rfl
  | @cons sim next after file rest _ hfile _ ih =>
    obtain ⟨hfirst, hrest⟩ := List.nodup_cons.mp hslots
    rw [ih hrest, hfile.fixedAt, hfile.node?]
    by_cases hslot : slot = file.slot
    · have hnone : (rest.find? fun f => f.slot = slot) = none := by
        rw [List.find?_eq_none]
        intro f hf hfslot
        exact hfirst (List.mem_map.mpr ⟨f, hf, (of_decide_eq_true hfslot).trans hslot⟩)
      rw [hnone, if_pos hslot, List.find?_cons_of_pos (by simpa using hslot.symm), hslot]
      rfl
    · rw [if_neg hslot, List.find?_cons_of_neg (by simpa using Ne.symm hslot)]

/-- A file that is reloaded gives its slot a fresh node and leaves all else of the run alone.
Another time it changes nothing, and with a file for another slot it does not matter which is
first. -/
theorem reload_confluent (hreach : Reachable sim) {a : LayoutFile} {report : Reload}
    (ha : (Edit.reload a).perform sim = (.ok report, after)) :
    sim.Reloaded a after ∧ (Edit.reload a).perform after = (.ok report, after) ∧
      ∀ (b : LayoutFile) (told : Reload) (other : Simulation), b.slot ≠ a.slot →
        (Edit.reload b).perform sim = (.ok told, other) →
        ∃ both, (Edit.reload b).perform after = (.ok told, both) ∧
          (Edit.reload a).perform other = (.ok report, both) := by
  obtain ⟨rfl, hadmits, hafter⟩ := Edit.reloaded_of_ok ha
  have hreached := hreach.reload ha
  refine ⟨hafter, ?_, ?_⟩
  · obtain ⟨again, hperform⟩ := Edit.reload_ok hafter.admits
    obtain ⟨-, -, hagain⟩ := Edit.reloaded_of_ok hperform
    have hsame : again = after :=
      (hreached.reload hperform).ext hreached (hafter.run.trans hagain.run) hafter.run
        (hafter.idempotent hagain)
    rw [hperform, hsame]
  · intro b told other hslot hb
    obtain ⟨rfl, hadmitsb, hother⟩ := Edit.reloaded_of_ok hb
    obtain ⟨both, hboth⟩ := Edit.reload_ok (hafter.admits_other hslot hadmitsb)
    obtain ⟨both', hboth'⟩ := Edit.reload_ok (hother.admits_other hslot.symm hadmits)
    obtain ⟨-, -, hlast⟩ := Edit.reloaded_of_ok hboth
    obtain ⟨-, -, hlast'⟩ := Edit.reloaded_of_ok hboth'
    have hsame : both' = both :=
      ((hreach.reload hb).reload hboth').ext (hreached.reload hboth)
        (hother.run.trans hlast'.run) (hafter.run.trans hlast.run)
        fun slot => (Reloaded.comm hslot hafter hlast hother hlast' slot).symm
    exact ⟨both, hboth, hsame ▸ hboth'⟩

def silenced : LayoutFile := ⟨0, .small, "0-8x3.qasm", "NOP"⟩

def conceded : LayoutFile := ⟨1, .tiny, "1-4x1.qasm", "MOV OUTPUT 1"⟩

theorem reload_confluent_standoff :
    Reachable standoff ∧ standoff.halted = true ∧ ∃ after other both,
      (Edit.reload silenced).perform standoff = (.ok silenced.report, after) ∧
      (Edit.reload conceded).perform standoff = (.ok conceded.report, other) ∧
      after.halted = true ∧ other.halted = false ∧ standoff.Reloaded silenced after ∧
      (Edit.reload silenced).perform after = (.ok silenced.report, after) ∧
      (Edit.reload conceded).perform after = (.ok conceded.report, both) ∧
      (Edit.reload silenced).perform other = (.ok silenced.report, both) := by
  have hfirst : (Edit.reload silenced).perform standoff =
      (.ok silenced.report, (Operation.reload silenced).after standoff) := by decide +kernel
  have hsecond : (Edit.reload conceded).perform standoff =
      (.ok conceded.report, (Operation.reload conceded).after standoff) := by decide +kernel
  obtain ⟨hreloaded, hagain, hcomm⟩ := reload_confluent (reachable_vacant _) hfirst
  obtain ⟨both, hboth, hboth'⟩ := hcomm conceded _ _ (by decide) hsecond
  exact ⟨reachable_vacant _, by decide +kernel, _, _, both, hfirst, hsecond, by decide +kernel,
    by decide +kernel, hreloaded, hagain, hboth, hboth'⟩

end Simulation
end Lockstep
