import Lockstep.Proofs.Invariants
import Lockstep.Proofs.Restoring
import Lockstep.Proofs.StepFailure
import Lockstep.Validation.Basic

/-!
A program without warnings fails only where its output is refused. The warnings are about the three
other causes of a failure; where there are none, the node never broadcasts on a channel that it
reads, nor on more channels than it has room for, whatever it meets.
-/
namespace Lockstep

namespace Program

/-- A program that the linter says nothing about. -/
structure Quiet (p : Program) (nodeClass : NodeClass) : Prop where
  apart : ∀ i ∈ p, i.collides? = none
  unheard : ∀ i ∈ p, ∀ id ∈ i.channelsRead, id ∉ p.broadcastChannels
  few : p.broadcastChannels.length ≤ nodeClass.channels

theorem mem_broadcastChannels {p : Program} {i : Instruction} {id : UInt32} (hi : i ∈ p)
    (h : i.broadcasts? = some id) : id ∈ p.broadcastChannels :=
  List.mem_eraseDups.mpr (List.mem_filterMap.mpr ⟨i, hi, h⟩)

theorem warnings_eq_nil {i : Instruction} {broadcast : List UInt32} :
    i.warnings broadcast = [] ↔
      i.collides? = none ∧ ∀ id ∈ i.channelsRead, id ∉ broadcast := by
  rw [Instruction.warnings]
  cases i.collides? with
  | some id => simp
  | none => simp

theorem lint_eq_nil {p : Program} {nodeClass : NodeClass} :
    p.lint nodeClass = [] ↔ p.Quiet nodeClass := by
  have hwarnings : (p.flatMap fun i =>
      (i.warnings p.broadcastChannels).map (Diagnostic.mk i.line)) = [] ↔
      ∀ i ∈ p, i.warnings p.broadcastChannels = [] := by
    simp only [List.flatMap_eq_nil_iff, List.map_eq_nil_iff]
  rw [lint, List.append_eq_nil_iff, hwarnings]
  simp only [warnings_eq_nil]
  constructor
  · rintro ⟨hquiet, hfew⟩
    refine ⟨fun i hi => (hquiet i hi).1, fun i hi => (hquiet i hi).2, ?_⟩
    by_contra hmany
    rw [if_pos (Nat.lt_of_not_le hmany)] at hfew
    cases hfew
  · intro h
    exact ⟨fun i hi => ⟨h.apart i hi, h.unheard i hi⟩, if_neg (Nat.not_lt.mpr h.few)⟩

end Program

namespace Node
variable {n m : Node}

/-- A node with a program of which the linter says nothing. It broadcasts on channels that the
program is known to broadcast on and no others. -/
structure Vetted (n : Node) : Prop where
  wellFormed : n.program.WellFormed
  quiet : n.program.Quiet n.nodeClass
  distinct : n.active.Nodup
  foreseen : ∀ id ∈ n.active, id ∈ n.program.broadcastChannels

theorem vetted_of_silent (hw : n.program.WellFormed) (hq : n.program.Quiet n.nodeClass)
    (hb : n.broadcasts = []) : n.Vetted := by
  have hactive : n.active = [] := by rw [active, hb, List.map_nil]
  refine ⟨hw, hq, ?_, ?_⟩
  · rw [hactive]
    exact List.nodup_nil
  · rw [hactive]
    exact fun id hid => absurd hid List.not_mem_nil

theorem vetted_new (nodeClass : NodeClass) (slot : UInt8) (fixed : Bool) :
    Vetted { nodeClass, slot, fixed } :=
  vetted_of_silent nofun ⟨nofun, nofun, Nat.zero_le _⟩ rfl

theorem vetted_setProgram {source : String}
    (herror : (Lockstep.assemble source n.nodeClass.lines).error = none)
    (hlint : (Lockstep.assemble source n.nodeClass.lines).program.lint n.nodeClass = []) :
    (n.setProgram source).Vetted := by
  have hprogram : (n.setProgram source).program =
    (Lockstep.assemble source n.nodeClass.lines).program := rfl
  apply vetted_of_silent
  · rw [hprogram]
    exact Simulation.wellFormed_assemble n herror
  · rw [hprogram]
    exact Program.lint_eq_nil.mp hlint
  · rfl

theorem Vetted.has_room (h : n.Vetted) {id : UInt32} (hid : id ∈ n.program.broadcastChannels)
    (hnew : id ∉ n.active) : n.broadcasts.length < n.nodeClass.channels := by
  -- the channels in use and the new one are distinct, and all are among those that were counted
  have hsubset : id :: n.active ⊆ n.program.broadcastChannels :=
    List.cons_subset.mpr ⟨hid, h.foreseen⟩
  have hnodup : (id :: n.active).Nodup := List.nodup_cons.mpr ⟨hnew, h.distinct⟩
  have hle := (List.subperm_of_subset hnodup hsubset).length_le
  have hlength : n.active.length = n.broadcasts.length := List.length_map _
  have hfew := h.quiet.few
  rw [List.length_cons, hlength] at hle
  omega

/-- Only a value other than zero turns a channel on, and the linter counts every move of one. -/
theorem broadcasts?_of_mov {i : Instruction} {id : UInt32} {source : Operand} {value : Int}
    (hop : i.opcode = .mov) (hops : i.operands = [.channel id, source])
    (hzero : source = .immediate 0 → value = 0) (hv : clamp value ≠ 0) :
    i.broadcasts? = some id := by
  rw [Instruction.broadcasts?, hop, hops]
  refine if_neg fun hsource => hv ?_
  rw [hzero hsource]
  rfl

theorem Vetted.broadcast_ne_error (h : n.Vetted) {id : UInt32} {v : Int}
    (hid : v ≠ 0 → id ∈ n.program.broadcastChannels) (fault : RuntimeFault) :
    n.broadcast id v ≠ .error fault := by
  intro hb
  unfold broadcast at hb
  split_ifs at hb with hv hactive hroom
  exact hroom (h.has_room (hid hv) hactive)

theorem Vetted.refused (h : n.Vetted) {σ : Type} {t : Terminal σ} {ch : Channels} {s : σ}
    {fault : RuntimeFault} (hf : (n.step t ch s).1 = .failed fault) :
    ∃ reason value u, fault = .refused reason ∧
      t.write value u = (.error reason, (n.step t ch s).2.2) := by
  obtain ⟨i, hi, hcause⟩ := step_cause
    (fun i hi => ⟨(h.wellFormed i hi).conforms, (h.wellFormed i hi).encodable⟩) hf
  -- every other cause is one that a warning is given for
  cases hcause with
  | collides hc =>
    rw [h.quiet.apart i hi] at hc
    cases hc
  | ownBroadcast hread hactive =>
    exact absurd (h.foreseen _ hactive) (h.quiet.unheard i hi _ hread)
  | noRoom hop hops hzero hb =>
    refine absurd hb (h.broadcast_ne_error (fun hv => ?_) fault)
    exact Program.mem_broadcastChannels hi (broadcasts?_of_mov hop hops hzero hv)
  | refused hw => exact ⟨_, _, _, rfl, hw⟩

theorem Vetted.effect {i : Instruction} (h : n.Vetted) (hi : i ∈ n.program) (he : n.Effect i m) :
    m.Vetted := by
  cases he with
  | none => exact h
  | stored value => exact ⟨h.wellFormed, h.quiet, h.distinct, h.foreseen⟩
  | broadcast hop hops hzero hm =>
    obtain ⟨-, hclass, -, hprogram⟩ := Simulation.fields_of_reset (broadcast_reset hm)
    refine ⟨?_, ?_, broadcast_nodup hm h.distinct, ?_⟩
    · rw [hprogram]
      exact h.wellFormed
    · rw [hprogram, hclass]
      exact h.quiet
    · intro id hid
      rw [hprogram]
      obtain ⟨b, hb, rfl⟩ := List.mem_map.mp hid
      rcases mem_of_broadcast hm hb with hb | ⟨rfl, hv⟩
      · exact h.foreseen _ (List.mem_map_of_mem hb)
      · exact Program.mem_broadcastChannels hi (broadcasts?_of_mov hop hops hzero hv)

theorem vetted_enduring : Enduring Vetted := by
  refine ⟨fun n h => vetted_of_silent h.wellFormed h.quiet rfl,
    fun n h => ⟨h.wellFormed, h.quiet, h.distinct, h.foreseen⟩, ?_⟩
  intro n m r hstep h
  cases hstep with
  | idle => exact h
  | continued _ hi he =>
    have hm := h.effect hi he
    exact ⟨hm.wellFormed, hm.quiet, hm.distinct, hm.foreseen⟩
  | jumped => exact ⟨h.wellFormed, h.quiet, h.distinct, h.foreseen⟩
  | failed => exact ⟨h.wellFormed, h.quiet, h.distinct, h.foreseen⟩

end Node

def LayoutFile.Clean (file : LayoutFile) : Prop :=
  ∃ validated, (Validation.ofSource file.path file.source file.nodeClass).verdict = .ok validated ∧
    validated.diagnostics = []

theorem LayoutFile.clean_iff {file : LayoutFile} :
    file.Clean ↔ (assemble file.source file.nodeClass.lines).error = none ∧
      (assemble file.source file.nodeClass.lines).program.lint file.nodeClass = [] := by
  simp only [Clean, Validation.ofSource]
  constructor
  · rintro ⟨validated, hverdict, hquiet⟩
    split at hverdict
    · cases hverdict
    · rename_i herror
      cases hverdict
      exact ⟨herror, hquiet⟩
  · rintro ⟨herror, hquiet⟩
    rw [herror]
    exact ⟨_, rfl, hquiet⟩

instance (file : LayoutFile) : Decidable file.Clean := decidable_of_iff _ LayoutFile.clean_iff.symm

namespace Simulation
variable {sim : Simulation}

theorem vetted_setFile {file : LayoutFile} (hfile : file.Clean) (hns : ∀ n ∈ sim.nodes, n.Vetted)
    (hclass : ∀ n, sim.node? file.slot = some n → n.nodeClass = file.nodeClass)
    (blame : SimulationError → LoadError) :
    ∀ n ∈ ((Edit.attempt blame fun sim => sim.setProgram file.slot file.source).perform sim).2.nodes,
      n.Vetted := by
  rw [Edit.perform_attempt]
  cases h : sim.setProgram file.slot file.source with
  | error e => exact hns
  | ok t =>
    obtain ⟨herror, hlint⟩ := LayoutFile.clean_iff.mp hfile
    intro n hn
    rcases mem_of_setProgram h hn with ⟨node, hnode, rfl⟩ | hn
    · rw [← hclass node hnode] at herror hlint
      exact Node.vetted_setProgram herror hlint
    · exact hns n hn

theorem vetted_place {file : LayoutFile} (hfile : file.Clean) (hns : ∀ n ∈ sim.nodes, n.Vetted) :
    ∀ n ∈ ((Edit.place file).perform sim).2.nodes, n.Vetted := by
  have hget : (get : Edit Simulation).perform sim = (.ok sim, sim) := rfl
  rw [Edit.place, Edit.perform_bind, hget]
  simp only
  split
  · rename_i node hnode
    split_ifs with hheld
    · refine vetted_setFile hfile hns ?_ _
      intro n hn
      rw [hnode] at hn
      cases hn
      exact hheld.2
    · exact hns
  · rw [Edit.perform_bind, Edit.add, Edit.perform_attempt]
    cases h : sim.addNode file.nodeClass file.slot with
    | error e => exact hns
    | ok t =>
      refine vetted_setFile hfile ?_ ?_ _
      · intro n hn
        rcases mem_of_addNode h hn with rfl | hn
        · exact Node.vetted_new _ _ _
        · exact hns n hn
      · -- the node that is found in the slot is the one just placed
        obtain ⟨hfree, rfl⟩ := addNode_eq_ok h
        intro n hn
        rw [node?, find?_insertNode (node?_eq_none hfree), if_pos rfl] at hn
        cases hn
        rfl

theorem vetted_applyLayout {files : List LayoutFile} (hfiles : ∀ file ∈ files, file.Clean)
    (hns : ∀ n ∈ sim.nodes, n.Vetted) :
    ∀ n ∈ ((Edit.applyLayout files).perform sim).2.nodes, n.Vetted := by
  induction files generalizing sim with
  | nil => exact hns
  | cons file files ih =>
    obtain ⟨hfile, hrest⟩ := List.forall_mem_cons.mp hfiles
    have hplaced := vetted_place hfile hns
    rw [Edit.applyLayout, Edit.perform_bind]
    generalize (Edit.place file).perform sim = r at hplaced
    obtain ⟨e | _, after⟩ := r
    · exact hplaced
    · exact ih hrest hplaced

theorem Exchange.write_refusal {offer : Offer} {slot : UInt8} {value : Int} {x y : Exchange}
    {reason : String} (h : x.write offer slot value = (.error reason, y)) :
    reason = "Output collision" ∨ reason = "Output overflow" := by
  unfold Exchange.write at h
  split at h
  · split_ifs at h
    · cases h
    · cases h
      exact .inl rfl
  · split_ifs at h
    · cases h
    · cases h
      exact .inr rfl

theorem halted_of_vetted (hns : ∀ n ∈ sim.nodes, n.Vetted) {slot : UInt8} {error : NodeError}
    (h : sim.tick.outcome = .halted slot error) :
    error.message = "Output collision" ∨ error.message = "Output overflow" := by
  have ht := sim.tick_ticked
  generalize sim.tick = tick at h ht
  cases ht with
  | halted _ hs =>
    cases h
    obtain ⟨n, hn, x, fault, hfailed, -, rfl⟩ :=
      Exchange.stepNodes_failure (congrArg (·.2.2) hs)
    obtain ⟨reason, value, u, rfl, hwrite⟩ := (hns n hn).refused hfailed
    exact Exchange.write_refusal hwrite
  | _ => cases h

/-- The linter is sound. A node whose program gives no warning fails only where its terminal refuses
a value, however it is used; and a simulation of such nodes halts only on a refused output. -/
theorem lint_sound :
    (∀ (n m : Node) (source : String),
      (assemble source n.nodeClass.lines).error = none →
      (assemble source n.nodeClass.lines).program.lint n.nodeClass = [] →
      (n.setProgram source).Reaches m →
      ∀ {σ : Type} (t : Terminal σ) (ch : Channels) (s : σ) (fault : RuntimeFault),
        (m.step t ch s).1 = .failed fault →
        ∃ reason value u, fault = .refused reason ∧
          t.write value u = (.error reason, (m.step t ch s).2.2)) ∧
    (∀ (puzzle : Puzzle) (settings : Settings) (bare : Simulation) (files : List LayoutFile)
      (ops : List Operation) (slot : UInt8) (error : NodeError),
      ofPuzzle puzzle settings = .ok bare →
      (∀ file ∈ files, file.Clean) →
      (∀ op ∈ ops, op.runs) →
      (((Edit.applyLayout files).perform bare).2.afterAll ops).tick.outcome = .halted slot error →
      error.message = "Output collision" ∨ error.message = "Output overflow") := by
  constructor
  · intro n m source herror hlint hreaches σ t ch s fault hfailed
    have hset : (n.setProgram source).Vetted := Node.vetted_setProgram herror hlint
    exact (Node.vetted_enduring.reaches hreaches hset).refused hfailed
  · intro puzzle settings bare files ops slot error hbare hfiles hops hhalted
    have hnew : ∀ n ∈ bare.nodes, n.Vetted := by
      intro n hn
      obtain ⟨nodeClass, slot, rfl⟩ := mem_of_ofPuzzle hbare hn
      exact Node.vetted_new _ _ _
    have hplaced := vetted_applyLayout hfiles hnew
    exact halted_of_vetted (Node.vetted_enduring.afterAll hplaced hops) hhalted

def shut : Terminal Unit := ⟨fun u => (0, u), fun _ u => (.error "shut", u)⟩

def duet : List LayoutFile :=
  [⟨0, .tiny, "0-4x1.qasm", "MOV CH1 7\nagain: MOV OUTPUT 1\nJMP again"⟩,
    ⟨1, .tiny, "1-4x1.qasm", "MOV OUTPUT CH1"⟩]

def soloist : Node :=
  ((Node.setProgram { nodeClass := .tiny, slot := 0 }
    "MOV CH1 7\nagain: MOV OUTPUT 1\nJMP again").step shut .empty ()).2.1

theorem lint_sound_duet :
    (∀ file ∈ duet, file.Clean) ∧
    (∃ fault, (soloist.step shut .empty ()).1 = .failed fault ∧
      ∃ reason value u, fault = .refused reason ∧
        shut.write value u = (.error reason, (soloist.step shut .empty ()).2.2)) ∧
    ∃ slot error,
      (((Edit.applyLayout duet).perform vacant).2.afterAll [.start, .tick]).tick.outcome =
        .halted slot error ∧
      (error.message = "Output collision" ∨ error.message = "Output overflow") := by
  have hclean : ∀ file ∈ duet, file.Clean := by decide +kernel
  have hfailed : (soloist.step shut .empty ()).1 = .failed (.refused "shut") := by decide +kernel
  have hhalted : (((Edit.applyLayout duet).perform vacant).2.afterAll [.start, .tick]).tick.outcome =
      .halted 1 (.runtime 0 (.refused "Output collision")) := by decide +kernel
  obtain ⟨herror, hlint⟩ := LayoutFile.clean_iff.mp (hclean _ (.head _))
  refine ⟨hclean, ⟨_, hfailed, ?_⟩, _, _, hhalted, ?_⟩
  · exact lint_sound.1 { nodeClass := .tiny, slot := 0 } soloist _ herror hlint
      (Node.Reaches.refl.step shut .empty ()) shut .empty () _ hfailed
  · exact lint_sound.2 echo.puzzle {} vacant duet [.start, .tick] _ _ ofPuzzle_vacant hclean
      (by decide) hhalted

end Simulation
end Lockstep
